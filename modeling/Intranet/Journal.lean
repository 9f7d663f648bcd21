/-!
# The journal

Events are written as lines of text with a level. Levels can be named in several ways in the
configuration.
-/

namespace Intranet

/-- The weight of an event. -/
inductive Level where
  | trace
  | debug
  | info
  | warn
  | error
  deriving DecidableEq, Repr

namespace Level

/-- The level in capitals. -/
def name : Level → String
  | trace => "TRACE"
  | debug => "DEBUG"
  | info => "INFO"
  | warn => "WARN"
  | error => "ERROR"

/-- The level in small letters. -/
def word : Level → String
  | trace => "trace"
  | debug => "debug"
  | info => "info"
  | warn => "warn"
  | error => "error"

end Level

/-- A line of the journal. -/
structure Line where
  level : Level
  text : String
  deriving DecidableEq, Repr

end Intranet

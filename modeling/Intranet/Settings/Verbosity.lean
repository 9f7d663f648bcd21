import Intranet.Journal
import Intranet.Settings.Basic
import Intranet.Text.Blank
import Intranet.Text.Letter

/-!
# Verbosity

Which events the journal takes, from the level that is configured.
-/

namespace Intranet

/-- The level with a name, of which there are several for each. -/
def Level.ofName? (name : String) : Option Level :=
  let word := Text.lower (Text.trim name)
  if word ∈ ["trace", "silly"] then some .trace
  else if word ∈ ["debug", "verbose"] then some .debug
  else if word ∈ ["info", "http", "log"] then some .info
  else if word ∈ ["warn", "warning"] then some .warn
  else if word ∈ ["error", "fatal"] then some .error
  else none

/-- The directives for the journal: a level for everything, the same for HTTP, and one for the
statements of the database. -/
def Settings.directives (level : String) (statements : Bool) : String :=
  let word := ((Level.ofName? level).getD .info).word
  word ++ ",http=" ++ word ++ ",sqlx::query=" ++ (if statements then "debug" else "warn")

end Intranet

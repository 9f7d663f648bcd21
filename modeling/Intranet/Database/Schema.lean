/-!
# The schema

The statements that prepare the database for its first use. The name of a schema is always written
with quotes, so that no name can become anything else in a statement.
-/

namespace Intranet.Database

/-- An identifier with quotes; a quote inside it is written twice. -/
def quoteIdentL (ident : List Char) : List Char :=
  '"' :: ident.flatMap (fun c => if c = '"' then ['"', '"'] else [c]) ++ ['"']

/-- An identifier with quotes. -/
def quoteIdent (ident : String) : String := String.ofList (quoteIdentL ident.toList)

/-- The schema that is always there. -/
def publicSchema : String := "public"

/-- The words in front of the name in the statement that creates a schema. -/
def createSchemaWords : String := "CREATE SCHEMA IF NOT EXISTS "

/-- The statement that creates a schema. -/
def createSchema (schema : String) : String := createSchemaWords ++ quoteIdent schema

/-- The statement that creates the table of identities. -/
def createUsers : String :=
  "CREATE TABLE IF NOT EXISTS users (
            id UUID PRIMARY KEY,
            login TEXT NOT NULL UNIQUE,
            display_name TEXT NOT NULL,
            email TEXT NULL,
            department TEXT NULL,
            title TEXT NULL,
            gender TEXT NULL,
            phone TEXT NULL,
            is_admin BOOLEAN NOT NULL DEFAULT FALSE,
            password_hash TEXT NULL,
            synced_at TIMESTAMPTZ NULL,
            created_at TIMESTAMPTZ NOT NULL DEFAULT now()
        )"

/-- The statement that creates the index of departments, which the portal can do without. -/
def createDepartmentIndex : String :=
  "CREATE INDEX IF NOT EXISTS idx_users_department ON users(department)"

/-- The statements before the index, in order. -/
def setUpStatements (schema : String) : List String :=
  (if schema = publicSchema then [] else [createSchema schema]) ++ [createUsers]

end Intranet.Database

import QueryBook.Session.Failure

/-!
# Where the test server is

Generated tests of network queries find their server through the environment: by a complete
connection string, or else by the number it listens on, together with a host and a user that have
defaults.
-/

namespace QueryBook.Settings

/-- The environment variables, by name. -/
abbrev Environment := List (String × String)

/-- The connection string of the test server. -/
def connectionString (env : Environment) : Except Failure String :=
  let nonempty (name : String) : Option String :=
    (env.lookup name).filter fun value => !value.isEmpty
  match nonempty "SQLFN_TEST_POSTGRES_DSN", nonempty "SQLFN_TEST_POSTGRES_PORT" with
  | some dsn, _ => .ok dsn
  | none, some number =>
    let host := (env.lookup "SQLFN_TEST_POSTGRES_HOST").getD "localhost"
    let user := (env.lookup "SQLFN_TEST_POSTGRES_USER").getD "postgres"
    .ok s!"user={user} host={host} port={number}"
  | none, none =>
    .error (.library (.config [.text
      "Set SQLFN_TEST_POSTGRES_DSN or SQLFN_TEST_POSTGRES_PORT to run PostgreSQL tests."]))

end QueryBook.Settings

import LispRepl.Text.Blank

/-!
# Log levels

How much the program says about itself. Of the level asked for on the command line, the level
named by the environment and the configured level, the first that there is counts; a name in the
environment that is none is ignored.

- `LogLevel`, `LogLevel.name`: the levels.
- `LogLevel.ofName`: the level of a name, which may have blanks around it and capitals in it.
- `LogLevel.resolve`: the level that counts.
-/

set_option autoImplicit false

namespace LispRepl

/-- How much the program says about itself. -/
inductive LogLevel where
  | debug
  | info
  | warn
  | error
deriving DecidableEq

namespace LogLevel

/-- The name of a level. -/
def name : LogLevel → String
  | .debug => "debug"
  | .info => "info"
  | .warn => "warn"
  | .error => "error"

/-- The level of a name; else the wording of what is wrong with it. -/
def ofName (s : String) : Except String LogLevel :=
  let word := Text.lowerAscii (Text.trim s)
  if word = "debug" ∨ word = "trace" then .ok .debug
  else if word = "info" then .ok .info
  else if word = "warn" ∨ word = "warning" then .ok .warn
  else if word = "error" then .ok .error
  else .error ("unknown log level '" ++ word ++ "'")

/-- The level that counts. -/
def resolve (asked : Option LogLevel) (environment : Option String) (configured : LogLevel) :
    LogLevel :=
  (asked.or (environment.bind fun s => (ofName s).toOption)).getD configured

end LogLevel

end LispRepl

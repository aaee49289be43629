import LispRepl.Text.Blank

/-!
# Where the evaluator runs

- `Isolation`, `Isolation.name`: in a thread of the program or in a process of its own.
- `Isolation.ofName`: the place of a name, which may have blanks around it and capitals in it.
-/

set_option autoImplicit false

namespace LispRepl

/-- Where the evaluator runs. -/
inductive Isolation where
  | thread
  | process
deriving DecidableEq

namespace Isolation

/-- The name of a place. -/
def name : Isolation → String
  | .thread => "thread"
  | .process => "process"

/-- The place of a name; else the wording of what is wrong with it. -/
def ofName (s : String) : Except String Isolation :=
  let word := Text.lowerAscii (Text.trim s)
  if word = "thread" then .ok .thread
  else if word = "process" then .ok .process
  else .error ("unknown isolation '" ++ word ++ "' (expected thread or process)")

end Isolation

end LispRepl

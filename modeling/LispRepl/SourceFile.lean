import LispRepl.Eval
import LispRepl.FileContent

/-!
# Source files

A source file is read whole and evaluated in a global scope of its own.

- `FileError`, `FileError.chain`: why a file has no value, as a chain of causes.
- `runFile`: the text of the value of a file.
-/

set_option autoImplicit false

namespace LispRepl

/-- Why a file has no value. -/
inductive FileError where
  | unreadable (name : String) (fault : ReadFault)
  | failed (name : String) (error : LispError)
deriving DecidableEq

/-- The wording of each cause, the outermost first. -/
def FileError.chain : FileError → List String
  | .unreadable name fault => ["Failed to read file: " ++ name, fault.message]
  | .failed name error => ["Failed to evaluate " ++ name, error.message]

/-- The text of the value of the file `name` with this content. -/
def runFile (limit : Nat) (name : String) (file : FileContent) : Except FileError String := do
  let source ← file.text.mapError (.unreadable name)
  (evalSource limit source).mapError (.failed name)

end LispRepl

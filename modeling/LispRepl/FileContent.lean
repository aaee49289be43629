import LispRepl.Text.Utf8

/-!
# Files

What a path leads to, and why that may be no text.

- `FileContent`: what a path leads to.
- `FileContent.text`: the text of a file.
-/

set_option autoImplicit false

namespace LispRepl

/-- What a path leads to. -/
inductive FileContent where
  | missing
  /-- The path goes on behind a file. -/
  | behindFile
  | directory
  | bytes (bytes : List UInt8)
deriving DecidableEq

/-- Why a file cannot be read. -/
inductive ReadFault where
  | missing
  | behindFile
  | directory
  | notText
deriving DecidableEq

/-- The wording of why a file cannot be read. -/
def ReadFault.message : ReadFault → String
  | .missing => "No such file or directory (os error 2)"
  | .behindFile => "Not a directory (os error 20)"
  | .directory => "Is a directory (os error 21)"
  | .notText => "stream did not contain valid UTF-8"

/-- The text of a file. -/
def FileContent.text : FileContent → Except ReadFault String
  | .missing => .error .missing
  | .behindFile => .error .behindFile
  | .directory => .error .directory
  | .bytes content =>
    match Text.decode? content with
    | some cs => .ok (String.ofList cs)
    | none => .error .notText

/-- There is something at the path. -/
def FileContent.present : FileContent → Bool
  | .missing => false
  | .behindFile => false
  | .directory => true
  | .bytes _ => true

end LispRepl

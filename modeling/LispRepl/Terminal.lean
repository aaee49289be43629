import LispRepl.Text.Blank
import LispRepl.Text.Lines
import LispRepl.Text.Utf8

/-!
# Terminals

A terminal shows lines of output and is asked for lines of input one at a time: a read is armed
with a prompt, and later the terminal delivers an event.

- `InputLine`: a line of input, decoded from bytes if need be.
- `TerminalEvent`, `TerminalError`: what a terminal delivers, and why it refuses.
- `Terminal`: the two requests that a session makes of a terminal.
-/

set_option autoImplicit false

namespace LispRepl

/-- A line of input without its line end. -/
structure InputLine where
  text : String
deriving DecidableEq

namespace InputLine

/-- The line with these bytes, of which a line feed at the end and then a carriage return are
dropped; bytes that encode no character read as the replacement character. -/
def ofBytes (bytes : List UInt8) : InputLine :=
  ⟨String.ofList (Text.decodeLossy (Text.dropLast 13 (Text.dropLast 10 bytes)))⟩

/-- The line holds nothing but blanks. -/
def isBlank (line : InputLine) : Bool :=
  Text.isBlankText line.text

end InputLine

/-- What a terminal delivers. -/
inductive TerminalEvent where
  | line (line : InputLine)
  /-- The user asks to stop what is going on; `signal` names how. -/
  | interrupt (signal : String)
  /-- There is no more input. -/
  | closed
deriving DecidableEq

/-- Why a terminal refuses a request. -/
inductive TerminalError where
  | closed
deriving DecidableEq

/-- The wording of a refusal. -/
def TerminalError.message : TerminalError → String
  | .closed => "terminal is closed"

/-- What a session asks of a terminal. -/
class Terminal (τ : Type) where
  /-- Arms a read with a prompt; an armed terminal stays as it is. -/
  readLine : τ → String → Except TerminalError τ
  /-- Shows a line of output. -/
  writeLine : τ → String → Except TerminalError τ

end LispRepl

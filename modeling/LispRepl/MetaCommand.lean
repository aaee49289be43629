import LispRepl.Text.Blank

/-!
# Meta commands

Between expressions, a line that begins with a colon is a command to the session itself. Its first
word says which; blanks around the colon and what follows the word do not matter.

- `MetaCommand`: what a command asks for.
- `MetaCommand.ofLine?`: the command of a line.
-/

set_option autoImplicit false

namespace LispRepl

/-- What a command asks for. -/
inductive MetaCommand where
  | exit
  /-- Give up the input. -/
  | clear
  | output (lines : List String)
deriving DecidableEq

namespace MetaCommand

/-- What `:help` shows. -/
def helpLines : List String :=
  ["Available commands:",
   "  :quit, :q      - Exit the REPL",
   "  :help, :h      - Show this help",
   "  :clear, :c     - Discard pending input and reset the evaluator",
   "Ctrl-C interrupts the current input; Ctrl-D exits."]

/-- The characters up to the first blank, blanks at the start aside. -/
def firstWord (cs : List Char) : List Char :=
  (Text.trimStartChars cs).takeWhile fun c => !Text.isBlank c

/-- The command with this first word on the line `whole`. -/
def ofWord (word : String) (whole : String) : MetaCommand :=
  if word = "quit" ∨ word = "q" ∨ word = "exit" then .exit
  else if word = "help" ∨ word = "h" then .output helpLines
  else if word = "clear" ∨ word = "c" then .clear
  else .output ["Unknown command: " ++ whole]

/-- The command of a line; none where the line has no colon at its start. -/
def ofLine? (line : String) : Option MetaCommand :=
  match (Text.trim line).toList with
  | ':' :: cs => some (ofWord (String.ofList (firstWord cs)) (Text.trim line))
  | _ => none

end MetaCommand

end LispRepl

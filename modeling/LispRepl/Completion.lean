import LispRepl.Builtin
import LispRepl.SpecialForm
import LispRepl.Text.Blank

/-!
# Completion

The word under the cursor runs from behind the last delimiter before the cursor up to the cursor.
It is completed to the special forms and builtin procedures that begin with it, in the order of
their characters; the empty word is not completed. Positions in a line are counted in bytes of its
encoding.

- `completionWords`: what can be completed to, in the listed order.
- `Completion.candidates`: the start of the word and what it can be completed to.
-/

set_option autoImplicit false

namespace LispRepl

/-- The special forms and then the builtin procedures. -/
def completionWords : List String :=
  SpecialForm.all.map SpecialForm.name ++ Builtin.all.map Builtin.name

namespace Completion

/-- The characters that end a word. -/
def isDelimiter (c : Char) : Bool :=
  Text.isBlank c || c == '(' || c == ')' || c == '[' || c == ']' || c == '\'' || c == '"'

/-- The characters of a line before the byte position `pos`. -/
def before : Nat → List Char → List Char
  | _, [] => []
  | pos, c :: cs => if pos < c.utf8Size then [] else c :: before (pos - c.utf8Size) cs

/-- How many bytes the characters take. -/
def byteSize (cs : List Char) : Nat :=
  cs.foldr (fun c size => c.utf8Size + size) 0

/-- The characters behind the last delimiter. -/
def lastWord (cs : List Char) : List Char :=
  (cs.reverse.takeWhile fun c => !isDelimiter c).reverse

/-- A word with its characters in increasing order of words, each once. -/
def sortedWords : List String :=
  (completionWords.mergeSort fun a b => decide (a ≤ b)).eraseDups

/-- The words that begin with `word`, in increasing order. -/
def matching (word : List Char) : List String :=
  sortedWords.filter fun w => word.isPrefixOf w.toList

/-- The byte position where the word before `pos` begins, and what it can be completed to. -/
def candidates (line : String) (pos : Nat) : Nat × List String :=
  let head := before pos line.toList
  let word := lastWord head
  (byteSize head - byteSize word, if word = [] then [] else matching word)

/-- What the editor shows for each candidate, and what it puts in place of the word. -/
def pairs (line : String) (pos : Nat) : Nat × List (String × String) :=
  let (start, words) := candidates line pos
  (start, words.map fun w => (w, w))

end Completion

end LispRepl

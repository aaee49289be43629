import LispRepl.Text.Quoted
import LispRepl.Value

/-!
# The text of a value

A value is shown the way it is written: lists in round brackets with one space between items, a
tail behind a spaced point, strings quoted. Procedures have a text that cannot be read back, and
the unspecified value shows as nothing.

- `Value.chars`, `Value.text`: the text of a value.
- `Value.debugText`: the text that also names the unspecified value.
-/

set_option autoImplicit false

namespace LispRepl

namespace Value

mutual

/-- The characters of a value's text. -/
def chars : Value → List Char
  | .nil => "nil".toList
  | .unspecified => []
  | .bool true => "true".toList
  | .bool false => "false".toList
  | .number n => n.digits
  | .string s => Text.quoteChars s.toList
  | .symbol s => s.toList
  | .list items => '(' :: itemChars items ++ [')']
  | .dotted items tail => '(' :: itemChars items ++ " . ".toList ++ tail.chars ++ [')']
  | .builtin b => "#<builtin ".toList ++ b.name.toList ++ ['>']
  | .lambda _ (some name) _ _ _ _ => "#<lambda ".toList ++ name.toList ++ ['>']
  | .lambda _ none _ _ _ _ => "#<lambda>".toList

/-- The texts of the items with a space between neighbours. -/
def itemChars : List Value → List Char
  | [] => []
  | v :: vs => v.chars ++ spacedChars vs

/-- The texts of the items, each behind a space. -/
def spacedChars : List Value → List Char
  | [] => []
  | v :: vs => ' ' :: v.chars ++ spacedChars vs

end

/-- The text of a value. -/
def text (v : Value) : String :=
  String.ofList v.chars

/-- The text of a value, where the unspecified value has one too. -/
def debugText : Value → String
  | .unspecified => "#<unspecified>"
  | v => v.text

end Value

end LispRepl

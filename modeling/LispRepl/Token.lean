import LispRepl.Rational
import LispRepl.Text.Decimal

/-!
# Tokens

The lexical units of the language, each with the line it starts on, and the faults that a text
can have at this level. Round and square brackets are the same token.

- `TokenKind`, `Token`: the units.
- `LexError`: a string left open, an unknown escape, a malformed or unrepresentable number.
- `LexError.message`: the wording of each fault.
-/

set_option autoImplicit false

namespace LispRepl

/-- What a token is. -/
inductive TokenKind where
  /-- An opening bracket of either shape. -/
  | opening
  /-- A closing bracket of either shape. -/
  | closing
  /-- The quote mark before a datum. -/
  | quote
  /-- The point before the tail of a list. -/
  | dot
  | number (value : Rational)
  | string (text : String)
  | bool (value : Bool)
  | nil
  | symbol (name : String)
deriving DecidableEq

/-- A unit of the text and the line it starts on, counted from one. -/
structure Token where
  kind : TokenKind
  line : Nat
deriving DecidableEq

/-- The faults of a text that cannot be cut into tokens. -/
inductive LexError where
  /-- The text ends inside a string that began on `line`. -/
  | unterminatedString (line : Nat)
  /-- A backslash in a string stands before a character that it does not escape. -/
  | invalidEscape (char : Char)
  /-- A word starts like a number and is none, or none in range. -/
  | invalidNumber (word : String)
deriving DecidableEq

/-- The wording of a lexical fault. -/
def LexError.message : LexError → String
  | .unterminatedString line => "Unterminated string starting on line " ++ Text.natText line
  | .invalidEscape char => "Invalid escape sequence: \\" ++ char.toString
  | .invalidNumber word => "Invalid number literal: " ++ word

end LispRepl

/-!
# Decimal digits

Numbers are written in base ten with the ASCII digits, without leading zeros and with a minus
sign for a negative number. A digit string may have leading zeros when it is read.

- `isDigit`, `digitValue`: the ten digits.
- `natDigits`, `intText`, `natText`: the written form of a number.
- `readDigits?`: the value of a digit string, `none` for the empty string or another character.
-/

set_option autoImplicit false

namespace LispRepl.Text

/-- One of the ten ASCII digits. -/
def isDigit (c : Char) : Bool :=
  '0' ≤ c && c ≤ '9'

/-- The value of a digit. -/
def digitValue (c : Char) : Nat :=
  c.toNat - 48

/-- The digits of a number in base ten. -/
def natDigits (n : Nat) : List Char :=
  Nat.toDigits 10 n

/-- The digits of a number, after a minus sign when it is negative. -/
def intDigits (n : Int) : List Char :=
  if n < 0 then '-' :: natDigits n.natAbs else natDigits n.natAbs

/-- The written form of a natural number. -/
def natText (n : Nat) : String :=
  String.ofList (natDigits n)

/-- The written form of a number. -/
def intText (n : Int) : String :=
  String.ofList (intDigits n)

/-- The value of a string of digits, each ten times the weight of the next. -/
def digitsValue (cs : List Char) : Nat :=
  cs.foldl (fun n c => 10 * n + digitValue c) 0

/-- The value of a non-empty string of digits. -/
def readDigits? (cs : List Char) : Option Nat :=
  if cs ≠ [] ∧ cs.all isDigit then some (digitsValue cs) else none

/-- One more digit at the end is ten times the value and the digit. -/
theorem digitsValue_append_digit (cs : List Char) (c : Char) :
    digitsValue (cs ++ [c]) = 10 * digitsValue cs + digitValue c := by
  simp [digitsValue]

end LispRepl.Text

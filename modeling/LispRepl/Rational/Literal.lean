import LispRepl.Rational

/-!
# Number literals

A literal is an optional sign and then an integer, a fraction `n/d`, or a decimal with digits on
at least one side of the point, in ASCII digits. The sign is read apart from the digits: each of
the digit strings of an integer or a fraction has to fit a word by itself, and the digits of a
decimal have to fit a signed 128-bit word over their power of ten. A literal that denotes a number
out of range is read as none. The digits behind the point are counted in 32 bits: where there are so
many that the count wraps around, the power of ten is too small, and the literal may be read as a
number that it does not denote.

- `Rational.countPlaces`: the digits behind the point, as they are counted.
- `Rational.ofLiteral?`: the number that a text is read as.
-/

set_option autoImplicit false

namespace LispRepl

/-- The numbers from zero up that fit a signed 128-bit word. -/
def InWideWord (n : Nat) : Prop :=
  n < Nat.pow 2 127

instance (n : Nat) : Decidable (InWideWord n) :=
  inferInstanceAs (Decidable (_ < _))

namespace Rational

/-- The text before the first `sep` and the text behind it, when there is one. -/
def splitFirst (sep : Char) : List Char → Option (List Char × List Char)
  | [] => none
  | c :: cs =>
    if c = sep then some ([], cs)
    else (splitFirst sep cs).map fun (before, behind) => (c :: before, behind)

/-- A digit string whose value fits a word. -/
def wordDigits? (cs : List Char) : Option Int := do
  let n ← Text.readDigits? cs
  if InWord n then some n else none

/-- The digits on one side of the point, of which there may be none. -/
def sideDigits? (cs : List Char) : Option Nat :=
  if cs = [] then some 0 else Text.readDigits? cs

/-- How many digits there are, in a count of 32 bits. -/
def countPlaces (cs : List Char) : Nat :=
  cs.length % 4294967296

/-- The decimal with these digits before and behind the point. -/
def ofDecimal? (whole part : List Char) : Option Rational := do
  if whole = [] ∧ part = [] then none
  let w ← sideDigits? whole
  let p ← sideDigits? part
  let scale := Nat.pow 10 (countPlaces part)
  if InWideWord scale ∧ InWideWord (w * scale + p) then ofFraction? (w * scale + p : Nat) scale
  else none

/-- The number that a literal without a sign is read as. -/
def ofUnsigned? (cs : List Char) : Option Rational :=
  match splitFirst '/' cs with
  | some (n, d) => do ofFraction? (← wordDigits? n) (← wordDigits? d)
  | none =>
    match splitFirst '.' cs with
    | some (whole, part) => ofDecimal? whole part
    | none => do ofInt? (← wordDigits? cs)

/-- The number that a literal is read as. -/
def ofLiteralChars? : List Char → Option Rational
  | '-' :: cs => ofUnsigned? cs >>= neg?
  | '+' :: cs => ofUnsigned? cs
  | cs => ofUnsigned? cs

/-- The number that a text is read as, if it is a literal of a number in range. -/
def ofLiteral? (s : String) : Option Rational :=
  ofLiteralChars? s.toList

end Rational

end LispRepl

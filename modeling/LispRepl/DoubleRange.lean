/-!
# The range of doubles

A decimal number is read as the nearest double, and a magnitude from half a unit above the
greatest finite double on is read as infinite. A reader that multiplies doubles instead rounds
each of the two factors and then the product, which matters for numbers next to the bound alone.

- `isDouble`: a decimal number is read as a finite double.
- `nearestDouble`: the double that is nearest to a natural number.
- `isDoubleProduct`: the product of two doubles is read as a finite double.
-/

set_option autoImplicit false

namespace LispRepl

/-- The least magnitude that rounds to no finite double. -/
def doubleBound : Nat := Nat.pow 2 1024 - Nat.pow 2 970

/-- `digits` times ten to the power `scale` rounds to a finite double. Ten to the power 309 is
above the bound; and digits below eight to some power, divided by ten to that power, stay below
one, so that no power of ten is formed that is much longer than the digits. -/
def isDouble (digits : Nat) (scale : Int) : Bool :=
  if digits = 0 then true
  else if 308 < scale then false
  else if (Nat.log2 digits : Int) < 3 * -scale then true
  else digits * Nat.pow 10 scale.toNat < doubleBound * Nat.pow 10 (-scale).toNat

/-- The quotient rounded to the nearest natural number, a half to the even one. -/
def roundQuotient (n d : Nat) : Nat :=
  let rest := 2 * (n % d)
  if d < rest ∨ (d = rest ∧ n / d % 2 = 1) then n / d + 1 else n / d

/-- The double that is nearest to a natural number within range: 53 binary digits are kept. -/
def nearestDouble (n : Nat) : Nat :=
  let unit := Nat.pow 2 (Nat.log2 n - 52)
  roundQuotient n unit * unit

/-- The double nearest to `digits`, times or divided by the double nearest to the power of ten,
is finite. -/
def isDoubleProduct (digits : Nat) (scale : Int) : Bool :=
  if digits = 0 ∨ scale ≤ 0 then true
  else if 308 < scale then false
  else nearestDouble digits * nearestDouble (Nat.pow 10 scale.toNat) < doubleBound

end LispRepl

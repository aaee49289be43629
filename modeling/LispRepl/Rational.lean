import LispRepl.Text.Decimal

/-!
# Exact numbers

A number is a fraction in lowest terms with a positive denominator, whose numerator and
denominator fit a signed 64-bit word. There is no rounding: an operation whose result does not
fit has none.

- `InWord`: the range of a word.
- `Rational`: the numbers.
- `Rational.ofFraction?`: the reduced form of any fraction of integers that fits.
- `Rational.add?`, `sub?`, `mul?`, `div?`, `neg?`: the exact results that fit.
- `Rational.cmp`: the order of the fractions, by cross multiplication.
- `Rational.text`: `n`, or `n/d` when the denominator is not one.
-/

set_option autoImplicit false

namespace LispRepl

/-- The integers of a signed 64-bit word. -/
def InWord (n : Int) : Prop :=
  -9223372036854775808 ≤ n ∧ n ≤ 9223372036854775807

instance (n : Int) : Decidable (InWord n) :=
  inferInstanceAs (Decidable (_ ∧ _))

/-- A fraction in lowest terms over a positive denominator, both parts within a word. -/
structure Rational where
  num : Int
  den : Nat
  den_pos : 0 < den
  reduced : Nat.gcd num.natAbs den = 1
  num_inWord : InWord num
  den_inWord : InWord den
deriving DecidableEq

namespace Rational

/-- Two fractions with the same parts are the same number. -/
theorem eq_of_parts {a b : Rational} (hn : a.num = b.num) (hd : a.den = b.den) : a = b := by
  cases a; cases b; simp_all

/-- The integer `n` over one. -/
def ofInt (n : Int) (h : InWord n) : Rational where
  num := n
  den := 1
  den_pos := Nat.one_pos
  reduced := Nat.gcd_one_right _
  num_inWord := h
  den_inWord := by decide

/-- The number zero. -/
def zero : Rational := ofInt 0 (by decide)

/-- The number one. -/
def one : Rational := ofInt 1 (by decide)

/-- The integer as a number, when it fits. -/
def ofInt? (n : Int) : Option Rational :=
  if h : InWord n then some (ofInt n h) else none

/-- The numerator of `n / d` in lowest terms over a positive denominator. -/
def lowestNum (n d : Int) : Int :=
  let m : Int := (n.natAbs / Nat.gcd n.natAbs d.natAbs : Nat)
  if (n < 0) ↔ (d < 0) then m else -m

/-- The denominator of `n / d` in lowest terms. -/
def lowestDen (n d : Int) : Nat :=
  d.natAbs / Nat.gcd n.natAbs d.natAbs

theorem natAbs_lowestNum (n d : Int) :
    (lowestNum n d).natAbs = n.natAbs / Nat.gcd n.natAbs d.natAbs := by
  unfold lowestNum
  split <;> simp only [Int.natAbs_neg, Int.natAbs_natCast]

theorem lowestDen_pos {d : Int} (n : Int) (h : d ≠ 0) : 0 < lowestDen n d := by
  have hd : 0 < d.natAbs := Int.natAbs_pos.2 h
  exact Nat.div_pos (Nat.le_of_dvd hd (Nat.gcd_dvd_right _ _)) (Nat.gcd_pos_of_pos_right _ hd)

theorem gcd_lowest {d : Int} (n : Int) (h : d ≠ 0) :
    Nat.gcd (lowestNum n d).natAbs (lowestDen n d) = 1 := by
  rw [natAbs_lowestNum, lowestDen]
  exact Nat.coprime_div_gcd_div_gcd
    (Nat.gcd_pos_of_pos_right _ (Int.natAbs_pos.2 h))

/-- The number `n / d`; none for a zero denominator, or when the fraction in lowest terms does
not fit. -/
def ofFraction? (n d : Int) : Option Rational :=
  if hd : d = 0 then none
  else if h : InWord (lowestNum n d) ∧ InWord (lowestDen n d) then
    some ⟨lowestNum n d, lowestDen n d, lowestDen_pos n hd, gcd_lowest n hd, h.1, h.2⟩
  else none

/-- The sum, when it fits. -/
def add? (a b : Rational) : Option Rational :=
  ofFraction? (a.num * b.den + b.num * a.den) (a.den * b.den)

/-- The difference, when it fits. -/
def sub? (a b : Rational) : Option Rational :=
  ofFraction? (a.num * b.den - b.num * a.den) (a.den * b.den)

/-- The product, when it fits. -/
def mul? (a b : Rational) : Option Rational :=
  ofFraction? (a.num * b.num) (a.den * b.den)

/-- The quotient, when the divisor is not zero and it fits. -/
def div? (a b : Rational) : Option Rational :=
  ofFraction? (a.num * b.den) (a.den * b.num)

/-- The number with the other sign, when it fits. -/
def neg? (a : Rational) : Option Rational :=
  ofFraction? (-a.num) a.den

/-- The order of two numbers. -/
def cmp (a b : Rational) : Ordering :=
  compare (a.num * b.den) (b.num * a.den)

/-- The number is zero. -/
def isZero (a : Rational) : Bool :=
  a.num == 0

/-- The number is an integer. -/
def isInteger (a : Rational) : Bool :=
  a.den == 1

/-- The characters of a number: the numerator alone over one, else `n/d`. -/
def digits (a : Rational) : List Char :=
  if a.den = 1 then Text.intDigits a.num
  else Text.intDigits a.num ++ '/' :: Text.natDigits a.den

/-- The written form of a number. -/
def text (a : Rational) : String :=
  String.ofList a.digits

end Rational

end LispRepl

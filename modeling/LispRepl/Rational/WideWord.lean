import LispRepl.Rational

/-!
# Arithmetic in words

The parts of a number fit words of 64 bits, and the operations on numbers need no more than signed
words of 128 bits for everything that they compute on the way: the products and sums of the parts,
the factor by which a fraction is reduced, and the parts with their signs. Here each of these
results is held by such a word, or else ends the operation with an overflow.

- `InWide`, `Wide.hold`: the range of a wide word, and a result that has to fit it.
- `euclid`: the greatest common divisor, by remainders.
- `Wide.reduce`: the parts of a fraction in lowest terms, if they fit.
- `Wide.add`, `Wide.sub`, `Wide.mul`, `Wide.div`, `Wide.neg`: the operations on numbers.
- `Wide.cmp`: their order.
-/

set_option autoImplicit false

namespace LispRepl

/-- The integers of a signed 128-bit word. -/
def InWide (n : Int) : Prop :=
  -170141183460469231731687303715884105728 ≤ n ∧ n ≤ 170141183460469231731687303715884105727

instance (n : Int) : Decidable (InWide n) :=
  inferInstanceAs (Decidable (_ ∧ _))

/-- A computation had this result, which no wide word holds. -/
structure WideOverflow where
  result : Int
deriving DecidableEq

/-- A computation in wide words. -/
abbrev Wide (α : Type) : Type :=
  Except WideOverflow α

/-- The parts of a fraction. -/
abbrev Parts : Type :=
  Int × Int

/-- The parts of a number. -/
def Rational.parts (a : Rational) : Parts :=
  (a.num, a.den)

/-- The last remainder that is not zero when each number is divided by the next. -/
def euclid (a b : Nat) : Nat :=
  if b = 0 then a else euclid b (a % b)
termination_by b
decreasing_by exact Nat.mod_lt a (Nat.pos_of_ne_zero ‹_›)

theorem euclid_eq_gcd (a b : Nat) : euclid a b = Nat.gcd a b := by
  induction b using Nat.strongRecOn generalizing a with
  | ind b ih =>
    rw [euclid]
    split
    · rename_i zero
      rw [zero, Nat.gcd_zero_right]
    · rename_i some
      rw [ih (a % b) (Nat.mod_lt a (Nat.pos_of_ne_zero some)), Nat.gcd_comm b, ← Nat.gcd_rec,
        Nat.gcd_comm]

/-- The sign that makes `d` positive. -/
def signOf (d : Int) : Int :=
  if d < 0 then -1 else 1

theorem natAbs_signOf_mul (d n : Int) : (signOf d * n).natAbs = n.natAbs := by
  rw [signOf]
  split <;> omega

namespace Wide

/-- The result, when a wide word holds it. -/
def hold (n : Int) : Wide Int :=
  if InWide n then .ok n else .error ⟨n⟩

/-- A wide word holds every integer of at most 127 bits, whatever its sign. -/
theorem hold_of_natAbs_lt {n : Int} (h : n.natAbs < 170141183460469231731687303715884105728) :
    hold n = .ok n := by
  have fits : InWide n := by
    rw [InWide]
    omega
  exact if_pos fits

/-- The parts of `n / d` in lowest terms over a positive denominator; none for a zero denominator,
or when they do not fit words. -/
def reduce (n d : Int) : Wide (Option Parts) :=
  if d = 0 then .ok none
  else do
    let factor ← hold (max (euclid n.natAbs d.natAbs) 1 : Nat)
    let num ← hold ((← hold (signOf d * n)).tdiv factor)
    let den ← hold ((← hold (signOf d * d)).tdiv factor)
    return if InWord num ∧ InWord den then some (num, den) else none

/-- The numerators are brought to the product of the denominators and then combined. -/
def combine (op : Int → Int → Int) (a b : Rational) : Wide (Option Parts) := do
  let left ← hold (a.num * b.den)
  let right ← hold (b.num * a.den)
  reduce (← hold (op left right)) (← hold (a.den * b.den))

/-- The parts of the sum. -/
def add (a b : Rational) : Wide (Option Parts) :=
  combine (· + ·) a b

/-- The parts of the difference. -/
def sub (a b : Rational) : Wide (Option Parts) :=
  combine (· - ·) a b

/-- The parts of the product. -/
def mul (a b : Rational) : Wide (Option Parts) := do
  reduce (← hold (a.num * b.num)) (← hold (a.den * b.den))

/-- The parts of the quotient. -/
def div (a b : Rational) : Wide (Option Parts) := do
  reduce (← hold (a.num * b.den)) (← hold (a.den * b.num))

/-- The parts of the number with the other sign. -/
def neg (a : Rational) : Wide (Option Parts) := do
  reduce (← hold (-a.num)) a.den

/-- The order of two numbers. -/
def cmp (a b : Rational) : Wide Ordering := do
  return compare (← hold (a.num * b.den)) (← hold (b.num * a.den))

end Wide

end LispRepl

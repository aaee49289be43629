import LispRepl.Proofs.NumberText
import LispRepl.Rational.WideWord
import Mathlib.Data.Rat.Lemmas
import Mathlib.Tactic.Ring

/-!
# Exact arithmetic

A number stands for a rational, and the operations are those of the rationals wherever the result is
a number again: reduced to lowest terms over a positive denominator, both parts have to fit words.
Where they do not, the operation has no result. Whether the parts fit before they are reduced does
not matter, because everything on the way is held by wide words: a product of two parts is `2 ^ 126`
at most, and two crosswise products stay below `2 ^ 127` together, since one factor of each is a
denominator, which never has the largest size of a numerator.

- `Rational.toRat`: the exact value.
- `Rational.num_div`, `Rational.den_div`: the parts in lowest terms are those of the exact value.
- `Rational.ofFraction?_eq_some_iff_toRat`: a number is told by its exact value.
- `Wide.reduce_eq`, `Wide.combine_eq`: the operations in words overflow nowhere.
- `Rational.IsExact`, `Rational.arithmetic_is_exact`: what an exact result is, and that all are.
-/

set_option autoImplicit false

namespace LispRepl

namespace Rational

/-- The exact value. -/
def toRat (a : Rational) : ℚ :=
  a.num / a.den

variable {n d : Int} {r : Rational}

/-! ## Fractions in lowest terms -/

/-- The common factor is what a fraction is reduced by, and the sign is that of the denominator. -/
theorem factor_mul_lowestNum (n d : Int) :
    (Nat.gcd n.natAbs d.natAbs : Int) * lowestNum n d = signOf d * n := by
  have size : (Nat.gcd n.natAbs d.natAbs : Int) *
      (n.natAbs / Nat.gcd n.natAbs d.natAbs : Nat) = n.natAbs := by
    exact_mod_cast Nat.mul_div_cancel' (Nat.gcd_dvd_left n.natAbs d.natAbs)
  simp only [lowestNum, signOf]
  split <;> split <;> simp only [Int.mul_neg, size] <;> omega

theorem factor_mul_lowestDen (n d : Int) :
    (Nat.gcd n.natAbs d.natAbs : Int) * lowestDen n d = signOf d * d := by
  have size : (Nat.gcd n.natAbs d.natAbs : Int) * lowestDen n d = d.natAbs := by
    exact_mod_cast Nat.mul_div_cancel' (Nat.gcd_dvd_right n.natAbs d.natAbs)
  rw [size, signOf]
  split <;> omega

theorem factor_pos (n : Int) (h : d ≠ 0) : 0 < Nat.gcd n.natAbs d.natAbs :=
  Nat.gcd_pos_of_pos_right _ (Int.natAbs_pos.2 h)

/-- The parts in lowest terms stand in the ratio of the parts. -/
theorem lowestNum_mul (n : Int) (h : d ≠ 0) : lowestNum n d * d = n * lowestDen n d := by
  have positive : (Nat.gcd n.natAbs d.natAbs : Int) ≠ 0 := by
    exact_mod_cast Nat.ne_of_gt (factor_pos n h)
  apply Int.eq_of_mul_eq_mul_left positive
  calc (Nat.gcd n.natAbs d.natAbs : Int) * (lowestNum n d * d)
      = signOf d * n * d := by rw [← Int.mul_assoc, factor_mul_lowestNum]
    _ = n * (signOf d * d) := by ring
    _ = Nat.gcd n.natAbs d.natAbs * (n * lowestDen n d) := by
      rw [← factor_mul_lowestDen n d]
      ring

theorem lowest_div_lowest (n : Int) (h : d ≠ 0) :
    (lowestNum n d : ℚ) / (lowestDen n d : Int) = n / d := by
  have den : ((lowestDen n d : Int) : ℚ) ≠ 0 := by
    exact_mod_cast Nat.ne_of_gt (lowestDen_pos n h)
  rw [div_eq_div_iff den (by exact_mod_cast h)]
  exact_mod_cast lowestNum_mul n h

/-- The parts in lowest terms are those of the exact value. -/
theorem num_div (n : Int) (h : d ≠ 0) : ((n : ℚ) / d).num = lowestNum n d := by
  rw [← lowest_div_lowest n h]
  exact Rat.num_div_eq_of_coprime (Int.natCast_pos.2 (lowestDen_pos n h)) (gcd_lowest n h)

theorem den_div (n : Int) (h : d ≠ 0) : ((n : ℚ) / d).den = lowestDen n d := by
  rw [← lowest_div_lowest n h]
  exact_mod_cast Rat.den_div_eq_of_coprime (Int.natCast_pos.2 (lowestDen_pos n h)) (gcd_lowest n h)

theorem ofFraction?_eq_some_iff (h : d ≠ 0) :
    ofFraction? n d = some r ↔ InWord (lowestNum n d) ∧ InWord (lowestDen n d) ∧
      r.num = lowestNum n d ∧ r.den = lowestDen n d := by
  rw [ofFraction?, dif_neg h]
  constructor
  · intro same
    split at same
    · rename_i fits
      cases same
      exact ⟨fits.1, fits.2, rfl, rfl⟩
    · cases same
  · rintro ⟨num_fits, den_fits, num, den⟩
    rw [dif_pos ⟨num_fits, den_fits⟩]
    exact congrArg some (eq_of_parts num.symm den.symm)

theorem parts_ofFraction? (h : d ≠ 0) :
    (ofFraction? n d).map parts =
      if InWord (lowestNum n d) ∧ InWord (lowestDen n d) then
        some (lowestNum n d, (lowestDen n d : Int))
      else none := by
  rw [ofFraction?, dif_neg h]
  split <;> rfl

/-! ## Numbers and their values -/

theorem num_toRat (a : Rational) : a.toRat.num = a.num :=
  Rat.num_div_eq_of_coprime (Int.natCast_pos.2 a.den_pos) a.reduced

theorem den_toRat (a : Rational) : a.toRat.den = a.den := by
  have den : (a.toRat.den : Int) = a.den :=
    Rat.den_div_eq_of_coprime (Int.natCast_pos.2 a.den_pos) a.reduced
  exact_mod_cast den

theorem toRat_eq_iff {q : ℚ} : r.toRat = q ↔ r.num = q.num ∧ r.den = q.den := by
  rw [← num_toRat, ← den_toRat]
  constructor
  · rintro rfl
    exact ⟨rfl, rfl⟩
  · rintro ⟨num, den⟩
    exact Rat.ext num den

/-- A fraction is reduced to the number with its value. -/
theorem ofFraction?_eq_some_iff_toRat (h : d ≠ 0) : ofFraction? n d = some r ↔ r.toRat = n / d := by
  rw [ofFraction?_eq_some_iff h, toRat_eq_iff, num_div n h, den_div n h]
  constructor
  · rintro ⟨-, -, parts⟩
    exact parts
  · rintro ⟨num, den⟩
    exact ⟨num ▸ r.num_inWord, den ▸ r.den_inWord, num, den⟩

end Rational

/-! ## Wide words -/

namespace Wide

open Rational

variable {n d : Int}

/-- Reducing a fraction whose parts are at most 127 bits long overflows nowhere. -/
theorem reduce_eq (hn : n.natAbs < 2 ^ 127) (hd : d.natAbs < 2 ^ 127) :
    reduce n d = .ok ((ofFraction? n d).map parts) := by
  rw [reduce]
  split
  · rename_i zero
    rw [ofFraction?, dif_pos zero]
    rfl
  · rename_i some
    have positive := factor_pos n some
    have factor_ne : (Nat.gcd n.natAbs d.natAbs : Int) ≠ 0 := by
      exact_mod_cast Nat.ne_of_gt positive
    have factor : max (euclid n.natAbs d.natAbs) 1 = Nat.gcd n.natAbs d.natAbs := by
      rw [euclid_eq_gcd]
      exact Nat.max_eq_left positive
    have factor_le := Nat.gcd_le_right n.natAbs (Int.natAbs_pos.2 some)
    have num_le := natAbs_lowestNum_le n d
    have den_le : lowestDen n d ≤ d.natAbs := Nat.div_le_self _ _
    -- The factor is held, then the parts with their signs, and then what the factor leaves of them.
    rw [factor, hold_of_natAbs_lt (by omega), hold_of_natAbs_lt (by rw [natAbs_signOf_mul]; omega),
      hold_of_natAbs_lt (n := signOf d * d) (by rw [natAbs_signOf_mul]; omega),
      ← factor_mul_lowestNum, ← factor_mul_lowestDen n, parts_ofFraction? some]
    dsimp only [bind, Except.bind]
    rw [Int.mul_tdiv_cancel_left _ factor_ne, Int.mul_tdiv_cancel_left _ factor_ne,
      hold_of_natAbs_lt (by omega), hold_of_natAbs_lt (by omega)]
    rfl

variable (a b : Rational)

theorem natAbs_mul_le {x y : Int} {m k : Nat} (hx : x.natAbs ≤ m) (hy : y.natAbs ≤ k) :
    (x * y).natAbs ≤ m * k := by
  rw [Int.natAbs_mul]
  exact Nat.mul_le_mul hx hy

theorem natAbs_num_le : a.num.natAbs ≤ 9223372036854775808 := by
  have fits := a.num_inWord
  rw [InWord] at fits
  omega

theorem natAbs_den_le : (a.den : Int).natAbs ≤ 9223372036854775807 := by
  have fits := a.den_inWord
  rw [InWord] at fits
  omega

/-- Two crosswise products leave room for their sum: a denominator is never the largest size that a
numerator can have. -/
theorem combine_eq {op : Int → Int → Int}
    (small : ∀ x y, (op x y).natAbs ≤ x.natAbs + y.natAbs) :
    combine op a b =
      .ok ((ofFraction? (op (a.num * b.den) (b.num * a.den)) (a.den * b.den)).map parts) := by
  have left := natAbs_mul_le (natAbs_num_le a) (natAbs_den_le b)
  have right := natAbs_mul_le (natAbs_num_le b) (natAbs_den_le a)
  have den := natAbs_mul_le (natAbs_den_le a) (natAbs_den_le b)
  have both := small (a.num * b.den) (b.num * a.den)
  rw [combine, hold_of_natAbs_lt (by omega), hold_of_natAbs_lt (n := b.num * a.den) (by omega)]
  dsimp only [bind, Except.bind]
  rw [hold_of_natAbs_lt (by omega), hold_of_natAbs_lt (n := a.den * b.den) (by omega)]
  exact reduce_eq (by omega) (by omega)

theorem add_eq : add a b = .ok ((a.add? b).map parts) :=
  combine_eq a b Int.natAbs_add_le

theorem sub_eq : sub a b = .ok ((a.sub? b).map parts) :=
  combine_eq a b Int.natAbs_sub_le

theorem mul_eq : mul a b = .ok ((a.mul? b).map parts) := by
  have num := natAbs_mul_le (natAbs_num_le a) (natAbs_num_le b)
  have den := natAbs_mul_le (natAbs_den_le a) (natAbs_den_le b)
  rw [mul, hold_of_natAbs_lt (by omega), hold_of_natAbs_lt (n := a.den * b.den) (by omega)]
  exact reduce_eq (by omega) (by omega)

theorem div_eq : div a b = .ok ((a.div? b).map parts) := by
  have num := natAbs_mul_le (natAbs_num_le a) (natAbs_den_le b)
  have den := natAbs_mul_le (natAbs_den_le a) (natAbs_num_le b)
  rw [div, hold_of_natAbs_lt (by omega), hold_of_natAbs_lt (n := a.den * b.num) (by omega)]
  exact reduce_eq (by omega) (by omega)

theorem neg_eq : neg a = .ok (a.neg?.map parts) := by
  have num := natAbs_num_le a
  have den := natAbs_den_le a
  rw [neg, hold_of_natAbs_lt (by omega)]
  exact reduce_eq (by omega) (by omega)

end Wide

/-! ## Exact results -/

namespace Rational

/-- The result of an operation with the exact value `q`, and that of the same operation in words:
a number exactly if the parts of `q` in lowest terms fit words, and then the number with these
parts; and every result on the way fits a wide word. -/
structure IsExact (q : ℚ) (result : Option Rational) (words : Wide (Option Parts)) : Prop where
  fits : ∀ r, result = some r ↔ InWord q.num ∧ InWord q.den ∧ r.num = q.num ∧ r.den = q.den
  held : words = .ok (result.map parts)

variable {n d : Int} {q : ℚ} {words : Wide (Option Parts)}

/-- The fraction of two integers is reduced exactly. -/
theorem isExact_ofFraction? (h : d ≠ 0) (value : q = n / d)
    (held : words = .ok ((ofFraction? n d).map parts)) : IsExact q (ofFraction? n d) words := by
  refine ⟨fun r => ?_, held⟩
  rw [ofFraction?_eq_some_iff h, value, num_div n h, den_div n h]

theorem den_ne_zero (a : Rational) : (a.den : Int) ≠ 0 := by
  have := a.den_pos
  omega

theorem mul_den_ne_zero (a b : Rational) : (a.den : Int) * b.den ≠ 0 :=
  Int.mul_ne_zero a.den_ne_zero b.den_ne_zero

theorem cast_den_ne_zero (a : Rational) : (a.den : ℚ) ≠ 0 := by
  exact_mod_cast a.den_ne_zero

variable (a b : Rational)

theorem isExact_add : IsExact (a.toRat + b.toRat) (a.add? b) (Wide.add a b) := by
  refine isExact_ofFraction? (mul_den_ne_zero a b) ?_ (Wide.add_eq a b)
  rw [toRat, toRat, div_add_div _ _ a.cast_den_ne_zero b.cast_den_ne_zero]
  push_cast
  ring

theorem isExact_sub : IsExact (a.toRat - b.toRat) (a.sub? b) (Wide.sub a b) := by
  refine isExact_ofFraction? (mul_den_ne_zero a b) ?_ (Wide.sub_eq a b)
  rw [toRat, toRat, div_sub_div _ _ a.cast_den_ne_zero b.cast_den_ne_zero]
  push_cast
  ring

theorem isExact_mul : IsExact (a.toRat * b.toRat) (a.mul? b) (Wide.mul a b) := by
  refine isExact_ofFraction? (mul_den_ne_zero a b) ?_ (Wide.mul_eq a b)
  rw [toRat, toRat, div_mul_div_comm]
  push_cast
  rfl

theorem isExact_neg : IsExact (-a.toRat) a.neg? (Wide.neg a) := by
  refine isExact_ofFraction? a.den_ne_zero ?_ (Wide.neg_eq a)
  rw [toRat, ← neg_div]
  push_cast
  rfl

variable {a b}

theorem num_eq_zero_iff : b.num = 0 ↔ b = zero := by
  constructor
  · intro none
    refine eq_of_parts none ?_
    have reduced := b.reduced
    rwa [none, Int.natAbs_zero, Nat.gcd_zero_left] at reduced
  · rintro rfl
    rfl

theorem isExact_div (h : b ≠ zero) : IsExact (a.toRat / b.toRat) (a.div? b) (Wide.div a b) := by
  have num : b.num ≠ 0 := fun none => h (num_eq_zero_iff.1 none)
  refine isExact_ofFraction? (Int.mul_ne_zero a.den_ne_zero num) ?_ (Wide.div_eq a b)
  rw [toRat, toRat, div_div_div_eq]
  push_cast
  rfl

theorem div?_zero (a : Rational) : a.div? zero = none := by
  have none : (a.den : Int) * zero.num = 0 := Int.mul_zero _
  rw [div?, ofFraction?, dif_pos none]

/-- The operations on numbers are exact wherever the exact result is a number, and have no result
anywhere else; a fraction of two words is a number under the same condition. Nothing that is
computed on the way overflows a wide word. -/
theorem arithmetic_is_exact (a b : Rational) {n d : Int} (hn : InWord n) (hd : InWord d) :
    IsExact (a.toRat + b.toRat) (a.add? b) (Wide.add a b) ∧
    IsExact (a.toRat - b.toRat) (a.sub? b) (Wide.sub a b) ∧
    IsExact (a.toRat * b.toRat) (a.mul? b) (Wide.mul a b) ∧
    IsExact (-a.toRat) a.neg? (Wide.neg a) ∧
    (b ≠ zero → IsExact (a.toRat / b.toRat) (a.div? b) (Wide.div a b)) ∧
    (b = zero → a.div? b = none ∧ Wide.div a b = .ok none) ∧
    (d ≠ 0 → IsExact (n / d) (ofFraction? n d) (Wide.reduce n d)) ∧
    (d = 0 → ofFraction? n d = none ∧ Wide.reduce n d = .ok none) := by
  refine ⟨isExact_add a b, isExact_sub a b, isExact_mul a b, isExact_neg a, isExact_div, ?_, ?_, ?_⟩
  · rintro rfl
    rw [Wide.div_eq, div?_zero]
    exact ⟨rfl, rfl⟩
  · intro some
    rw [InWord] at hn hd
    exact isExact_ofFraction? some rfl (Wide.reduce_eq (by omega) (by omega))
  · rintro rfl
    exact ⟨dif_pos rfl, if_pos rfl⟩

/-- The least integer of a word over itself is one, in wide words too, and over minus one it is no
number. -/
theorem arithmetic_is_exact_least :
    InWord (-9223372036854775808) ∧ InWord (-1) ∧
      ofFraction? (-9223372036854775808) (-9223372036854775808) = some one ∧
      Wide.reduce (-9223372036854775808) (-9223372036854775808) = .ok (some (1, 1)) ∧
      ofFraction? (-9223372036854775808) (-1) = none := by
  have least : InWord (-9223372036854775808) := by decide
  have minus : InWord (-1) := by decide
  obtain ⟨-, -, -, -, -, -, itself, -⟩ := arithmetic_is_exact zero one least least
  obtain ⟨-, -, -, -, -, -, negated, -⟩ := arithmetic_is_exact zero one least minus
  obtain ⟨fits, held⟩ := itself (by decide)
  have result : ofFraction? (-9223372036854775808) (-9223372036854775808) = some one :=
    (fits one).2 (by norm_num [InWord, one, ofInt])
  refine ⟨least, minus, result, ?_, ?_⟩
  · rw [held, result]
    rfl
  · refine Option.eq_none_iff_forall_ne_some.2 fun r some => ?_
    obtain ⟨fits, -⟩ := ((negated (by decide)).fits r).1 some
    have num : (((-9223372036854775808 : Int) : ℚ) / ((-1 : Int) : ℚ)).num =
        9223372036854775808 := by
      norm_num
    rw [num, InWord] at fits
    omega

end Rational

end LispRepl

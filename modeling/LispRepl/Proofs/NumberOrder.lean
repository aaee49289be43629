import LispRepl.Proofs.VariadicArithmetic
import Mathlib.Algebra.Order.Field.Basic
import Mathlib.Algebra.Order.Ring.Rat
import Mathlib.Data.List.Chain

/-!
# The order of numbers

Numbers are compared by crosswise products, which wide words hold. Denominators are positive, so that
the order of these products is the order of the exact values; and parts are in lowest terms, so that
numbers are equal exactly if their values are. The comparing procedures look at neighbours alone.
That decides about all pairs of arguments because each of the five relations is transitive.

- `Rational.cmp_eq_compare`: the order of numbers is that of their values.
- `Comparison`, `Comparison.Holds`: the relations of the comparing procedures on exact values.
- `chained_iff_pairwise`: neighbours that are related are enough.
- `Comparison.order_is_exact`: what comparing gives.
-/

set_option autoImplicit false

namespace LispRepl

namespace Rational

/-! ## Two numbers -/

theorem toRat_lt_iff {a b : Rational} : a.toRat < b.toRat ↔ a.num * b.den < b.num * a.den := by
  have a_pos : (0 : ℚ) < a.den := by exact_mod_cast a.den_pos
  have b_pos : (0 : ℚ) < b.den := by exact_mod_cast b.den_pos
  rw [toRat, toRat, div_lt_div_iff₀ a_pos b_pos]
  exact_mod_cast Iff.rfl

/-- Crosswise products are ordered like the exact values. -/
theorem cmp_eq_compare (a b : Rational) : a.cmp b = compare a.toRat b.toRat := by
  rw [cmp]
  rcases lt_trichotomy (a.num * b.den) (b.num * a.den) with less | same | greater
  · rw [compare_lt_iff_lt.2 less, compare_lt_iff_lt.2 (toRat_lt_iff.2 less)]
  · -- Neither value can be the smaller one, as the product would be as well.
    have value : a.toRat = b.toRat := by
      apply le_antisymm
      · exact not_lt.1 fun greater => (toRat_lt_iff.1 greater).ne' same
      · exact not_lt.1 fun less => (toRat_lt_iff.1 less).ne same
    rw [compare_eq_iff_eq.2 same, compare_eq_iff_eq.2 value]
  · rw [compare_gt_iff_gt.2 greater, compare_gt_iff_gt.2 (toRat_lt_iff.2 greater)]

theorem cmp_eq_iff {a b : Rational} : a.cmp b = .eq ↔ a = b := by
  rw [cmp_eq_compare, compare_eq_iff_eq, toRat_injective.eq_iff]

end Rational

/-- Comparing two numbers overflows nowhere. -/
theorem Wide.cmp_eq (a b : Rational) : cmp a b = .ok (a.cmp b) := by
  have left := natAbs_mul_le (natAbs_num_le a) (natAbs_den_le b)
  have right := natAbs_mul_le (natAbs_num_le b) (natAbs_den_le a)
  rw [cmp, hold_of_natAbs_lt (by omega), hold_of_natAbs_lt (n := b.num * a.den) (by omega)]
  rfl

/-- A relation that numbers can be compared by. -/
inductive Comparison where
  | equal
  | less
  | greater
  | lessEqual
  | greaterEqual
deriving DecidableEq

namespace Comparison

open Rational

/-- The procedure for the relation. -/
def builtin : Comparison → Builtin
  | .equal => .numEq
  | .less => .less
  | .greater => .greater
  | .lessEqual => .lessEq
  | .greaterEqual => .greaterEq

/-- The relation on exact values. -/
def Holds : Comparison → ℚ → ℚ → Prop
  | .equal, a, b => a = b
  | .less, a, b => a < b
  | .greater, a, b => b < a
  | .lessEqual, a, b => a ≤ b
  | .greaterEqual, a, b => b ≤ a

variable (c : Comparison)

theorem holds_trans {p q r : ℚ} (first : c.Holds p q) (second : c.Holds q r) : c.Holds p r := by
  cases c with
  | equal => exact Eq.trans first second
  | less => exact lt_trans first second
  | greater => exact lt_trans second first
  | lessEqual => exact le_trans first second
  | greaterEqual => exact le_trans second first

instance : Trans c.Holds c.Holds c.Holds :=
  ⟨c.holds_trans⟩

/-- What the procedure asks of two numbers is the relation of their exact values. -/
theorem relation_iff {a b : Rational} :
    c.builtin.relation a b = true ↔ c.Holds a.toRat b.toRat := by
  cases c with
  | equal => exact decide_eq_true_iff.trans toRat_injective.eq_iff.symm
  | less =>
    show (a.cmp b == .lt) = true ↔ _
    rw [beq_iff_eq, cmp_eq_compare, compare_lt_iff_lt]
    rfl
  | greater =>
    show (a.cmp b == .gt) = true ↔ _
    rw [beq_iff_eq, cmp_eq_compare, compare_gt_iff_gt]
    rfl
  | lessEqual =>
    show (a.cmp b != .gt) = true ↔ _
    rw [bne_iff_ne, cmp_eq_compare, compare_le_iff_le]
    rfl
  | greaterEqual =>
    show (a.cmp b != .lt) = true ↔ _
    rw [bne_iff_ne, cmp_eq_compare, compare_ge_iff_ge]
    rfl

/-! ## Any number of arguments -/

theorem chained_iff_isChain (ns : List Rational) :
    chained c.builtin.relation ns = true ↔ (ns.map toRat).IsChain c.Holds := by
  match ns with
  | [] => simp [chained]
  | [a] => simp [chained]
  | a :: b :: rest =>
    rw [chained, Bool.and_eq_true, relation_iff, chained_iff_isChain (b :: rest)]
    exact List.isChain_cons_cons.symm

/-- Neighbours are related exactly if all arguments are, each with all behind it. -/
theorem chained_iff_pairwise (ns : List Rational) :
    chained c.builtin.relation ns = true ↔ (ns.map toRat).Pairwise c.Holds := by
  rw [chained_iff_isChain, List.isChain_iff_pairwise]

theorem apply_numbers (n : Rational) (ns : List Rational) :
    c.builtin.apply ((n :: ns).map .number) =
      .ok (.bool (chained c.builtin.relation (n :: ns))) := by
  have applied : c.builtin.apply ((n :: ns).map .number) =
      ((n :: ns).map Value.number).mapM Value.toNumber >>= fun ns =>
        .ok (.bool (chained c.builtin.relation ns)) := by
    cases c <;> rfl
  rw [applied, toNumbers_numbers]
  rfl

/-- Numbers are ordered like their exact values, of which none but the same are equal, and nothing
that is computed on the way overflows a wide word. A comparing procedure says of one number or more
whether every two of them are related in their order, and about two numbers `=` says the same as
`eq?`. -/
theorem order_is_exact :
    (∀ a b : Rational, Wide.cmp a b = .ok (a.cmp b) ∧ a.cmp b = compare a.toRat b.toRat ∧
      (a.cmp b = .eq ↔ a = b)) ∧
    (∀ (c : Comparison) (n : Rational) (ns : List Rational), ∃ answer,
      c.builtin.apply ((n :: ns).map .number) = .ok (.bool answer) ∧
        (answer = true ↔ ((n :: ns).map toRat).Pairwise c.Holds)) ∧
    ∀ a b : Rational, Builtin.numEq.apply [.number a, .number b] =
      Builtin.eq.apply [.number a, .number b] := by
  refine ⟨fun a b => ⟨Wide.cmp_eq a b, cmp_eq_compare a b, cmp_eq_iff⟩, fun c n ns => ?_, ?_⟩
  · exact ⟨_, c.apply_numbers n ns, c.chained_iff_pairwise _⟩
  · intro a b
    have asked : Builtin.numEq.apply [.number a, .number b] =
        .ok (.bool (decide (a = b) && true)) :=
      equal.apply_numbers a [b]
    have same : Builtin.eq.apply [.number a, .number b] =
        .ok (.bool ((Value.number a).same (.number b))) := rfl
    rw [asked, same, Bool.and_true, Value.same]

end Comparison

end LispRepl

import LispRepl.Proofs.BuiltinResults
import LispRepl.Proofs.ExactArithmetic
import Mathlib.Algebra.BigOperators.Group.List.Basic

/-!
# Sums, differences, products and quotients

The four arithmetic procedures take any number of arguments, all of them numbers, and combine them
from left to right. A sum or a product starts from zero or one, and so does a difference or a
quotient of a number alone; of two numbers or more, a difference or a quotient starts from the first
of them. Each partial result has to be a number, and each divisor has to differ from zero. The first
place where that fails tells the error, so that the whole can fail although its exact value is a
number; but if it succeeds, the result is that value, however the arguments were ordered.

- `Representable`: the rationals that are numbers.
- `Operation`: the four operations, on rationals and on numbers.
- `Operation.Combines`, `Operation.combines_foldlM`: what combining numbers from left to right comes
  to.
- `Operation.total`, `Operation.foldl_combine_others`: the exact value of all arguments together,
  in which their order has no part.
- `Operation.results_are_exact`: what the procedures give on any arguments.
-/

set_option autoImplicit false

namespace LispRepl

/-- The rational is a number: its parts in lowest terms fit words. -/
def Representable (q : ℚ) : Prop :=
  InWord q.num ∧ InWord q.den

namespace Rational

variable {q : ℚ} {result : Option Rational} {words : Wide (Option Parts)}

theorem representable_toRat (a : Rational) : Representable a.toRat := by
  rw [Representable, num_toRat, den_toRat]
  exact ⟨a.num_inWord, a.den_inWord⟩

theorem exists_toRat (fits : Representable q) : ∃ r : Rational, r.toRat = q :=
  ⟨⟨q.num, q.den, q.pos, q.reduced, fits.1, fits.2⟩, toRat_eq_iff.2 ⟨rfl, rfl⟩⟩

theorem toRat_injective : Function.Injective toRat := by
  intro a b same
  obtain ⟨num, den⟩ := toRat_eq_iff.1 same
  exact eq_of_parts (num.trans b.num_toRat) (den.trans b.den_toRat)

theorem toRat_zero : zero.toRat = 0 := by
  norm_num [toRat, zero, ofInt]

theorem toRat_one : one.toRat = 1 := by
  norm_num [toRat, one, ofInt]

theorem isZero_iff {a : Rational} : a.isZero = true ↔ a.toRat = 0 := by
  rw [isZero, beq_iff_eq, num_eq_zero_iff, ← toRat_zero, toRat_injective.eq_iff]

/-- The operation has the result that is the exact value. -/
theorem IsExact.some_iff (isExact : IsExact q result words) {r : Rational} :
    result = some r ↔ r.toRat = q := by
  rw [isExact.fits, toRat_eq_iff]
  constructor
  · rintro ⟨-, -, parts⟩
    exact parts
  · rintro ⟨num, den⟩
    exact ⟨num ▸ r.num_inWord, den ▸ r.den_inWord, num, den⟩

/-- An exact operation gives the number that is the exact value, or overflows if there is none. -/
theorem IsExact.fitted_cases (isExact : IsExact q result words) :
    (∃ r, fitted result = .ok r ∧ r.toRat = q) ∨
      (fitted result = .error .overflow ∧ ¬ Representable q) := by
  cases same : result with
  | some r => exact .inl ⟨r, rfl, isExact.some_iff.1 same⟩
  | none =>
    refine .inr ⟨rfl, fun fits => ?_⟩
    obtain ⟨r, value⟩ := exists_toRat fits
    rw [isExact.some_iff.2 value] at same
    cases same

/-- A number with the other sign is what it leaves of zero. -/
theorem neg?_eq (a : Rational) : a.neg? = zero.sub? a := by
  refine Option.ext fun r => ?_
  rw [(isExact_neg a).some_iff, (isExact_sub zero a).some_iff, toRat_zero, zero_sub]

end Rational

/-- An arithmetic operation. -/
inductive Operation where
  | add
  | subtract
  | multiply
  | divide
deriving DecidableEq

namespace Operation

open Rational

/-! ## One operation -/

/-- The procedure for the operation. -/
def builtin : Operation → Builtin
  | .add => .add
  | .subtract => .sub
  | .multiply => .mul
  | .divide => .div

/-- The exact value of the operation on two rationals. -/
def combine : Operation → ℚ → ℚ → ℚ
  | .add, a, b => a + b
  | .subtract, a, b => a - b
  | .multiply, a, b => a * b
  | .divide, a, b => a / b

/-- The operation on two numbers. -/
def step : Operation → Rational → Rational → Except LispError Rational
  | .add, a, b => fitted (a.add? b)
  | .subtract, a, b => fitted (a.sub? b)
  | .multiply, a, b => fitted (a.mul? b)
  | .divide, a, b => quotient a b

variable (op : Operation)

/-- Every rational can be added, subtracted and multiplied with, and one that is not zero can be
divided by. -/
def Admits (q : ℚ) : Prop :=
  op = .divide → q ≠ 0

/-- The operation on two numbers gives the exact result if there is one. -/
inductive Steps (a b : ℚ) : Except LispError Rational → Prop where
  | number {r : Rational} : op.Admits b → r.toRat = op.combine a b → Steps a b (.ok r)
  | overflow : op.Admits b → ¬ Representable (op.combine a b) → Steps a b (.error .overflow)
  | divisionByZero : op = .divide → b = 0 → Steps a b (.error .divisionByZero)

variable {op} in
theorem steps_of_isExact {a b : ℚ} {result : Option Rational} {words : Wide (Option Parts)}
    (admits : op.Admits b) (isExact : IsExact (op.combine a b) result words) :
    op.Steps a b (fitted result) := by
  rcases isExact.fitted_cases with ⟨r, fits, value⟩ | ⟨none, large⟩
  · rw [fits]
    exact .number admits value
  · rw [none]
    exact .overflow admits large

theorem steps_step (a b : Rational) : op.Steps a.toRat b.toRat (op.step a b) := by
  cases op with
  | add => exact steps_of_isExact nofun (isExact_add a b)
  | subtract => exact steps_of_isExact nofun (isExact_sub a b)
  | multiply => exact steps_of_isExact nofun (isExact_mul a b)
  | divide =>
    rw [step, quotient]
    split
    · rename_i zero
      exact .divisionByZero rfl (isZero_iff.1 zero)
    · rename_i some
      rw [isZero_iff] at some
      have divisor : b ≠ Rational.zero := by
        rintro rfl
        exact some toRat_zero
      exact steps_of_isExact (fun _ => some) (isExact_div divisor)

/-! ## Combining from left to right -/

/-- The operation gets from a first rational through the others: it admits each of them, and each
partial result is a number. -/
structure Passes (start : ℚ) (rest : List ℚ) : Prop where
  admits : ∀ q ∈ rest, op.Admits q
  fits : ∀ p, p <+: rest → Representable (p.foldl op.combine start)

/-- What combining a first rational with others comes to: the last partial result, or an error at the
first place where the partial result is no number, or where the divisor is zero. -/
inductive Combines (start : ℚ) (rest : List ℚ) : Except LispError Rational → Prop where
  | number {r : Rational} : op.Passes start rest → r.toRat = rest.foldl op.combine start →
    Combines start rest (.ok r)
  | overflow {p : List ℚ} {q : ℚ} : p ++ [q] <+: rest → op.Passes start p → op.Admits q →
    ¬ Representable ((p ++ [q]).foldl op.combine start) → Combines start rest (.error .overflow)
  | divisionByZero {p : List ℚ} : op = .divide → p ++ [0] <+: rest → op.Passes start p →
    Combines start rest (.error .divisionByZero)

variable {op} {start q : ℚ} {rest : List ℚ}

theorem passes_nil (a : Rational) : op.Passes a.toRat [] where
  admits := nofun
  fits := by
    intro p before
    rw [List.prefix_nil.1 before]
    exact a.representable_toRat

/-- The operation gets through one more rational in front. -/
theorem passes_cons {a : Rational} (admits : op.Admits q)
    (passes : op.Passes (op.combine a.toRat q) rest) : op.Passes a.toRat (q :: rest) where
  admits := List.forall_mem_cons.2 ⟨admits, passes.admits⟩
  fits := by
    intro p before
    cases p with
    | nil => exact a.representable_toRat
    | cons q' p =>
      obtain ⟨rfl, behind⟩ := List.cons_prefix_cons.1 before
      exact passes.fits p behind

/-- Combining numbers from left to right does what it comes to. -/
theorem combines_foldlM (a : Rational) (ns : List Rational) :
    op.Combines a.toRat (ns.map toRat) (ns.foldlM op.step a) := by
  induction ns generalizing a with
  | nil => exact .number (passes_nil a) rfl
  | cons b ns ih =>
    rw [List.foldlM_cons, List.map_cons]
    have stepped := op.steps_step a b
    have first : [b.toRat] <+: b.toRat :: ns.map toRat :=
      List.cons_prefix_cons.2 ⟨rfl, List.nil_prefix⟩
    generalize op.step a b = result at stepped
    cases stepped with
    | divisionByZero divide zero =>
      rw [zero] at first ⊢
      exact .divisionByZero divide first (passes_nil a)
    | overflow admits large => exact .overflow first (passes_nil a) admits large
    | @number c admits value =>
      -- The others start from the first partial result.
      have others := ih c
      rw [value] at others
      show op.Combines a.toRat (b.toRat :: ns.map toRat) (ns.foldlM op.step c)
      generalize ns.foldlM op.step c = outcome at others
      have further {p : List ℚ} (before : p <+: ns.map toRat) :
          b.toRat :: p <+: b.toRat :: ns.map toRat :=
        List.cons_prefix_cons.2 ⟨rfl, before⟩
      cases others with
      | number passes last => exact .number (passes_cons admits passes) last
      | overflow before passes admitted large =>
        exact .overflow (further before) (passes_cons admits passes) admitted large
      | divisionByZero divide before passes =>
        exact .divisionByZero divide (further before) (passes_cons admits passes)

/-! ## Arguments -/

variable (op)

/-- The procedure has to be given an argument, and starts with the first if there are others. -/
def startsWithFirst : Operation → Bool
  | .subtract | .divide => true
  | .add | .multiply => false

/-- The number that an argument alone is combined with. -/
def unit : Operation → Rational
  | .add | .subtract => zero
  | .multiply | .divide => one

/-- The number that the procedure starts with. -/
def first : List Rational → Rational
  | a :: _ :: _ => if op.startsWithFirst then a else op.unit
  | _ => op.unit

/-- The numbers that it combines with the one it starts with. -/
def others : List Rational → List Rational
  | a :: b :: rest => if op.startsWithFirst then b :: rest else a :: b :: rest
  | ns => ns

/-- What the operation makes of rationals that are all combined with the same one. -/
def gather : Operation → List ℚ → ℚ
  | .add, qs | .subtract, qs => qs.sum
  | .multiply, qs | .divide, qs => qs.prod

/-- Rationals that are taken off one by one can be added up before, and so can divisors be
multiplied. -/
theorem foldl_combine (q : ℚ) (qs : List ℚ) :
    qs.foldl op.combine q = op.combine q (op.gather qs) := by
  induction qs generalizing q with
  | nil => cases op <;> simp [combine, gather]
  | cons q' qs ih =>
    rw [List.foldl_cons, ih]
    cases op with
    | add => simp only [combine, gather, List.sum_cons, add_assoc]
    | subtract => simp only [combine, gather, List.sum_cons, sub_sub]
    | multiply => simp only [combine, gather, List.prod_cons, mul_assoc]
    | divide => simp only [combine, gather, List.prod_cons, div_div]

/-- The exact value of all arguments together. -/
def total : Operation → List ℚ → ℚ
  | .add, qs => qs.sum
  | .multiply, qs => qs.prod
  | .subtract, [] => 0
  | .subtract, [q] => -q
  | .subtract, q :: rest => q - rest.sum
  | .divide, [] => 1
  | .divide, [q] => q⁻¹
  | .divide, q :: rest => q / rest.prod

/-- The last partial result is the exact value of all arguments together. -/
theorem foldl_combine_others (ns : List Rational) :
    ((op.others ns).map toRat).foldl op.combine (op.first ns).toRat = op.total (ns.map toRat) := by
  rw [foldl_combine]
  match ns with
  | [] => cases op <;> simp [others, first, unit, combine, gather, total, toRat_zero, toRat_one]
  | [a] => cases op <;> simp [others, first, unit, combine, gather, total, toRat_zero, toRat_one]
  | a :: b :: rest =>
    cases op <;>
      simp [others, first, startsWithFirst, unit, combine, gather, total, toRat_zero, toRat_one]

/-- The result of the procedure on numbers. -/
def calculate : Operation → List Rational → Except LispError Rational
  | .add => Builtin.sum
  | .subtract => Builtin.difference
  | .multiply => Builtin.product
  | .divide => Builtin.ratio

/-- The procedure combines its arguments from left to right. -/
theorem calculate_eq (ns : List Rational) :
    op.calculate ns = (op.others ns).foldlM op.step (op.first ns) := by
  match op, ns with
  | .add, [] | .multiply, [] | .subtract, [] | .divide, [] => rfl
  | .add, [_] | .multiply, [_] => rfl
  | .add, _ :: _ :: _ | .multiply, _ :: _ :: _ => rfl
  | .subtract, _ :: _ :: _ | .divide, _ :: _ :: _ => rfl
  | .subtract, [a] =>
    show fitted a.neg? = fitted (zero.sub? a) >>= pure
    rw [neg?_eq, bind_pure]
  | .divide, [a] =>
    show quotient one a = quotient one a >>= pure
    rw [bind_pure]

/-! ## Results -/

/-- The procedure needs an argument if it starts with the first, then numbers, and then combines
them. -/
theorem apply_eq (args : List Value) :
    op.builtin.apply args =
      if op.startsWithFirst = true ∧ args = [] then
        .error (.arity op.builtin.name (.atLeast 1) 0)
      else args.mapM Value.toNumber >>= fun ns => .number <$> op.calculate ns := by
  cases op <;> cases args <;> rfl

theorem apply_numbers {ns : List Rational} (some : op.startsWithFirst = true → ns ≠ []) :
    op.builtin.apply (ns.map .number) = .number <$> op.calculate ns := by
  rw [apply_eq, if_neg, toNumbers_numbers]
  · rfl
  · rintro ⟨needs, none⟩
    exact some needs (List.map_eq_nil_iff.1 none)

/-- The first argument that is no number is reported. -/
theorem apply_of_other (before : List Rational) {w : Value} (other : ∀ n, w ≠ .number n)
    (after : List Value) :
    op.builtin.apply (before.map .number ++ w :: after) = .error (.type .number w.text) := by
  rw [apply_eq, if_neg, toNumbers_of_other before other after]
  · rfl
  · rintro ⟨-, none⟩
    exact List.cons_ne_nil _ _ (List.append_eq_nil_iff.1 none).2

variable {op}

/-- A calculation that succeeds gives the exact value of all arguments together. -/
theorem total_of_calculate {ns : List Rational} {r : Rational}
    (calculated : op.calculate ns = .ok r) : r.toRat = op.total (ns.map toRat) := by
  have combines := @combines_foldlM op (op.first ns) (op.others ns)
  rw [← calculate_eq, calculated] at combines
  cases combines with
  | number _ value => rw [value, foldl_combine_others]

/-- A procedure that succeeds was given numbers, and gives their exact value. -/
theorem total_of_apply {args : List Value} {v : Value} (applied : op.builtin.apply args = .ok v) :
    ∃ (ns : List Rational) (r : Rational),
      args = ns.map .number ∧ v = .number r ∧ r.toRat = op.total (ns.map toRat) := by
  rcases numbers_or_other args with ⟨ns, rfl⟩ | ⟨before, w, after, rfl, other⟩
  · by_cases some : op.startsWithFirst = true → ns ≠ []
    · rw [apply_numbers op some] at applied
      cases calculated : op.calculate ns with
      | error e =>
        rw [calculated] at applied
        cases applied
      | ok r =>
        rw [calculated] at applied
        cases applied
        exact ⟨ns, r, rfl, rfl, total_of_calculate calculated⟩
    · obtain ⟨needs, none⟩ := not_forall.1 some
      rw [not_not.1 none, apply_eq, if_pos ⟨needs, rfl⟩] at applied
      cases applied
  · rw [apply_of_other op before other after] at applied
    cases applied

/-- Numbers add up to the same sum in any order, and so they do to a product. -/
theorem total_of_perm (commutes : op.startsWithFirst = false) {qs qs' : List ℚ}
    (reordered : qs.Perm qs') : op.total qs = op.total qs' := by
  cases op with
  | add => exact reordered.sum_eq
  | multiply => exact reordered.prod_eq
  | subtract => cases commutes
  | divide => cases commutes

variable (op)

/-- What an arithmetic procedure gives on any arguments. Without an argument a difference or a
quotient is an arity error, and the first argument that is no number is a type error. Otherwise the
arguments are combined from left to right, and if that succeeds the result is the exact value of all
of them together in lowest terms. Sums and products of the same arguments in two orders are the same
number if both succeed. -/
theorem results_are_exact (args : List Value) :
    (op.startsWithFirst = true → args = [] →
      op.builtin.apply args = .error (.arity op.builtin.name (.atLeast 1) 0)) ∧
    (∀ v ∈ args, (∀ n, v ≠ .number n) →
      ∃ (before : List Rational) (w : Value) (after : List Value),
        args = before.map .number ++ w :: after ∧ (∀ n, w ≠ .number n) ∧
          op.builtin.apply args = .error (.type .number w.text)) ∧
    (∀ ns : List Rational, args = ns.map .number → (op.startsWithFirst = true → ns ≠ []) →
      ∃ result, op.builtin.apply args = .number <$> result ∧
        op.Combines (op.first ns).toRat ((op.others ns).map toRat) result ∧
        ∀ r, result = .ok r →
          r.num = (op.total (ns.map toRat)).num ∧ r.den = (op.total (ns.map toRat)).den) ∧
    (op.startsWithFirst = false → ∀ (args' : List Value) (v v' : Value), args.Perm args' →
      op.builtin.apply args = .ok v → op.builtin.apply args' = .ok v' → v = v') := by
  refine ⟨?_, fun v member other => ?_, ?_, ?_⟩
  · rintro needs rfl
    rw [apply_eq, if_pos ⟨needs, rfl⟩]
  · rcases numbers_or_other args with ⟨ns, rfl⟩ | ⟨before, w, after, rfl, first⟩
    · obtain ⟨n, -, rfl⟩ := List.mem_map.1 member
      exact absurd rfl (other n)
    · exact ⟨before, w, after, rfl, first, apply_of_other op before first after⟩
  · rintro ns rfl some
    refine ⟨op.calculate ns, apply_numbers op some, ?_, fun r calculated => ?_⟩
    · rw [calculate_eq]
      exact combines_foldlM _ _
    · exact toRat_eq_iff.1 (total_of_calculate calculated)
  · intro commutes args' v v' reordered applied applied'
    obtain ⟨ns, r, rfl, rfl, value⟩ := total_of_apply applied
    obtain ⟨ns', r', rfl, rfl, value'⟩ := total_of_apply applied'
    have numbers : ns.Perm ns' :=
      (List.map_perm_map_iff fun a b same => Value.number.inj same).1 reordered
    rw [total_of_perm commutes (numbers.map toRat), ← value'] at value
    rw [toRat_injective value]

/-- The largest integer of a word, less one and more one, is that integer in lowest terms. The other
order that succeeds gives the same, and a third overflows. -/
theorem results_are_exact_reordered :
    ∃ largest minus : Rational,
      Operation.add.startsWithFirst = false ∧
      [Value.number largest, .number minus, .number one].Perm
        [.number minus, .number one, .number largest] ∧
      Builtin.add.apply [.number largest, .number minus, .number one] = .ok (.number largest) ∧
      largest.num = (Operation.add.total [largest.toRat, minus.toRat, one.toRat]).num ∧
      (∀ v, Builtin.add.apply [.number minus, .number one, .number largest] = .ok v →
        .number largest = v) ∧
      Builtin.add.apply [.number largest, .number one, .number minus] = .error .overflow := by
  have reordered (a b c : Value) : [a, b, c].Perm [b, c, a] :=
    (List.perm_append_comm : ([a] ++ [b, c]).Perm ([b, c] ++ [a]))
  refine ⟨ofInt 9223372036854775807 (by decide), ofInt (-1) (by decide), rfl, reordered _ _ _, rfl,
    ?_, fun v applied => ?_, rfl⟩
  · obtain ⟨result, applied, -, value⟩ := (results_are_exact .add _).2.2.1
      [ofInt 9223372036854775807 (by decide), ofInt (-1) (by decide), one] rfl nofun
    cases result with
    | error e => cases applied
    | ok r =>
      have same := Value.number.inj (Except.ok.inj applied)
      exact (congrArg num same).trans (value r rfl).1
  · exact (results_are_exact .add _).2.2.2 rfl _ _ v (reordered _ _ _) rfl applied

end Operation

end LispRepl

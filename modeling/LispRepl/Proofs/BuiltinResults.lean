import LispRepl.Builtin.Apply
import LispRepl.Proofs.StepFold

/-!
# What a builtin procedure gives

A builtin procedure that succeeds gives a number or a truth value of its own making, a list or a
pair of its arguments, or a part of its one argument. What is to be shown of every result is shown
of these six.

- `Builtin.Gives`: the shapes of a result.
- `gives_of_apply`: every result has one of them.
- `toNumbers_numbers`, `toNumbers_of_other`: arguments that have to be numbers.
-/

set_option autoImplicit false

namespace LispRepl

/-- A result that a builtin procedure can have on some arguments. -/
inductive Builtin.Gives (args : List Value) : Value → Prop where
  | number (n : Rational) : Gives args (.number n)
  | bool (b : Bool) : Gives args (.bool b)
  | list : Gives args (.list args)
  | cons {head tail : Value} : args = [head, tail] → Gives args (.cons head tail)
  | car {v part : Value} : args = [v] → v.car = .ok part → Gives args part
  | cdr {v part : Value} : args = [v] → v.cdr = .ok part → Gives args part

variable {args : List Value} {v : Value}

theorem gives_of_arithmetic {f : List Rational → Except LispError Rational}
    (h : Builtin.onNumbers args (fun ns => Value.number <$> f ns) = .ok v) :
    Builtin.Gives args v := by
  obtain ⟨ns, -, result⟩ := bind_eq_ok.1 h
  cases calculated : f ns with
  | error e =>
    rw [calculated] at result
    cases result
  | ok n =>
    rw [calculated] at result
    cases result
    exact .number n

theorem gives_of_comparison {f : List Rational → Bool}
    (h : Builtin.onNumbers args (fun ns => .ok (.bool (f ns))) = .ok v) :
    Builtin.Gives args v := by
  obtain ⟨ns, -, result⟩ := bind_eq_ok.1 h
  cases result
  exact .bool (f ns)

theorem gives_of_apply {b : Builtin} (h : b.apply args = .ok v) : Builtin.Gives args v := by
  rw [Builtin.apply] at h
  split at h
  case isFalse => cases h
  case isTrue =>
    simp only [Builtin.result] at h
    split at h
    case h_10 =>
      cases h
      exact .list
    case h_12 =>
      cases h
      exact .cons rfl
    case h_14 => exact .car rfl h
    case h_15 => exact .cdr rfl h
    case h_21 => cases h
    all_goals first
      | exact gives_of_arithmetic h
      | exact gives_of_comparison h
      | (cases h; exact .bool _)

/-! ## Arguments that have to be numbers -/

theorem toNumbers_numbers (ns : List Rational) :
    (ns.map Value.number).mapM Value.toNumber = .ok ns := by
  induction ns with
  | nil => rfl
  | cons n ns ih =>
    rw [List.map_cons, List.mapM_cons, ih]
    rfl

/-- The first argument that is no number is reported. -/
theorem toNumbers_of_other (before : List Rational) {w : Value} (other : ∀ n, w ≠ .number n)
    (after : List Value) :
    (before.map Value.number ++ w :: after).mapM Value.toNumber =
      .error (.type .number w.text) := by
  induction before with
  | nil =>
    have reported : w.toNumber = .error (.type .number w.text) := by
      cases w with
      | number n => exact absurd rfl (other n)
      | _ => rfl
    rw [List.map_nil, List.nil_append, List.mapM_cons, reported]
    rfl
  | cons n before ih =>
    rw [List.map_cons, List.cons_append, List.mapM_cons, ih]
    rfl

/-- Arguments are all numbers, or one of them is the first that is none. -/
theorem numbers_or_other (args : List Value) :
    (∃ ns : List Rational, args = ns.map .number) ∨
      ∃ (before : List Rational) (w : Value) (after : List Value),
        args = before.map .number ++ w :: after ∧ ∀ n, w ≠ .number n := by
  induction args with
  | nil => exact .inl ⟨[], rfl⟩
  | cons v args ih =>
    by_cases number : ∃ n, v = .number n
    · obtain ⟨n, rfl⟩ := number
      rcases ih with ⟨ns, rfl⟩ | ⟨before, w, after, rfl, other⟩
      · exact .inl ⟨n :: ns, rfl⟩
      · exact .inr ⟨n :: before, w, after, rfl, other⟩
    · exact .inr ⟨[], v, args, rfl, fun n same => number ⟨n, same⟩⟩

end LispRepl

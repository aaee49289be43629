/-!
# Folds of a step that may fail

The lexer and the parser are machines that take one element at a time and may fail at each. What
every step keeps, a whole fold keeps, and a fold over two lists is a fold over the first and then
one over the second.

- `bind_eq_ok`: a computation in two parts succeeds when both parts do.
- `foldlM_invariant`: from a step to the fold.
-/

set_option autoImplicit false

namespace LispRepl

variable {ε α β : Type}

theorem bind_eq_ok {r : Except ε α} {f : α → Except ε β} {b : β} :
    r >>= f = .ok b ↔ ∃ a, r = .ok a ∧ f a = .ok b := by
  constructor
  · intro h
    cases r with
    | error e => cases h
    | ok a => exact ⟨a, rfl, h⟩
  · rintro ⟨a, rfl, hf⟩
    exact hf

/-- What every successful step keeps, a successful fold keeps. -/
theorem foldlM_invariant {step : β → α → Except ε β} (I : β → Prop) {as : List α}
    (keep : ∀ a ∈ as, ∀ s t, I s → step s a = .ok t → I t) {s t : β} (hs : I s)
    (h : as.foldlM step s = .ok t) : I t := by
  induction as generalizing s with
  | nil =>
    cases h
    exact hs
  | cons a rest ih =>
    rw [List.foldlM_cons] at h
    obtain ⟨next, hstep, hrest⟩ := bind_eq_ok.1 h
    obtain ⟨hhead, htail⟩ := List.forall_mem_cons.1 keep
    exact ih htail (hhead s next hs hstep) hrest

end LispRepl

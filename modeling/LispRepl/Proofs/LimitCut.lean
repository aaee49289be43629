import LispRepl.Proofs.EvaluationCongruence

/-!
# What a limit on nesting can do

A limit bounds how deep data and evaluation nest. A lower limit can end a text early, with the error
of that limit, and it can do nothing else: where it does not end the text, the result is the one of
every higher limit. No branch is taken by how much of the limit is left, and no binding is made
under the higher limit that is not made under the lower one before it ends.

- `Cuts`, `Eval.Cuts`: a result that is a given error or else that of another computation.
- `cuts_run`, `cuts_parseTokens`, `cuts_readSource`: reading with two limits.
- `congruence_cuts`, `cuts_eval`: evaluation with two limits.
- `evalSource_cut_by_limit`: the value of a text with two limits.
-/

set_option autoImplicit false

namespace LispRepl

/-- The first result is the error, or else it is the second result. -/
def Cuts {α : Type} (e : LispError) (r r' : Except LispError α) : Prop :=
  r = .error e ∨ r = r'

theorem Cuts.bind {α β : Type} {e : LispError} {r r' : Except LispError α}
    {f f' : α → Except LispError β} (first : Cuts e r r') (second : ∀ a, Cuts e (f a) (f' a)) :
    Cuts e (r >>= f) (r' >>= f') := by
  rcases first with rfl | rfl
  · exact .inl rfl
  · cases r with
    | error => exact .inr rfl
    | ok a => exact second a

variable {limit limit' : Nat}

/-! ## Reading -/

section Reading

variable (le : limit ≤ limit')

include le

theorem cuts_begin (p : Parser) (t : TokenKind) :
    Cuts (.tooDeep limit) (p.begin limit t) (p.begin limit' t) := by
  simp only [Cuts, Parser.begin]
  by_cases deep : limit ≤ p.stack.length
  · exact .inl (if_pos deep)
  · have shallow : ¬ limit' ≤ p.stack.length := by omega
    rw [if_neg deep, if_neg shallow]
    cases t with
    | quote =>
      dsimp only
      -- The datum behind the mark is judged at the mark.
      by_cases datum : limit ≤ p.stack.length + 1
      · exact .inl (if_pos datum)
      · have room : ¬ limit' ≤ p.stack.length + 1 := by omega
        rw [if_neg datum, if_neg room]
        exact .inr rfl
    | _ => exact .inr rfl

theorem cuts_step (p : Parser) (t : TokenKind) :
    Cuts (.tooDeep limit) (p.step limit t) (p.step limit' t) := by
  simp only [Parser.step]
  split
  · exact .inr rfl
  · split
    · exact .inr rfl
    · exact .inr rfl
    · by_cases deep : limit ≤ p.stack.length
      · exact .inl (if_pos deep)
      · have shallow : ¬ limit' ≤ p.stack.length := by omega
        rw [if_neg deep, if_neg shallow]
        exact .inr rfl
    · exact cuts_begin le p _

theorem cuts_run (p : Parser) (ts : List TokenKind) :
    Cuts (.tooDeep limit) (p.run limit ts) (p.run limit' ts) := by
  induction ts generalizing p with
  | nil => exact .inr rfl
  | cons t ts ih =>
    rw [Parser.run, Parser.run, List.foldlM_cons, List.foldlM_cons]
    exact (cuts_step le p t).bind ih

theorem cuts_parseTokens (tokens : List Token) :
    Cuts (.tooDeep limit) (parseTokens limit tokens) (parseTokens limit' tokens) :=
  (cuts_run le _ _).bind fun _ => .inr rfl

/-- A text is too deep for the lower limit, or it is read as with the higher one. -/
theorem cuts_readSource (source : String) :
    Cuts (.tooDeep limit) (readSource limit source) (readSource limit' source) := by
  rw [readSource, readSource]
  cases tokenize source with
  | error fault => exact .inr rfl
  | ok tokens => exact cuts_parseTokens le tokens

end Reading

/-! ## Evaluation -/

/-- From every store, the first computation ends with the error, or else it gives what the second
one gives and leaves the store that it leaves. -/
def Eval.Cuts {α : Type} (e : LispError) (m m' : Eval α) : Prop :=
  ∀ store, (m store).1 = .error e ∨ m store = m' store

theorem Eval.Cuts.bind {α β : Type} {e : LispError} {m m' : Eval α} {f f' : α → Eval β}
    (first : Eval.Cuts e m m') (second : ∀ a, Eval.Cuts e (f a) (f' a)) :
    Eval.Cuts e (m >>= f) (m' >>= f') := by
  intro store
  rcases first store with cut | same
  · rcases result : m store with ⟨r, next⟩
    rw [result] at cut
    cases cut
    exact .inl (congrArg Prod.fst (Eval.bind_of_error result f))
  · rcases result : m store with ⟨fault | a, next⟩
    · rw [Eval.bind_of_error result, Eval.bind_of_error (same ▸ result)]
      exact .inr rfl
    · rw [Eval.bind_of_ok result, Eval.bind_of_ok (same ▸ result)]
      exact second a next

theorem Eval.Cuts.refl {α : Type} (e : LispError) (m : Eval α) : Eval.Cuts e m m :=
  fun _ => .inr rfl

/-- Nothing that is done behind the error undoes it, and no form looks at it. -/
theorem congruence_cuts (e : LispError) : Congruence fun _ {_} m m' => Eval.Cuts e m m' where
  ofResult _ _ := .refl e _
  bind first second := first.bind second
  lookup _ _ := .refl e _
  define _ _ _ := .refl e _
  freshId _ := .refl e _
  enclosed _ _ _ _ _ inside := (Eval.Cuts.refl e _).bind inside

/-- With fewer levels, an evaluation reaches the limit or is the one with more levels. -/
theorem cuts_eval {levels levels' : Nat} (le : levels ≤ levels') :
    RelatesCode (fun _ {_} m m' => Eval.Cuts (.recursionLimit limit) m m')
      (eval limit levels) (eval limit' levels') := by
  induction levels using Nat.strongRecOn generalizing levels' with
  | ind levels ih =>
    cases levels with
    | zero => exact fun e scope store => .inl rfl
    | succ n =>
      obtain ⟨n', rfl⟩ : ∃ n', levels' = n' + 1 := ⟨levels' - 1, by omega⟩
      rw [eval_succ, eval_succ]
      exact related_evalOne (congruence_cuts _) (ih n (by omega) (by omega))
        (ih (n - 1) (by omega) (by omega))

theorem cuts_evalSequence (le : limit ≤ limit') (es : List Value) :
    Eval.Cuts (.recursionLimit limit) (evalSequence limit es) (evalSequence limit' es) :=
  related_evalBody (congruence_cuts _) (cuts_eval (Nat.succ_le_succ le)) _ _ es

/-- For every text and every two limits: with the lower one the text is too deep for it, or its
evaluation is, or the result is exactly that with the higher one, the same text or the same
error. -/
theorem evalSource_cut_by_limit (source : String) (le : limit ≤ limit') :
    evalSource limit source = .error (.tooDeep limit) ∨
      evalSource limit source = .error (.recursionLimit limit) ∨
      evalSource limit source = evalSource limit' source := by
  rw [evalSource, evalSource]
  rcases cuts_readSource le source with deep | same
  · exact .inl (by rw [deep]; rfl)
  · right
    rw [same]
    cases readSource limit' source with
    | error e => exact .inr rfl
    | ok es =>
      rcases cuts_evalSequence le es Store.initial with reached | same
      · left
        show (evalSequence limit es Store.initial).1 >>= _ = _
        rw [reached]
        rfl
      · right
        show _ = (evalSequence limit' es Store.initial).1 >>= _
        rw [← same]
        rfl

/-- A recursion two calls deep. A limit of three does not hold its text and one of five does not
hold its calls; as six is enough, a limit of 512 gives the same. -/
theorem evalSource_cut_by_limit_recursion :
    let source := "(define (f x) (if x (f nil) 'done)) (f 1)"
    let report := fun limit =>
      match evalSource limit source with
      | .ok text => text
      | .error e => e.message
    report 3 = "Expression nested deeper than 3 levels" ∧
      report 5 = "Recursion limit of 5 exceeded" ∧ report 6 = "done" ∧
      6 ≤ 512 ∧ evalSource 6 source = evalSource 512 source := by
  intro source report
  have enough : report 6 = "done" := by decide +kernel
  have le : 6 ≤ 512 := by decide
  refine ⟨by decide +kernel, by decide +kernel, enough, le, ?_⟩
  rcases evalSource_cut_by_limit source le with deep | reached | same
  · simp only [report, deep] at enough
    exact absurd enough (by decide)
  · simp only [report, reached] at enough
    exact absurd enough (by decide)
  · exact same

end LispRepl

import LispRepl.Bridge

/-!
# What one step of the bridge can do

An event either changes nothing, or it takes the bridge along one of a few transitions: a line is
accepted, the evaluation of a line ends with or without an outcome, or the input is given up. The
transitions are listed once, with what each needs, so that an invariant of the bridge is a case
analysis of this list.

- `Bridge.Transition`, `Bridge.transition_of_step`: the list, and that it is complete.
- `Effect.command?`, `Bridge.commands_of_step`: what a step sends to the evaluator.
- `Bridge.Tidy`, `Bridge.tidy_step`: the continuation prompt stands for input that is pending.
- `Bridge.AsksLast`: effects that ask for one line, and ask for it last.
-/

set_option autoImplicit false

namespace LispRepl

/-- The effect asks for a line. -/
def Effect.isRead : Effect → Bool
  | .read _ => true
  | _ => false

/-- The effect sends a line to the evaluator. -/
def Effect.isDispatch : Effect → Bool
  | .dispatch _ _ => true
  | _ => false

/-- The command that an effect sends to the evaluator, if it sends one. -/
def Effect.command? : Effect → Option Command
  | .dispatch generation line => some (.eval generation line)
  | .reset generation => some (.reset generation)
  | .write _ | .read _ => none

/-- What is shown and asked for sends nothing. -/
theorem Effect.commands_shown (lines : List String) (prompt : String) :
    (lines.map Effect.write ++ [Effect.read prompt]).filterMap Effect.command? = [] := by
  induction lines with
  | nil => rfl
  | cons line lines ih => exact ih

namespace Bridge

/-- The transitions of the bridge, each with the effects that go with it. -/
inductive Transition (b : Bridge) : BridgeEvent → Bridge → List Effect → Prop where
  /-- A blank line outside an expression. -/
  | skip {line : InputLine} : b.isEvaluating = false →
    Transition b (.line line) b [.read b.prompt]
  | accept {line : InputLine} : b.isEvaluating = false →
    Transition b (.line line) (b.accept line.text) [.dispatch b.generation line.text]
  /-- A response that is not awaited, or is older than the request that is going on. -/
  | drop {r : Response} :
    b.phase = .awaiting ∨ (∃ g, b.phase = .evaluating g ∧ r.generation < g) →
    Transition b (.response r) b []
  | more {r : Response} {g : Generation} : b.phase = .evaluating g → r.generation = g →
    r.complete = false → r.bufferedLines = b.pendingLines →
    Transition b (.response r) b.awaitMore [.read b.awaitMore.prompt]
  | finish {r : Response} {g : Generation} {outcome : Outcome} : b.phase = .evaluating g →
    r.generation = g → r.complete = true → r.outcome = some outcome → r.resetBuffer = true →
    Transition b (.response r) b.clear
      ((outcome.render.map Effect.write).toList ++ [.read b.clear.prompt])
  /-- A response that contradicts the bridge. -/
  | resync {r : Response} {g : Generation} : b.phase = .evaluating g →
    Transition b (.response r) b.abandon
      [.reset b.abandon.generation, .write desyncMessage, .read b.abandon.prompt]
  | interrupt {signal : String} :
    Transition b (.interrupt signal) b.abandon
      [.reset b.abandon.generation, .read b.abandon.prompt]
  | lost {reason : String} :
    Transition b (.lost reason) b.abandon
      [.write (lostMessage reason), .reset b.abandon.generation, .read b.abandon.prompt]

variable {b next : Bridge} {e : BridgeEvent} {effects : List Effect}

theorem transition_of_line {line : InputLine} (h : b.onLine line = .ok (next, effects)) :
    Transition b (.line line) next effects := by
  rw [onLine] at h
  split at h
  · cases h
  · rename_i idle
    rw [Bool.not_eq_true] at idle
    split at h
    · cases h
      exact .skip idle
    · cases h
      exact .accept idle

/-- A response of the current generation. -/
theorem transition_of_current {r : Response} (phase : b.phase = .evaluating r.generation) :
    Transition b (.response r) (b.onCurrent r).1 (b.onCurrent r).2 := by
  rw [onCurrent]
  cases hc : r.complete with
  | false =>
    by_cases hl : r.bufferedLines = b.pendingLines
    · simp only [Bool.not_false, if_true, hl, ne_eq, not_true_eq_false, if_false]
      exact .more phase rfl hc hl
    · simp only [Bool.not_false, if_true, ne_eq, hl, not_false_eq_true]
      exact .resync phase
  | true =>
    cases ho : r.outcome with
    | none => exact .resync phase
    | some outcome =>
      cases hb : r.resetBuffer with
      | false => exact .resync phase
      | true => exact .finish phase rfl hc ho hb

theorem transition_of_response (b : Bridge) (r : Response) :
    Transition b (.response r) (b.onResponse r).1 (b.onResponse r).2 := by
  rw [onResponse]
  cases phase : b.phase with
  | awaiting => exact .drop (.inl phase)
  | evaluating g =>
    by_cases older : r.generation < g
    · simp only [older, if_true]
      exact .drop (.inr ⟨g, phase, older⟩)
    -- A response of a generation that has not begun contradicts the bridge.
    · by_cases newer : g < r.generation
      · simp only [older, newer, if_true, if_false]
        exact .resync phase
      · have same : r.generation = g := UInt64.le_antisymm (UInt64.not_lt.1 newer)
          (UInt64.not_lt.1 older)
        simp only [older, newer, if_false]
        exact transition_of_current (same ▸ phase)

/-- Every step of the bridge is one of the transitions. -/
theorem transition_of_step (h : b.step e = .ok (next, effects)) : Transition b e next effects := by
  cases e with
  | line line => exact transition_of_line h
  | response r =>
    have result : b.onResponse r = (next, effects) := Except.ok.inj h
    have transition := transition_of_response b r
    rwa [result] at transition
  | interrupt signal =>
    cases h
    exact .interrupt
  | lost reason =>
    cases h
    exact .lost

/-- The bridge refuses a line while an evaluation is going on, and nothing else. -/
theorem step_error {error : BridgeError} (h : b.step e = .error error) :
    b.isEvaluating = true ∧ ∃ line, e = .line line := by
  cases e with
  | line line =>
    refine ⟨?_, line, rfl⟩
    cases idle : b.isEvaluating with
    | true => rfl
    | false =>
      simp only [step, onLine, idle, Bool.false_eq_true, if_false] at h
      split at h <;> cases h
  | response r => cases h
  | interrupt signal => cases h
  | lost reason => cases h

/-- A step sends nothing or a line, and stays in its generation; or it sends a reset and begins the
next one. -/
theorem commands_of_step (h : b.step e = .ok (next, effects)) :
    (effects.filterMap Effect.command? = [] ∧ next.generation = b.generation) ∨
      (∃ line, effects.filterMap Effect.command? = [.eval b.generation line] ∧
        next.generation = b.generation) ∨
      (effects.filterMap Effect.command? = [.reset (b.generation + 1)] ∧
        next.generation = b.generation + 1) := by
  cases transition_of_step h with
  | skip => exact .inl ⟨rfl, rfl⟩
  | accept => exact .inr (.inl ⟨_, rfl, rfl⟩)
  | drop => exact .inl ⟨rfl, rfl⟩
  | more => exact .inl ⟨rfl, rfl⟩
  | @finish r g outcome =>
    refine .inl ⟨?_, rfl⟩
    cases outcome.render <;> rfl
  | resync => exact .inr (.inr ⟨rfl, rfl⟩)
  | interrupt => exact .inr (.inr ⟨rfl, rfl⟩)
  | lost => exact .inr (.inr ⟨rfl, rfl⟩)

/-- A response that is not awaited is dropped. -/
theorem onResponse_of_awaiting (awaiting : b.phase = .awaiting) (r : Response) :
    b.onResponse r = (b, []) := by
  rw [onResponse, awaiting]

/-- A response that is older than the request going on is dropped. -/
theorem onResponse_of_older {r : Response} {g : Generation} (phase : b.phase = .evaluating g)
    (older : r.generation < g) : b.onResponse r = (b, []) := by
  rw [onResponse, phase]
  exact if_pos older

/-! ## Pending input -/

/-- A request has a line, and between requests the continuation prompt is shown exactly while
input is pending. -/
structure Tidy (b : Bridge) : Prop where
  begun : b.isEvaluating = true → b.pending ≠ ""
  more : b.isEvaluating = false → (b.awaitingMore = true ↔ b.pending ≠ "")

theorem tidy_new (prompts : Prompts) : (new prompts).Tidy :=
  ⟨(fun h => by cases h), fun _ => by simp [new]⟩

theorem tidy_clear (b : Bridge) : b.clear.Tidy :=
  ⟨(fun h => by cases h), fun _ => by simp [clear]⟩

theorem tidy_abandon (b : Bridge) : b.abandon.Tidy :=
  ⟨(fun h => by cases h), fun _ => by simp [abandon, clear]⟩

theorem accept_pending_ne (b : Bridge) (line : String) : (b.accept line).pending ≠ "" := by
  intro h
  have empty := congrArg String.toList h
  simp [accept, String.toList_append] at empty

theorem isEvaluating_of_phase {g : Generation} (h : b.phase = .evaluating g) :
    b.isEvaluating = true := by
  rw [isEvaluating, h]

theorem tidy_step (tidy : b.Tidy) (h : b.step e = .ok (next, effects)) : next.Tidy := by
  cases transition_of_step h with
  | skip => exact tidy
  | accept => exact ⟨fun _ => accept_pending_ne b _, (fun h => by cases h)⟩
  | drop => exact tidy
  | more phase =>
    have pending := tidy.begun (isEvaluating_of_phase phase)
    exact ⟨(fun h => by cases h), fun _ => by simpa [awaitMore] using pending⟩
  | finish => exact tidy_clear b
  | resync => exact tidy_abandon b
  | interrupt => exact tidy_abandon b
  | lost => exact tidy_abandon b

/-! ## Reads -/

/-- The effects ask for one line, with the bridge's prompt, and ask for it last. -/
def AsksLast (b : Bridge) (effects : List Effect) : Prop :=
  ∃ others, effects = others ++ [.read b.prompt] ∧ ∀ e ∈ others, e.isRead = false

/-- After a step the bridge is as it was and nothing is to be done; or it has a request going on
that was just dispatched; or it awaits a line and asks for it. -/
theorem reads_of_step (h : b.step e = .ok (next, effects)) :
    (next = b ∧ effects = [] ∧ ∃ r, e = .response r) ∨
      (next.isEvaluating = true ∧ ∀ e ∈ effects, e.isRead = false) ∨
      (next.isEvaluating = false ∧ AsksLast next effects) := by
  cases transition_of_step h with
  | skip idle => exact .inr (.inr ⟨idle, [], rfl, by simp⟩)
  | accept => exact .inr (.inl ⟨rfl, by simp [Effect.isRead]⟩)
  | drop => exact .inl ⟨rfl, rfl, _, rfl⟩
  | more => exact .inr (.inr ⟨rfl, [], rfl, by simp⟩)
  | @finish r g outcome =>
    refine .inr (.inr ⟨rfl, _, rfl, ?_⟩)
    cases outcome.render <;> simp [Effect.isRead]
  | resync => exact .inr (.inr ⟨rfl, [_, _], rfl, by simp [Effect.isRead]⟩)
  | interrupt => exact .inr (.inr ⟨rfl, [_], rfl, by simp [Effect.isRead]⟩)
  | lost => exact .inr (.inr ⟨rfl, [_, _], rfl, by simp [Effect.isRead]⟩)

end Bridge

end LispRepl

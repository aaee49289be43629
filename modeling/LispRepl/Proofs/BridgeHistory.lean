import LispRepl.Proofs.BridgeTransition
import LispRepl.Proofs.LineReading
import Mathlib.Algebra.Group.Nat.Defs

/-!
# The bridge against any evaluator

The bridge is told events of every kind in any order, and the responses among them need not come
from an honest evaluator. What it was told and what it answered make up its history, one turn for
each event, and the history alone says which lines have been accepted since the input was last
given up or ended. The bridge holds these lines and no others, whatever the events were, and its
prompt and its phase go with them.

- `Turn`, `Bridge.turns`: the history of a bridge.
- `heldLines`: the lines accepted since the input was last cleared, by the history.
- `Bridge.Keeps`, `Bridge.keeps_takeAll`: what the bridge holds, along every history.
- `Bridge.Conducts`: how the bridge answers an event.
- `Bridge.keeps_and_conducts`: the bridge keeps and conducts itself, after any events.
-/

set_option autoImplicit false

namespace LispRepl

/-- An event and the answer of the bridge to it. -/
structure Turn where
  event : BridgeEvent
  answer : Except BridgeError (List Effect)

/-- The effect has the evaluator forget its input. -/
def Effect.isReset : Effect → Bool
  | .reset _ => true
  | _ => false

namespace Turn

/-- What the session has to do for the event; nothing for one that is refused. -/
def effects (t : Turn) : List Effect :=
  match t.answer with
  | .ok effects => effects
  | .error _ => []

/-- The input is given up. -/
def resets (t : Turn) : Bool :=
  t.effects.any Effect.isReset

/-- A response that ends the input has been taken. -/
def completes (t : Turn) : Bool :=
  !t.effects.isEmpty &&
    match t.event with
    | .response r => r.complete
    | _ => false

/-- The accepted lines after the turn: one more if a line is dispatched, and none if the input is
given up or ended. -/
def hold (held : List String) (t : Turn) : List String :=
  match t.effects with
  | [.dispatch _ line] => held ++ [line]
  | _ => if t.resets || t.completes then [] else held

end Turn

/-- The lines accepted since the input was last given up or ended. -/
def heldLines (turns : List Turn) : List String :=
  turns.foldl Turn.hold []

/-- How often the input was given up. -/
def resetCount (turns : List Turn) : Nat :=
  turns.countP Turn.resets

namespace Bridge

/-- The turn that the bridge takes at an event. -/
def turn (b : Bridge) (e : BridgeEvent) : Turn :=
  ⟨e, (b.step e).map Prod.snd⟩

/-- The bridge behind an event; one that is refused leaves it as it was. -/
def take (b : Bridge) (e : BridgeEvent) : Bridge :=
  match b.step e with
  | .ok (next, _) => next
  | .error _ => b

/-- The bridge behind a sequence of events. -/
def takeAll (b : Bridge) (es : List BridgeEvent) : Bridge :=
  es.foldl take b

/-- The turns that the bridge takes at a sequence of events. -/
def turns (b : Bridge) : List BridgeEvent → List Turn
  | [] => []
  | e :: es => b.turn e :: (b.take e).turns es

variable {b next : Bridge} {e : BridgeEvent} {effects : List Effect} {error : BridgeError}
variable {prompts : Prompts} {held : List String}

theorem take_of_ok (h : b.step e = .ok (next, effects)) : b.take e = next := by
  rw [take, h]

theorem take_of_error (h : b.step e = .error error) : b.take e = b := by
  rw [take, h]

theorem turn_of_ok (h : b.step e = .ok (next, effects)) : b.turn e = ⟨e, .ok effects⟩ := by
  rw [turn, h]
  rfl

theorem turn_of_error (h : b.step e = .error error) : b.turn e = ⟨e, .error error⟩ := by
  rw [turn, h]
  rfl

theorem turns_append (b : Bridge) (es fs : List BridgeEvent) :
    b.turns (es ++ fs) = b.turns es ++ (b.takeAll es).turns fs := by
  induction es generalizing b with
  | nil => rfl
  | cons e es ih =>
    rw [List.cons_append, turns, turns, ih]
    rfl

/-! ## What the bridge holds -/

/-- The bridge holds the lines and shows it: the pending text is that of the lines, a request has
been made for at least one of them in the current generation, and the prompt for a further one is
the continuation prompt. -/
structure Keeps (prompts : Prompts) (held : List String) (b : Bridge) : Prop where
  prompts_eq : b.prompts = prompts
  pending : b.pending = sourceText held
  lines : b.pendingLines = held.length
  evaluating : ∀ g, b.phase = .evaluating g → g = b.generation ∧ held ≠ []
  awaiting : b.phase = .awaiting → (b.awaitingMore = true ↔ held ≠ [])

theorem keeps_new (prompts : Prompts) : (new prompts).Keeps prompts [] :=
  ⟨rfl, rfl, rfl, (fun g h => by cases h), fun _ => by simp [new]⟩

theorem keeps_clear (h : b.Keeps prompts held) : b.clear.Keeps prompts [] :=
  ⟨h.prompts_eq, rfl, rfl, (fun g h => by cases h), fun _ => by simp [clear]⟩

theorem keeps_abandon (h : b.Keeps prompts held) : b.abandon.Keeps prompts [] :=
  ⟨h.prompts_eq, rfl, rfl, (fun g h => by cases h), fun _ => by simp [abandon, clear]⟩

theorem keeps_accept (h : b.Keeps prompts held) (line : String) :
    (b.accept line).Keeps prompts (held ++ [line]) where
  prompts_eq := h.prompts_eq
  pending := by
    rw [sourceText_snoc, ← h.pending]
    rfl
  lines := by
    rw [List.length_append, ← h.lines]
    rfl
  evaluating g phase := by
    cases phase
    exact ⟨rfl, by simp⟩
  awaiting phase := by cases phase

theorem keeps_awaitMore {g : Generation} (h : b.Keeps prompts held)
    (phase : b.phase = .evaluating g) : b.awaitMore.Keeps prompts held where
  prompts_eq := h.prompts_eq
  pending := h.pending
  lines := h.lines
  evaluating g phase := by cases phase
  awaiting _ := ⟨fun _ => (h.evaluating g phase).2, fun _ => rfl⟩

/-- One turn: the bridge holds the lines that the turn leaves. -/
theorem keeps_take (h : b.Keeps prompts held) (e : BridgeEvent) :
    (b.take e).Keeps prompts ((b.turn e).hold held) := by
  cases step : b.step e with
  | error error =>
    rw [take_of_error step, turn_of_error step]
    exact h
  | ok result =>
    obtain ⟨next, effects⟩ := result
    rw [take_of_ok step, turn_of_ok step]
    cases transition_of_step step with
    | skip => exact h
    | accept => exact keeps_accept h _
    | drop => exact h
    | @more r g phase current unfinished =>
      have more : (Turn.mk (.response r) (.ok [.read b.awaitMore.prompt])).completes = false :=
        unfinished
      rw [Turn.hold, more]
      exact keeps_awaitMore h phase
    | @finish r g outcome phase current complete =>
      -- The outcome may have no text, so that asking for a line is all there is to do.
      have ends (shown : List Effect) (none : shown = [] ∨ ∃ text, shown = [.write text]) :
          (Turn.mk (.response r) (.ok (shown ++ [.read b.clear.prompt]))).hold held = [] := by
        rcases none with rfl | ⟨text, rfl⟩ <;>
          simp [Turn.hold, Turn.completes, Turn.effects, complete]
      rw [ends]
      · exact keeps_clear h
      · cases outcome.render <;> simp
    | resync => exact keeps_abandon h
    | interrupt => exact keeps_abandon h
    | lost => exact keeps_abandon h

/-- Every turn keeps what the bridge holds, and so does a history. -/
theorem keeps_takeAll (h : b.Keeps prompts held) (es : List BridgeEvent) :
    (b.takeAll es).Keeps prompts ((b.turns es).foldl Turn.hold held) := by
  induction es generalizing b held with
  | nil => exact h
  | cons e es ih => exact ih (keeps_take h e)

/-- The prompt for the next line tells whether lines are held. -/
theorem Keeps.prompt (h : b.Keeps prompts held) (phase : b.phase = .awaiting) :
    b.prompt = if held = [] then prompts.primary else prompts.continuation := by
  have more := h.awaiting phase
  rw [Bridge.prompt, h.prompts_eq]
  cases held with
  | nil => rw [if_neg (by simp [more]), if_pos rfl]
  | cons line held => rw [if_pos (by simp [more]), if_neg (by simp)]

/-! ## Generations -/

/-- A step that gives up the input begins the next generation and tells it; no other step begins
one. -/
theorem generation_of_step (h : b.step e = .ok (next, effects)) :
    (∀ g, .reset g ∈ effects → g = next.generation ∧ next.generation = b.generation + 1) ∧
      ((∀ g, .reset g ∉ effects) → next.generation = b.generation) := by
  cases transition_of_step h with
  | skip => exact ⟨by simp, fun _ => rfl⟩
  | accept => exact ⟨by simp, fun _ => rfl⟩
  | drop => exact ⟨by simp, fun _ => rfl⟩
  | more => exact ⟨by simp, fun _ => rfl⟩
  | finish => exact ⟨by simp, fun _ => rfl⟩
  | resync => exact ⟨by simp [abandon], fun none => absurd (List.mem_cons_self) (none _)⟩
  | interrupt => exact ⟨by simp [abandon], fun none => absurd (List.mem_cons_self) (none _)⟩
  | lost => exact ⟨by simp [abandon], fun none => absurd (by simp) (none b.abandon.generation)⟩

theorem resets_iff {t : Turn} : t.resets = true ↔ ∃ g, .reset g ∈ t.effects := by
  rw [Turn.resets, List.any_eq_true]
  constructor
  · rintro ⟨effect, member, resets⟩
    cases effect with
    | reset g => exact ⟨g, member⟩
    | _ => cases resets
  · rintro ⟨g, member⟩
    exact ⟨_, member, rfl⟩

theorem generation_take (b : Bridge) (e : BridgeEvent) :
    (b.take e).generation = if (b.turn e).resets then b.generation + 1 else b.generation := by
  cases step : b.step e with
  | error error =>
    rw [take_of_error step, turn_of_error step]
    rfl
  | ok result =>
    obtain ⟨next, effects⟩ := result
    rw [take_of_ok step, turn_of_ok step]
    obtain ⟨grows, stays⟩ := generation_of_step step
    split
    · rename_i resets
      obtain ⟨g, member⟩ := resets_iff.1 resets
      exact (grows g member).2
    · rename_i quiet
      exact stays fun g member => quiet (resets_iff.2 ⟨g, member⟩)

/-- As long as generations do not wrap, the generation counts how often the input was given up. -/
theorem generation_takeAll {es : List BridgeEvent}
    (few : b.generation.toNat + resetCount (b.turns es) < 2 ^ 64) :
    (b.takeAll es).generation.toNat = b.generation.toNat + resetCount (b.turns es) := by
  induction es generalizing b with
  | nil => rfl
  | cons e es ih =>
    have count : resetCount (b.turns (e :: es)) =
        resetCount ((b.take e).turns es) + if (b.turn e).resets then 1 else 0 :=
      List.countP_cons
    have next := generation_take b e
    rw [count] at few ⊢
    change ((b.take e).takeAll es).generation.toNat = _
    cases resets : (b.turn e).resets with
    | false =>
      rw [resets] at next few
      rw [ih (by rw [next]; exact few), next]
      rfl
    | true =>
      rw [resets, if_pos rfl] at next few
      have room : (b.take e).generation.toNat = b.generation.toNat + 1 := by
        rw [next, UInt64.toNat_add, UInt64.toNat_one]
        omega
      rw [ih (by omega), room, if_pos rfl]
      omega

/-! ## How the bridge answers -/

/-- What a step of the bridge does: it raises the generation by one exactly if it has the evaluator
forget its input, to which it tells the new generation; it does nothing or dispatches one line of
the current generation if an evaluation goes on behind it, and does nothing or asks last for one
line otherwise. -/
structure Conducts (b next : Bridge) (effects : List Effect) : Prop where
  grows : ∀ g, .reset g ∈ effects →
    g = next.generation ∧ next.generation.toNat = b.generation.toNat + 1
  stays : (∀ g, .reset g ∉ effects) → next.generation = b.generation
  evaluating : ∀ g, next.phase = .evaluating g →
    effects = [] ∨ ∃ line, effects = [.dispatch next.generation line]
  awaiting : next.phase = .awaiting → effects = [] ∨ next.AsksLast effects

theorem conducts_of_step (h : b.step e = .ok (next, effects))
    (room : (b.turn e).resets = true → b.generation.toNat + 1 < 2 ^ 64) :
    Conducts b next effects where
  grows g member := by
    obtain ⟨told, next_eq⟩ := (generation_of_step h).1 g member
    have few := room (resets_iff.2 ⟨g, by rw [turn_of_ok h]; exact member⟩)
    refine ⟨told, ?_⟩
    rw [next_eq, UInt64.toNat_add, UInt64.toNat_one]
    omega
  stays := (generation_of_step h).2
  evaluating g phase := by
    cases transition_of_step h with
    | skip idle => rw [isEvaluating_of_phase phase] at idle; cases idle
    | accept => exact .inr ⟨_, rfl⟩
    | drop => exact .inl rfl
    | _ => cases phase
  awaiting phase := by
    rcases reads_of_step h with ⟨-, none, -⟩ | ⟨evaluating, -⟩ | ⟨-, asks⟩
    · exact .inl none
    · rw [isEvaluating, phase] at evaluating
      cases evaluating
    · exact .inr asks

/-- A response that is not awaited, or is of an older generation, changes nothing. -/
theorem step_unheard (h : b.Keeps prompts held) {r : Response}
    (unheard : r.generation < b.generation ∨ b.phase = .awaiting) :
    b.step (.response r) = .ok (b, []) := by
  refine congrArg Except.ok ?_
  cases phase : b.phase with
  | awaiting => exact onResponse_of_awaiting phase r
  | evaluating g =>
    obtain ⟨rfl, -⟩ := h.evaluating g phase
    rcases unheard with older | awaiting
    · exact onResponse_of_older phase older
    · rw [phase] at awaiting
      cases awaiting

/-- A line is refused exactly while an evaluation goes on, and nothing else is ever refused. -/
theorem refused_iff :
    (∃ error, b.step e = .error error) ↔ b.isEvaluating = true ∧ ∃ line, e = .line line := by
  constructor
  · rintro ⟨error, refused⟩
    exact step_error refused
  · rintro ⟨busy, line, rfl⟩
    refine ⟨.busy, ?_⟩
    rw [step, onLine, if_pos busy]

/-- The bridge against any evaluator: after any events, as long as generations do not wrap, it
holds the lines that it has accepted since its input was last given up or ended, it shows the
prompt that goes with them, and it answers any further event as it should. It refuses a line while
an evaluation goes on, and nothing else, and neither that nor a response that is not awaited or is
of an older generation changes anything about it. -/
theorem keeps_and_conducts (prompts : Prompts) (events : List BridgeEvent) (e : BridgeEvent)
    (few : resetCount ((new prompts).turns (events ++ [e])) < 2 ^ 64) :
    let b := (new prompts).takeAll events
    let held := heldLines ((new prompts).turns events)
    b.Keeps prompts held ∧
      (b.phase = .awaiting →
        b.prompt = if held = [] then prompts.primary else prompts.continuation) ∧
      (∀ next effects, b.step e = .ok (next, effects) → Conducts b next effects) ∧
      ((∃ error, b.step e = .error error) ↔ b.isEvaluating = true ∧ ∃ line, e = .line line) ∧
      (∀ error, b.step e = .error error → b.take e = b) ∧
      ∀ r, e = .response r → (r.generation < b.generation ∨ b.phase = .awaiting) →
        b.step e = .ok (b, []) := by
  intro b held
  have keeps : b.Keeps prompts held := keeps_takeAll (keeps_new prompts) events
  have split : resetCount ((new prompts).turns (events ++ [e])) =
      resetCount ((new prompts).turns events) + resetCount (b.turns [e]) := by
    rw [turns_append, resetCount, List.countP_append]
    rfl
  rw [split] at few
  have zero : (new prompts).generation.toNat = 0 := rfl
  have generation : b.generation.toNat =
      (new prompts).generation.toNat + resetCount ((new prompts).turns events) :=
    generation_takeAll (by omega)
  refine ⟨keeps, keeps.prompt, fun next effects step => ?_, refused_iff, fun _ => take_of_error, ?_⟩
  · -- A step that resets is one more of the few.
    refine conducts_of_step step fun resets => ?_
    have one : resetCount (b.turns [e]) = 1 := by
      rw [turns, turns, resetCount, List.countP_singleton, if_pos resets]
    omega
  · rintro r rfl unheard
    exact step_unheard keeps unheard

/-- A line of an expression that is given up, a response to it that comes late, and a line of the
next one, whose response lies about the lines held. -/
theorem keeps_and_conducts_lying :
    let events : List BridgeEvent := [.line ⟨"(a"⟩, .response (.incomplete 0 1), .line ⟨""⟩,
      .interrupt "SIGINT", .line ⟨"(b"⟩, .response (.incomplete 0 2)]
    let e : BridgeEvent := .response (.incomplete 1 2)
    let b := (new .standard).takeAll events
    resetCount ((new .standard).turns (events ++ [e])) < 2 ^ 64 ∧
      heldLines ((new .standard).turns events) = ["(b"] ∧ b.pending = "(b\n" ∧
      b.step e = .ok b.resync ∧ b.resync.1.generation.toNat = b.generation.toNat + 1 := by
  intro events e b
  have few : resetCount ((new .standard).turns (events ++ [e])) < 2 ^ 64 := by decide
  have held : heldLines ((new .standard).turns events) = ["(b"] := by decide
  have lie : b.step e = .ok b.resync := rfl
  obtain ⟨keeps, -, conducts, -⟩ := keeps_and_conducts .standard events e few
  refine ⟨few, held, ?_, lie, ?_⟩
  · rw [keeps.pending, held]
    rfl
  · exact ((conducts _ _ lie).grows _ List.mem_cons_self).2

end Bridge

end LispRepl

import LispRepl.Proofs.BridgeHistory
import LispRepl.Proofs.Exchange

/-!
# Resets that never arrive

The bridge tells the evaluator to forget its input by a reset, and every line that it sends carries
the generation that the last reset began. A worker that has not been told of a generation forgets
its input when the first line of it arrives, so that a reset says nothing the lines behind it do not
say as well: whichever of the resets are lost, a fresh worker gives the same replies and is left
with the same bindings.

The worker that gets every command and the one that misses some are compared while the commands go
by. The second may be generations behind and hold the lines of an expression that was given up
long ago; what matters is the reader that it pushes a line of the current generation to (`Follows`).

- `sentCommands`, `LosesResets`: the commands of a history, and what is left of them.
- `Stamped`, `Bridge.stamped_turns`: the generations that the commands of a history carry.
- `LispWorker.Follows`, `LispWorker.follows_run`: the two workers along the commands.
- `LispWorker.replies_of_lost_resets`: the result.
-/

set_option autoImplicit false

namespace LispRepl

/-- The commands that a turn sends to the evaluator. -/
def Turn.commands (t : Turn) : List Command :=
  t.effects.filterMap Effect.command?

/-- The commands that a history sends to the evaluator, in order. -/
def sentCommands (turns : List Turn) : List Command :=
  turns.flatMap Turn.commands

/-- What is left of the commands when any of the resets among them are lost. -/
inductive LosesResets : List Command → List Command → Prop where
  | nil : LosesResets [] []
  | keep {c : Command} {sent kept : List Command} :
    LosesResets sent kept → LosesResets (c :: sent) (c :: kept)
  | lose {generation : Generation} {sent kept : List Command} :
    LosesResets sent kept → LosesResets (.reset generation :: sent) kept

/-! ## Generations of the commands -/

/-- Commands from a generation on: a line is of the current generation, and a reset begins a newer
one. -/
inductive Stamped : Generation → List Command → Prop where
  | nil {g : Generation} : Stamped g []
  | eval {g : Generation} {line : String} {cs : List Command} :
    Stamped g cs → Stamped g (.eval g line :: cs)
  | reset {g next : Generation} {cs : List Command} :
    g < next → Stamped next cs → Stamped g (.reset next :: cs)

namespace Bridge

/-- As long as generations do not wrap, the commands of a history are stamped from the generation
that the bridge begins with. -/
theorem stamped_turns {b : Bridge} {es : List BridgeEvent}
    (few : b.generation.toNat + resetCount (b.turns es) < 2 ^ 64) :
    Stamped b.generation (sentCommands (b.turns es)) := by
  induction es generalizing b with
  | nil => exact .nil
  | cons e es ih =>
    have count : resetCount (b.turns (e :: es)) =
        resetCount ((b.take e).turns es) + if (b.turn e).resets then 1 else 0 :=
      List.countP_cons
    have grows := generation_take b e
    rw [count] at few
    change Stamped b.generation ((b.turn e).commands ++ sentCommands ((b.take e).turns es))
    cases step : b.step e with
    | error error =>
      rw [take_of_error step, turn_of_error step] at *
      exact ih (by omega)
    | ok result =>
      obtain ⟨next, effects⟩ := result
      rw [take_of_ok step] at *
      have sent : (b.turn e).commands = effects.filterMap Effect.command? := by
        rw [turn_of_ok step]
        rfl
      rw [sent]
      rcases commands_of_step step with ⟨none, same⟩ | ⟨line, one, same⟩ | ⟨one, newer⟩
      · rw [none, ← same]
        exact ih (by rw [same]; omega)
      · rw [one, ← same]
        exact .eval (ih (by rw [same]; omega))
      · -- Only a turn that resets sends a reset, and there is room for its generation.
        have resets : (b.turn e).resets = true := by
          cases quiet : (b.turn e).resets with
          | true => rfl
          | false =>
            rw [quiet, if_neg Bool.false_ne_true, newer] at grows
            simp at grows
        rw [resets, if_pos rfl] at few
        have room : b.generation.toNat + 1 < 2 ^ 64 := by omega
        rw [one, ← newer]
        refine .reset (newer ▸ Exchange.lt_generation_succ room) (ih ?_)
        rw [newer, UInt64.toNat_add, UInt64.toNat_one]
        omega

end Bridge

/-! ## Two workers -/

namespace LispWorker

/-- The answer to a line is decided by the reader that the line is pushed to and by the bindings. -/
theorem answer_eval_congr {v w : LispWorker} {g : Generation} (line : String)
    (reader : v.readerFor g = w.readerFor g) (store : v.backend.store = w.backend.store) :
    (v.answer (.eval g line)).1 = (w.answer (.eval g line)).1 ∧
      (v.answer (.eval g line)).2.backend = (w.answer (.eval g line)).2.backend := by
  have limit : v.backend.reader.limit = w.backend.reader.limit := by
    rw [← readerFor_limit v g, reader, readerFor_limit]
  have source : v.sourceWith g line = w.sourceWith g line := by
    rw [sourceWith, sourceWith, reader]
  have clear : v.backend.reader.clear = w.backend.reader.clear := by
    rw [Reader.clear, limit, Reader.clear]
  -- Both judge the same text with the same limit, and do the same with the verdict.
  cases judged : verdict w.backend.reader.limit (w.sourceWith g line) with
  | error e =>
    have same := judged
    rw [← limit, ← source] at same
    rw [answer_eq_of_handle (handle_of_rejected w g line judged),
      answer_eq_of_handle (handle_of_rejected v g line same), clear, store]
    exact ⟨rfl, rfl⟩
  | ok complete =>
    have same := judged
    rw [← limit, ← source] at same
    cases complete with
    | false =>
      rw [answer_eq_of_handle (handle_of_incomplete w g line judged),
        answer_eq_of_handle (handle_of_incomplete v g line same), reader, source, limit, store]
      exact ⟨rfl, rfl⟩
    | true =>
      rw [answer_eq_of_handle (handle_of_complete w g line judged),
        answer_eq_of_handle (handle_of_complete v g line same), source, limit, store, clear]
      exact ⟨rfl, rfl⟩

theorem generation_answer_eval (w : LispWorker) (g : Generation) (line : String) :
    (w.answer (.eval g line)).2.generation = g := by
  rcases w.answer_eval_cases g line with ⟨next, answer, generation, -⟩ |
    ⟨outcome, next, answer, generation, -⟩
  · rw [answer, generation]
  · rw [answer, generation]

/-- A worker that may have missed resets follows one that has not: it has the same bindings, it is
of no newer generation, and it pushes a line of the current one to the same reader. -/
structure Follows (g : Generation) (w v : LispWorker) : Prop where
  current : w.generation = g
  behind : v.generation ≤ g
  store : v.backend.store = w.backend.store
  reader : v.readerFor g = w.readerFor g

theorem follows_refl (w : LispWorker) : Follows w.generation w w :=
  ⟨rfl, UInt64.le_refl _, rfl, rfl⟩

variable {g next : Generation} {w v : LispWorker}

/-- Two workers that are in the same generation and hold the same follow one another. -/
theorem follows_of_eq (current : w.generation = g) (level : v.generation = g)
    (backend : v.backend = w.backend) : Follows g w v := by
  refine ⟨current, UInt64.le_of_eq level, congrArg LispBackend.store backend, ?_⟩
  rw [readerFor, readerFor, current, level, backend]

theorem follows_eval (follows : Follows g w v) (line : String) :
    (v.answer (.eval g line)).1 = (w.answer (.eval g line)).1 ∧
      Follows g (w.answer (.eval g line)).2 (v.answer (.eval g line)).2 := by
  obtain ⟨reply, backend⟩ := answer_eval_congr line follows.reader follows.store
  refine ⟨reply, follows_of_eq ?_ ?_ backend⟩
  · exact generation_answer_eval w g line
  · exact generation_answer_eval v g line

theorem Follows.clear (follows : Follows g w v) :
    v.backend.reader.clear = w.backend.reader.clear := by
  have limit := congrArg Reader.limit follows.reader
  rw [readerFor_limit, readerFor_limit] at limit
  rw [Reader.clear, limit, Reader.clear]

theorem follows_reset (follows : Follows g w v) (next : Generation) :
    Follows next (w.answer (.reset next)).2 (v.answer (.reset next)).2 := by
  apply follows_of_eq
  · rfl
  · rfl
  · simp only [answer_reset, LispBackend.reset]
    rw [follows.clear, follows.store]

/-- A worker that misses a reset is behind, and will forget its lines once a line of the new
generation arrives. -/
theorem follows_lost_reset (follows : Follows g w v) (newer : g < next) :
    Follows next (w.answer (.reset next)).2 v := by
  have older : v.generation < next := UInt64.lt_of_le_of_lt follows.behind newer
  -- The line of the new generation will find the second worker in an older one, and clear it.
  have apart : next ≠ v.generation := (UInt64.ne_of_lt older).symm
  refine ⟨rfl, UInt64.le_of_lt older, follows.store, ?_⟩
  rw [readerFor, if_neg apart, follows.clear]
  simp [readerFor, LispBackend.reset]

/-! ## Runs -/

/-- Whichever resets are lost, the replies are the same and so are the bindings in the end. -/
theorem follows_run {sent kept : List Command} (stamped : Stamped g sent)
    (lost : LosesResets sent kept) (follows : Follows g w v) :
    (v.replies kept).1 = (w.replies sent).1 ∧
      (v.replies kept).2.backend.store = (w.replies sent).2.backend.store := by
  -- Along what is lost. The generation is general, as a reset leads to the next one in both workers
  -- or, where it is lost, in the first alone.
  induction lost generalizing g w v with
  | nil => exact ⟨rfl, follows.store⟩
  | @keep c sent kept _ ih =>
    cases stamped with
    | @eval _ line _ stamped =>
      obtain ⟨reply, after⟩ := follows_eval follows line
      obtain ⟨replies, store⟩ := ih stamped after
      rw [replies_cons, replies_cons, reply, replies]
      exact ⟨rfl, store⟩
    | reset newer stamped =>
      obtain ⟨replies, store⟩ := ih stamped (follows_reset follows _)
      rw [replies_cons, replies_cons, replies]
      exact ⟨rfl, store⟩
  | lose _ ih =>
    cases stamped with
    | reset newer stamped =>
      -- The worker that is told of the reset has no reply to it.
      exact ih stamped (follows_lost_reset follows newer)

/-- For every history of the bridge in which generations do not wrap, and whichever of its resets
are lost: a fresh worker gives the same replies to the lines, and is left with the same bindings, as
one that gets every command. -/
theorem replies_of_lost_resets (limit : Nat) (prompts : Prompts) (events : List BridgeEvent)
    (few : resetCount ((Bridge.new prompts).turns events) < 2 ^ 64) (kept : List Command)
    (lost : LosesResets (sentCommands ((Bridge.new prompts).turns events)) kept) :
    let full := (LispWorker.new limit).replies (sentCommands ((Bridge.new prompts).turns events))
    let lossy := (LispWorker.new limit).replies kept
    lossy.1 = full.1 ∧ lossy.2.backend.store = full.2.backend.store := by
  have zero : (Bridge.new prompts).generation = 0 := rfl
  have stamped : Stamped 0 (sentCommands ((Bridge.new prompts).turns events)) := by
    have few' : (Bridge.new prompts).generation.toNat +
        resetCount ((Bridge.new prompts).turns events) < 2 ^ 64 := by
      rw [zero, UInt64.toNat_zero]
      omega
    exact zero ▸ Bridge.stamped_turns few'
  exact follows_run stamped lost (follows_refl (LispWorker.new limit))

/-- Two expressions are given up, of which the first has made a definition, and the worker learns of
neither: the line of the third is not taken for a part of them. -/
theorem replies_of_lost_resets_twice :
    let events : List BridgeEvent := [.line ⟨"(define x 7)"⟩, .response (.finished 0 (.success "")),
      .line ⟨"(car"⟩, .interrupt "SIGINT", .line ⟨"\"a"⟩, .lost "worker exited", .line ⟨"x"⟩]
    let sent := sentCommands ((Bridge.new .standard).turns events)
    let kept : List Command :=
      [.eval 0 "(define x 7)", .eval 0 "(car", .eval 1 "\"a", .eval 2 "x"]
    resetCount ((Bridge.new .standard).turns events) < 2 ^ 64 ∧ LosesResets sent kept ∧
      sent.length = 6 ∧ kept.length = 4 ∧
      ((LispWorker.new 8).replies kept).1 = ((LispWorker.new 8).replies sent).1 ∧
      ((LispWorker.new 8).replies kept).1.map Prod.snd =
        [.finished 0 (.success ""), .incomplete 0 1, .incomplete 1 1,
          .finished 2 (.success "7")] := by
  intro events sent kept
  have few : resetCount ((Bridge.new .standard).turns events) < 2 ^ 64 := by decide
  have lost : LosesResets sent kept := .keep (.keep (.lose (.keep (.lose (.keep .nil)))))
  have same := replies_of_lost_resets 8 .standard events few kept lost
  refine ⟨few, lost, rfl, rfl, same.1, ?_⟩
  decide +kernel

end LispWorker

end LispRepl

import LispRepl.Proofs.Exchange
import LispRepl.Proofs.SessionReaction
import LispRepl.Proofs.ThreadedWorker
import Mathlib.Algebra.Group.Nat.Defs

/-!
# Requests and answers on their way

A worker over any backend answers a request with one response of the request's generation, unless
it crashes, and answers nothing else. On a thread that lives, the requests of a generation that wait
or are being handled and the answers of that generation that wait to be delivered are therefore as
many in all, whatever the thread does. They become more only when the bridge sends a request, and
fewer only when an answer is delivered: in the bridge's own generation there is one in all while an
evaluation goes on and none otherwise, and in generations that have not begun there is none.

- `Worker.handle_eval`, `Worker.handle_other`: what a worker answers.
- `Link.requests`, `Link.replies`, `Link.inFlight`: the requests and answers of a generation.
- `Bridge.Accounted`: how many there are, by what the bridge waits for.
- `Bridge.accounted_step`, `Bridge.accounted_response`: the steps of the bridge keep the account.
-/

set_option autoImplicit false

namespace LispRepl

variable {β : Type}

/-- The command is a request of this generation. -/
def Command.isRequestOf (g : Generation) : Command → Bool
  | .eval h _ => h = g
  | _ => false

/-! ## Answers of a worker -/

namespace Worker

variable [Backend β] {w next : Worker β} {g : Generation} {line : String}

theorem generation_of_adopt (h : w.adopt g = some next) : next.generation = g := by
  rw [adopt] at h
  split at h
  · rename_i same
    cases h
    exact same.symm
  · obtain ⟨backend, -, adopted⟩ := Option.bind_eq_some_iff.1 h
    cases adopted
    rfl

theorem generation_of_evalLine {r : Response} (h : w.evalLine line = some (r, next)) :
    r.generation = w.generation := by
  rw [evalLine] at h
  obtain ⟨⟨judged, backend⟩, -, answered⟩ := Option.bind_eq_some_iff.1 h
  cases judged with
  | error text =>
    obtain ⟨reset, -, finished⟩ := Option.bind_eq_some_iff.1 answered
    cases finished
    rfl
  | ok complete =>
    cases complete with
    | false =>
      obtain ⟨lines, -, held⟩ := Option.bind_eq_some_iff.1 answered
      cases held
      rfl
    | true =>
      obtain ⟨reset, -, finished⟩ := Option.bind_eq_some_iff.1 answered
      cases finished
      rfl

/-- A worker that lives on has given one answer to a request, in the request's generation. -/
theorem handle_eval {replies : List Response}
    (h : Service.handle w (.eval g line) = (replies, some next)) :
    ∃ r, replies = [r] ∧ r.generation = g := by
  rcases service_cases h with ⟨r, handled, rfl⟩ | ⟨handled, -⟩
  · obtain ⟨adopted, adopts, rest⟩ := Option.bind_eq_some_iff.1 handled
    obtain ⟨⟨r, last⟩, answers, given⟩ := Option.bind_eq_some_iff.1 rest
    cases given
    exact ⟨r, rfl, (generation_of_evalLine answers).trans (generation_of_adopt adopts)⟩
  · obtain ⟨adopted, -, rest⟩ := Option.bind_eq_some_iff.1 handled
    obtain ⟨result, -, given⟩ := Option.bind_eq_some_iff.1 rest
    cases given

/-- A worker answers requests and nothing else. -/
theorem handle_other {c : Command} {replies : List Response}
    (h : Service.handle w c = (replies, some next)) (other : ∀ g line, c ≠ .eval g line) :
    replies = [] := by
  rcases service_cases h with ⟨r, handled, -⟩ | ⟨-, none⟩
  · cases c with
    | eval g line => exact absurd rfl (other g line)
    | reset g =>
      obtain ⟨backend, -, given⟩ := Option.bind_eq_some_iff.1 handled
      cases given
    | shutdown => cases handled
  · exact none

end Worker

/-! ## What is on its way -/

namespace Link

/-- How many requests of a generation wait or are being handled. -/
def requests (l : Link (Thread (Worker β))) (g : Generation) : Nat :=
  l.unanswered.countP (Command.isRequestOf g)

/-- How many answers of a generation wait to be delivered. -/
def replies (l : Link (Thread (Worker β))) (g : Generation) : Nat :=
  l.responses.countP fun r => r.generation = g

/-- The requests of a generation that are still to be answered, and the answers to others that are
still to be delivered. -/
def inFlight (l : Link (Thread (Worker β))) (g : Generation) : Nat :=
  l.requests g + l.replies g

variable {l m : Link (Thread (Worker β))}

/-- A thread that lives on turns a request into an answer. -/
theorem inFlight_works [Backend β] (works : Thread.Works l m) (live : m.service ≠ none)
    (g : Generation) : m.inFlight g = l.inFlight g := by
  cases works with
  | take => rfl
  | stop => exact absurd rfl live
  | @answer service next c commands responses replies handled =>
    -- The command in hand is answered; the others, and what waits already, stay as they are.
    have taken : inFlight ⟨commands, some ⟨service, some c⟩, responses⟩ g =
        (if c.isRequestOf g then 1 else 0) + commands.countP (Command.isRequestOf g) +
          responses.countP fun r => r.generation = g := by
      rw [inFlight, requests, Link.replies, unanswered, Option.bind_some, Option.toList_some,
        List.countP_append, List.countP_singleton]
    have given : inFlight ⟨commands, some (⟨next, none⟩ : Thread (Worker β)), responses ++ replies⟩
        g = commands.countP (Command.isRequestOf g) +
          ((responses.countP fun r => r.generation = g) +
            replies.countP fun r => r.generation = g) := by
      rw [inFlight, requests, Link.replies, unanswered, Option.bind_some, Option.toList_none,
        List.nil_append, List.countP_append]
    have one : (replies.countP fun r => r.generation = g) = if c.isRequestOf g then 1 else 0 := by
      cases c with
      | eval h line =>
        obtain ⟨r, rfl, same⟩ := Worker.handle_eval handled
        rw [List.countP_singleton, same]
        rfl
      | reset h =>
        rw [Worker.handle_other handled nofun]
        rfl
      | shutdown =>
        rw [Worker.handle_other handled nofun]
        rfl
    rw [taken, given, one]
    omega

/-- A worker that lives has the commands that are sent to it on their way. -/
theorem inFlight_sendAll (live : l.service ≠ none) (cs : List Command) (g : Generation) :
    (l.sendAll cs).inFlight g = l.inFlight g + cs.countP (Command.isRequestOf g) := by
  obtain ⟨thread, known⟩ := Option.ne_none_iff_exists'.1 live
  rw [sendAll_of_live known, inFlight, inFlight, requests, requests, unanswered, unanswered, replies,
    replies, ← List.append_assoc, List.countP_append]
  exact Nat.add_right_comm _ _ _

/-- What was delivered is not on its way any more. -/
theorem inFlight_deliver {r : Response} {rest : List Response} (head : l.responses = r :: rest)
    (g : Generation) :
    l.inFlight g = { l with responses := rest }.inFlight g + if r.generation = g then 1 else 0 := by
  rw [inFlight, inFlight, replies, replies, head, List.countP_cons]
  simp only [decide_eq_true_eq]
  exact (Nat.add_assoc _ _ _).symm

theorem inFlight_new (w : Worker β) (g : Generation) : (Link.new (Thread.new w)).inFlight g = 0 :=
  rfl

end Link

namespace Bridge

/-- Nothing of a newer generation than the bridge's is on its way, and of the bridge's own one
request or answer while an evaluation goes on, and none otherwise. -/
structure Accounted (b : Bridge) (l : Link (Thread (Worker β))) : Prop where
  newer : ∀ g, b.generation < g → l.inFlight g = 0
  current : l.inFlight b.generation = b.isEvaluating.toNat

/-- An evaluation goes on in the bridge's generation. -/
def Timely (b : Bridge) : Prop :=
  ∀ g, b.phase = .evaluating g → g = b.generation

variable {b next : Bridge} {e : BridgeEvent} {effects : List Effect}
variable {l : Link (Thread (Worker β))}

theorem timely_step (timely : b.Timely) (h : b.step e = .ok (next, effects)) :
    next.Timely := by
  intro g phase
  cases transition_of_step h with
  | skip => exact timely g phase
  | accept =>
    cases phase
    rfl
  | drop => exact timely g phase
  | more => cases phase
  | finish => cases phase
  | resync => cases phase
  | interrupt => cases phase
  | lost => cases phase

/-- Nothing of the generation that begins when the input is given up is on its way. -/
theorem accounted_abandon (room : b.generation.toNat + 1 < 2 ^ 64)
    (newer : ∀ g, b.generation < g → l.inFlight g = 0) : b.abandon.Accounted l := by
  have begins : b.generation < b.abandon.generation := Exchange.lt_generation_succ room
  exact ⟨fun g later => newer g (UInt64.lt_trans begins later), newer _ begins⟩

/-- A step that no response leads to. -/
theorem accounted_step (h : b.step e = .ok (next, effects)) (unasked : ∀ r, e ≠ .response r)
    (room : b.generation.toNat + 1 < 2 ^ 64) (live : l.service ≠ none) (accounted : b.Accounted l) :
    next.Accounted (l.sendAll (effects.filterMap Effect.command?)) := by
  have given_up : ∀ g, b.abandon.Accounted (l.sendAll [.reset g]) := by
    intro g
    apply accounted_abandon room
    intro h later
    rw [Link.inFlight_sendAll live, accounted.newer h later]
    rfl
  cases transition_of_step h with
  | skip => exact accounted
  | @accept line idle =>
    -- Nothing was on its way in this generation, and now the request is.
    have none := accounted.current
    rw [idle] at none
    refine ⟨?_, ?_⟩
    · intro g later
      have other : Command.isRequestOf g (.eval b.generation line.text) = false :=
        decide_eq_false (UInt64.ne_of_lt later)
      rw [Link.inFlight_sendAll live, accounted.newer g later]
      simp [Effect.command?, other]
    · have same : Command.isRequestOf b.generation (.eval b.generation line.text) = true :=
        decide_eq_true rfl
      change (l.sendAll _).inFlight b.generation = 1
      rw [Link.inFlight_sendAll live, none]
      simp [Effect.command?, same]
  | drop => exact absurd rfl (unasked _)
  | more => exact absurd rfl (unasked _)
  | finish => exact absurd rfl (unasked _)
  | resync => exact absurd rfl (unasked _)
  | interrupt => exact given_up _
  | lost => exact given_up _

/-- The delivery of a response. -/
theorem accounted_response {r : Response} {rest : List Response}
    (h : b.step (.response r) = .ok (next, effects)) (timely : b.Timely)
    (room : b.isEvaluating = true → b.generation.toNat + 1 < 2 ^ 64) (live : l.service ≠ none)
    (head : l.responses = r :: rest) (accounted : b.Accounted l) :
    next.Accounted
      ({ l with responses := rest }.sendAll (effects.filterMap Effect.command?)) := by
  have fewer := Link.inFlight_deliver head
  have newer : ∀ g, b.generation < g → { l with responses := rest }.inFlight g = 0 := by
    intro g later
    have all := fewer g
    rw [accounted.newer g later] at all
    omega
  have current := fewer b.generation
  rw [accounted.current] at current
  -- The awaited answer was all there was of its generation.
  have answered {g : Generation} (phase : b.phase = .evaluating g) (same : r.generation = g) :
      { l with responses := rest }.inFlight b.generation = 0 := by
    rw [isEvaluating_of_phase phase, if_pos (same.trans (timely g phase))] at current
    exact (Nat.succ.inj current).symm
  cases transition_of_step h with
  | drop unheard =>
    refine ⟨newer, ?_⟩
    change { l with responses := rest }.inFlight b.generation = b.isEvaluating.toNat
    rcases unheard with awaiting | ⟨g, phase, older⟩
    · have idle : b.isEvaluating = false := by rw [isEvaluating, awaiting]
      rw [idle] at current ⊢
      change 0 = _ at current
      change _ = 0
      omega
    · have other : r.generation ≠ b.generation := timely g phase ▸ UInt64.ne_of_lt older
      rw [if_neg other] at current
      exact current.symm
  | more phase same => exact ⟨newer, answered phase same⟩
  | @finish _ g outcome phase same =>
    have unsent : ((outcome.render.map Effect.write).toList ++
        [Effect.read b.clear.prompt]).filterMap Effect.command? = [] := by
      cases outcome.render <;> rfl
    rw [unsent]
    exact ⟨newer, answered phase same⟩
  | resync phase =>
    apply accounted_abandon (room (isEvaluating_of_phase phase))
    intro g later
    rw [Link.inFlight_sendAll (l := { l with responses := rest }) live, newer g later]
    rfl

end Bridge

end LispRepl

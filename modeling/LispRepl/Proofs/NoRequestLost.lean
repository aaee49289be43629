import LispRepl.Proofs.RequestInFlight
import LispRepl.Proofs.WorkerRun

/-!
# No request is lost

A session that waits for the answer to a request has no read armed, so that a request or an answer
that went astray would leave it waiting for ever. For a session whose worker runs on a thread, over
any backend, this does not happen: as long as the worker lives, the request or its answer is on its
way, once; when the worker is gone, what it has said is delivered and then the loss is noticed.

Generations tell requests apart only as long as they do not wrap. Every step of the script begins
one generation at most, and so does every worker that is replaced, so that the length of the script
and the number of restarts bound them (`Session.budget`).

- `Session.budget`, `Session.budget_feed`: the generations that were begun, or may be without a
  step of the script.
- `LiveSession.Conserves`, `LiveSession.conserves_move`: the invariant of a run.
- `LiveSession.LossDue`: only deliveries stand before a loss is noticed.
- `LiveSession.no_request_lost`: the result.
-/

set_option autoImplicit false

namespace LispRepl

variable {β : Type}

/-! ## Generations -/

namespace Bridge

/-- The generations that the bridge has begun, and the one it may yet begin because of the answer
that it waits for. -/
def spent (b : Bridge) : Nat :=
  b.generation.toNat + b.isEvaluating.toNat

variable {b next : Bridge} {e : BridgeEvent} {effects : List Effect}

theorem spent_of_awaiting (awaiting : b.isEvaluating = false) : b.spent = b.generation.toNat := by
  rw [spent, awaiting]
  rfl

theorem spent_of_phase {g : Generation} (phase : b.phase = .evaluating g) :
    b.spent = b.generation.toNat + 1 := by
  rw [spent, isEvaluating_of_phase phase]
  rfl

theorem spent_abandon (b : Bridge) : b.abandon.spent ≤ b.generation.toNat + 1 := by
  rw [spent_of_awaiting rfl]
  change (b.generation + 1).toNat ≤ _
  rw [UInt64.toNat_add]
  exact Nat.mod_le _ _

theorem generation_le_spent (b : Bridge) : b.generation.toNat ≤ b.spent :=
  Nat.le_add_right _ _

/-- An answer is paid for by the request. -/
theorem spent_response {r : Response} (h : b.step (.response r) = .ok (next, effects)) :
    next.spent ≤ b.spent := by
  cases transition_of_step h with
  | drop => exact Nat.le_refl _
  | more => exact generation_le_spent b
  | finish => exact generation_le_spent b
  | resync phase =>
    rw [spent_of_phase phase]
    exact spent_abandon b

/-- A step begins one generation at most, or may lead to one by the request that it sends. -/
theorem spent_step (h : b.step e = .ok (next, effects)) : next.spent ≤ b.spent + 1 := by
  have given_up := Nat.le_trans (spent_abandon b) (Nat.succ_le_succ (generation_le_spent b))
  cases e with
  | response r => exact Nat.le_succ_of_le (spent_response h)
  | line line =>
    cases transition_of_step h with
    | skip => exact Nat.le_succ _
    | accept idle =>
      rw [spent_of_awaiting idle]
      exact Nat.le_refl _
  | interrupt signal =>
    cases h
    exact given_up
  | lost reason =>
    cases h
    exact given_up

end Bridge

namespace Session

/-- The generations that the session has begun, and those that it may yet begin without an event
of the terminal: because of an answer, and because of the loss of a worker. -/
def budget (s : Session) : Nat :=
  s.bridge.spent + (s.maxRestarts - s.losses)

/-- An event costs one generation at most. -/
theorem budget_feed (s : Session) (e : BridgeEvent) : (s.feed e).session.budget ≤ s.budget + 1 := by
  cases step : s.bridge.step e with
  | error error =>
    rw [feed_of_error step]
    exact Nat.le_succ _
  | ok result =>
    have spent := Bridge.spent_step step
    rw [feed_of_ok step, budget, budget]
    change result.1.spent + (s.maxRestarts - s.losses) ≤ _
    omega

theorem budget_onResponse (s : Session) (r : Response) :
    (s.onResponse r).session.budget ≤ s.budget := by
  have spent := Bridge.spent_response (b := s.bridge) (r := r) rfl
  exact Nat.add_le_add_right spent _

/-- A worker that may be replaced costs what was set aside for it. -/
theorem budget_countLoss {s : Session} (may : s.losses < s.maxRestarts) :
    s.countLoss.budget + 1 = s.budget := by
  rw [budget, budget]
  change s.bridge.spent + (s.maxRestarts - (s.losses + 1)) + 1 = _
  omega

end Session

/-! ## The invariant -/

/-- Threads with new workers over these backends, where there is one. -/
def Thread.spawn (backends : Nat → Option β) (n : Nat) : Option (Thread (Worker β)) :=
  (backends n).map fun backend => .new (.new backend)

namespace LiveSession

variable {room : Nat} {s next : LiveSession ScriptedTerminal (Thread (Worker β))}

/-- The generations stay within their bound, the requests and answers of a living worker are
accounted for, and the session has a worker, living or not, unless it ended for want of one. -/
structure Conserves (room : Nat) (s : LiveSession ScriptedTerminal (Thread (Worker β))) : Prop where
  within : s.session.budget + s.terminal.script.length ≤ room
  timely : s.session.bridge.Timely
  accounted : ∀ l, s.link = some l → l.service ≠ none → s.session.bridge.Accounted l
  unlinked : s.link = none → (∃ n, s.ending = some (.workerLost n)) ∨ s.ending = some .workerFailed
  ended : s.ending ≠ none → s.session.bridge.isEvaluating = true → s.link = none

/-- A session that goes on has a worker, living or not. -/
theorem Conserves.linked (conserves : s.Conserves room) (goes : s.ending = none) :
    s.link ≠ none := by
  intro gone
  rcases conserves.unlinked gone with ⟨n, ends⟩ | ends
  · cases goes.symm.trans ends
  · cases goes.symm.trans ends

/-- A reaction that goes on keeps the invariant, where what it sends is accounted for. -/
theorem conserves_react {r : Reaction} (usable : s.terminal.disposed = false)
    (goes : r.ending = none) (within : r.session.budget + s.terminal.script.length ≤ room)
    (timely : r.session.bridge.Timely) (linked : s.link ≠ none)
    (accounted : ∀ l, s.link = some l → l.service ≠ none →
      r.session.bridge.Accounted (l.sendAll (r.effects.filterMap Effect.command?))) :
    (s.react r).Conserves room := by
  obtain ⟨session, ending⟩ := react_facts usable r
  obtain ⟨terminal, link⟩ := react_carried usable goes
  refine ⟨?_, ?_, ?_, ?_, ?_⟩
  · rw [session, terminal, ScriptedTerminal.script_seeAll]
    exact within
  · rw [session]
    exact timely
  · intro m now live
    rw [link] at now
    obtain ⟨l, before, rfl⟩ := Option.map_eq_some_iff.1 now
    rw [Link.service_sendAll] at live
    rw [session]
    exact accounted l before live
  · intro gone
    rw [link, Option.map_eq_none_iff] at gone
    exact absurd gone linked
  · intro ended
    exact absurd (ending.trans goes) ended

/-- An event of the terminal that the bridge is told. -/
theorem conserves_feed (fits : room < 2 ^ 64) (goes : s.ending = none)
    (conserves : s.Conserves room) {terminal : ScriptedTerminal}
    (still : terminal.disposed = false)
    (shorter : terminal.script.length + 1 = s.terminal.script.length) {session : Session}
    (bridge : session.bridge = s.session.bridge) (budget : session.budget = s.session.budget)
    (e : BridgeEvent) (unasked : ∀ r, e ≠ .response r) (accepted : (session.feed e).ending = none) :
    ({ s with terminal }.react (session.feed e)).Conserves room := by
  have linked := conserves.linked goes
  have within := conserves.within
  -- The event was set aside for, so that there is room for the generation that it may begin.
  have enough : s.session.bridge.generation.toNat + 1 < 2 ^ 64 := by
    have begun := Bridge.generation_le_spent s.session.bridge
    rw [Session.budget] at within
    omega
  cases step : session.bridge.step e with
  | error error =>
    rw [Session.feed_of_error step] at accepted
    cases accepted
  | ok result =>
    have cost := session.budget_feed e
    rw [Session.feed_of_ok step] at cost ⊢
    rw [bridge] at step
    refine conserves_react (s := { s with terminal }) still rfl ?_ ?_ linked ?_
    · change _ + terminal.script.length ≤ room
      omega
    · exact Bridge.timely_step conserves.timely step
    · intro l now live
      exact Bridge.accounted_step step unasked enough live (conserves.accounted l now live)

/-- A reaction by which the user leaves. -/
theorem conserves_left (conserves : s.Conserves room) (goes : s.ending = none)
    (awaiting : s.session.bridge.isEvaluating = false) {terminal : ScriptedTerminal}
    (shorter : terminal.script.length ≤ s.terminal.script.length) :
    ({ s with terminal }.react ⟨s.session, [], some .left⟩).Conserves room := by
  refine ⟨?_, conserves.timely, conserves.accounted, ?_, ?_⟩
  · have within := conserves.within
    change s.session.budget + terminal.script.length ≤ room
    omega
  · intro gone
    exact absurd gone (conserves.linked goes)
  · intro _ evaluating
    exact absurd (awaiting.symm.trans evaluating) nofun

theorem conserves_event (fits : room < 2 ^ 64) (poised : s.session.Poised s.terminal)
    (goes : s.ending = none) (conserves : s.Conserves room) {e : TerminalEvent}
    {terminal : ScriptedTerminal} (polled : s.terminal.poll = (some e, terminal)) :
    ({ s with terminal }.onEvent e).Conserves room := by
  have step := s.terminal.polled
  rw [polled] at step
  have still := (ScriptedTerminal.poll_keeps step).2.trans poised.usable
  have linked := conserves.linked goes
  -- A line comes, and the terminal is closed, only while one is awaited.
  have awaiting_of_armed (armed : s.terminal.armed = true) :
      s.session.bridge.isEvaluating = false := by
    rw [poised.armed] at armed
    rwa [Bool.not_eq_true'] at armed
  have shorter (more : e ≠ .closed) :
      terminal.script.length + 1 = s.terminal.script.length :=
    ScriptedTerminal.script_of_event step more
  have told (bridge : BridgeEvent) (more : e ≠ .closed) (unasked : ∀ r, bridge ≠ .response r)
      {session : Session} (same : session.bridge = s.session.bridge)
      (budget : session.budget = s.session.budget)
      (accepted : (session.feed bridge).ending = none) :
      ({ s with terminal }.react (session.feed bridge)).Conserves room :=
    conserves_feed fits goes conserves still (shorter more) same budget bridge unasked accepted
  rw [onEvent]
  change ({ s with terminal }.react (s.session.onTerminal e)).Conserves room
  have answer := s.session.answer_onTerminal e
  generalize s.session.onTerminal e = r at answer ⊢
  cases answer with
  | closed =>
    cases step with
    | closed script armed =>
      exact conserves_left conserves goes (awaiting_of_armed armed) (Nat.le_refl _)
  | tell more => exact told (.lost _) more nofun rfl rfl rfl
  | exit =>
    have awaiting := awaiting_of_armed (ScriptedTerminal.armed_of_line step)
    exact conserves_left conserves goes awaiting (Nat.le_of_succ_le (Nat.le_of_eq (shorter nofun)))
  | clear => exact told (.interrupt "clear") nofun nofun rfl rfl rfl
  | @output _ lines =>
    have shorter := shorter nofun
    have within := conserves.within
    refine conserves_react (s := { s with terminal }) still rfl ?_ conserves.timely linked ?_
    · change s.session.budget + terminal.script.length ≤ room
      omega
    · intro l now live
      rw [Effect.commands_shown]
      exact conserves.accounted l now live
  | @line line =>
    have awaiting := awaiting_of_armed (ScriptedTerminal.armed_of_line step)
    refine told (.line line) nofun nofun rfl rfl ?_
    exact (Session.settles_line poised.tidy (by assumption) awaiting line).goes
  | @interrupt signal => exact told (.interrupt signal) nofun nofun rfl rfl rfl

theorem conserves_deliver (fits : room < 2 ^ 64) (usable : s.terminal.disposed = false)
    (conserves : s.Conserves room) : s.deliver.Conserves room := by
  rcases deliver_cases s with same | ⟨l, r, rest, linked, waiting⟩
  · rw [same]
    exact conserves
  · have within := conserves.within
    have cost := s.session.budget_onResponse r
    rw [deliver_of_waiting linked waiting]
    refine conserves_react (s := { s with link := some { l with responses := rest } })
      (r := s.session.onResponse r) usable rfl ?_ ?_ nofun ?_
    · change _ + s.terminal.script.length ≤ room
      omega
    · exact Bridge.timely_step conserves.timely (e := .response r) rfl
    · intro m now live
      cases now
      refine Bridge.accounted_response (r := r) rfl conserves.timely ?_ live waiting
        (conserves.accounted l linked live)
      intro evaluating
      rw [Session.budget, Bridge.spent, evaluating] at within
      change s.session.bridge.generation.toNat + 1 + _ + _ ≤ room at within
      omega

theorem conserves_loss [Backend β] (backends : Nat → Option β) (fits : room < 2 ^ 64)
    (usable : s.terminal.disposed = false) (conserves : s.Conserves room) :
    (s.noticeLoss (Thread.spawn backends)).Conserves room := by
  have within := conserves.within
  have answer := s.session.lossAnswer_onLoss (Thread.spawn backends s.spawned).isSome
  rw [noticeLoss_eq]
  generalize s.session.onLoss _ = r at answer ⊢
  -- Nothing is on its way to a worker that has just been started, or from it.
  have fresh {l : Link (Thread (Worker β))}
      (started : (Thread.spawn backends s.spawned).map Link.new = some l) (g : Generation) :
      l.inFlight g = 0 := by
    obtain ⟨thread, spawned, rfl⟩ := Option.map_eq_some_iff.1 started
    obtain ⟨backend, -, rfl⟩ := Option.map_eq_some_iff.1 spawned
    exact Link.inFlight_new _ g
  cases answer with
  | exhausted full =>
    have may : s.session.mayRestart = false := decide_eq_false (Nat.not_lt.2 full)
    rw [may, react_quiet rfl]
    refine ⟨?_, conserves.timely, nofun, fun _ => .inl ⟨_, rfl⟩, fun _ _ => rfl⟩
    change s.session.bridge.spent + (s.session.maxRestarts - (s.session.losses + 1)) +
      s.terminal.script.length ≤ room
    rw [Session.budget] at within
    omega
  | failed may failed =>
    have none : Thread.spawn backends s.spawned = none := by
      rwa [Option.isSome_eq_false_iff, Option.isNone_iff_eq_none] at failed
    have fewer := Session.budget_countLoss may
    have may : s.session.mayRestart = true := decide_eq_true may
    rw [may, none, react_quiet rfl]
    refine ⟨?_, conserves.timely, nofun, fun _ => .inr rfl, fun _ _ => rfl⟩
    change s.session.countLoss.budget + s.terminal.script.length ≤ room
    omega
  | told may started =>
    have fewer := Session.budget_countLoss may
    have cost := s.session.countLoss.budget_feed (.lost exitReason)
    have may : s.session.mayRestart = true := decide_eq_true may
    rw [may]
    refine conserves_react usable rfl ?_ ?_ ?_ ?_
    · change _ + s.terminal.script.length ≤ room
      omega
    · exact Bridge.timely_step conserves.timely (e := .lost exitReason) rfl
    · intro gone
      rw [if_pos rfl, Option.map_eq_none_iff] at gone
      rw [gone] at started
      cases started
    · intro l now live
      have begun := Bridge.generation_le_spent s.session.bridge
      rw [Session.budget] at within
      refine Bridge.accounted_abandon (b := s.session.bridge) (by omega) ?_
      intro g _
      rw [Link.inFlight_sendAll live, fresh now g]
      rfl
  | held may started awaiting begun =>
    have fewer := Session.budget_countLoss may
    have may : s.session.mayRestart = true := decide_eq_true may
    rw [may]
    refine conserves_react usable rfl ?_ conserves.timely ?_ ?_
    · change s.session.countLoss.budget + s.terminal.script.length ≤ room
      omega
    · intro gone
      rw [if_pos rfl, Option.map_eq_none_iff] at gone
      rw [gone] at started
      cases started
    · intro l now live
      refine ⟨fun g _ => fresh now g, ?_⟩
      change l.inFlight _ = s.session.bridge.isEvaluating.toNat
      rw [awaiting]
      exact fresh now _

theorem conserves_start (backends : Nat → Option β) (prompts : Prompts) (maxRestarts : Nat)
    (script : List ScriptStep) :
    (start (Thread.spawn backends) (Session.new prompts maxRestarts) (.new script)).Conserves
      (script.length + maxRestarts) := by
  have within : (Session.new prompts maxRestarts).budget + script.length ≤
      script.length + maxRestarts := by
    change 0 + (maxRestarts - 0) + script.length ≤ _
    omega
  rw [start]
  cases spawned : Thread.spawn backends 0 with
  | none =>
    refine ⟨within, ?_, ?_, fun _ => .inr rfl, fun _ _ => rfl⟩
    · intro g phase
      cases phase
    · intro l linked
      cases linked
  | some thread =>
    obtain ⟨backend, -, rfl⟩ := Option.map_eq_some_iff.1 spawned
    refine ⟨within, ?_, ?_, ?_, fun ended => absurd rfl ended⟩
    · intro g phase
      cases phase
    · intro l linked _
      cases linked
      exact ⟨fun g _ => rfl, rfl⟩
    · intro gone
      cases gone

/-- Every move keeps the requests and answers accounted for, whenever the thread ends. -/
theorem conserves_move [Backend β] (backends : Nat → Option β) (fits : room < 2 ^ 64)
    (sound : s.Sound) (conserves : s.Conserves room)
    (move : Move Thread.Moves (Thread.spawn backends) s next) : next.Conserves room := by
  cases move with
  | @worker l m linked moves =>
    refine ⟨conserves.within, conserves.timely, ?_, nofun, ?_⟩
    · intro k now live
      cases now
      rcases moves with works | dies
      · have before : l.service ≠ none := by cases works <;> nofun
        have accounted := conserves.accounted l linked before
        refine ⟨fun g later => ?_, ?_⟩
        · rw [Link.inFlight_works works live]
          exact accounted.newer g later
        · rw [Link.inFlight_works works live]
          exact accounted.current
      · cases dies
        exact absurd rfl live
    · intro ended evaluating
      -- A session that has ended has no worker that could move.
      have gone := conserves.ended ended evaluating
      rw [linked] at gone
      cases gone
  | pause goes polled =>
    have step := s.terminal.polled
    rw [polled] at step
    have shorter := ScriptedTerminal.script_of_pause step
    refine ⟨?_, conserves.timely, conserves.accounted, conserves.unlinked, conserves.ended⟩
    exact Nat.le_trans (Nat.add_le_add_left shorter _) conserves.within
  | event goes polled => exact conserves_event fits (sound.1 goes) goes conserves polled
  | deliver goes => exact conserves_deliver fits (sound.1 goes).usable conserves
  | loss goes => exact conserves_loss backends fits (sound.1 goes).usable conserves

theorem conserves_reached [Backend β] {backends : Nat → Option β} {prompts : Prompts}
    {maxRestarts : Nat} {script : List ScriptStep} (fits : script.length + maxRestarts < 2 ^ 64)
    (reached : Reached Thread.Moves (Thread.spawn backends) prompts maxRestarts script s) :
    s.Conserves (script.length + maxRestarts) := by
  induction reached with
  | refl => exact conserves_start backends prompts maxRestarts script
  | tail before move ih => exact conserves_move backends fits (sound_reached before) ih move

/-! ## The way to a loss -/

/-- With what the worker has said delivered, the session goes on and the worker is lost. -/
structure LossDue {σ : Type} (behaves : Link σ → Link σ → Prop) (spawn : Nat → Option σ)
    (s : LiveSession ScriptedTerminal σ) (responses : List Response) : Prop where
  moves : Relation.ReflTransGen (Move behaves spawn) s (s.deliverAll responses)
  goes : (s.deliverAll responses).ending = none
  lost : ∃ l, (s.deliverAll responses).link = some l ∧ l.isLost = true
  /-- The loss is noticed then, and counted. -/
  counted : ((s.deliverAll responses).noticeLoss spawn).session.losses = s.session.losses + 1

theorem losses_noticeLoss {σ : Type} {s : LiveSession ScriptedTerminal σ}
    (usable : s.terminal.disposed = false) (spawn : Nat → Option σ) :
    (s.noticeLoss spawn).session.losses = s.session.losses + 1 := by
  have session : (s.noticeLoss spawn).session =
      (s.session.onLoss (spawn s.spawned).isSome).session := by
    rw [noticeLoss_eq]
    exact (react_facts (by exact usable) _).1
  rw [session]
  have answer := s.session.lossAnswer_onLoss (spawn s.spawned).isSome
  generalize s.session.onLoss _ = r at answer ⊢
  cases answer with
  | exhausted => rfl
  | failed => rfl
  | told => rfl
  | held => rfl

/-- A worker that is gone stays so while what it has said is delivered. -/
theorem lossDue_of_gone {σ : Type} {behaves : Link σ → Link σ → Prop} {spawn : Nat → Option σ}
    {s : LiveSession ScriptedTerminal σ} {l : Link σ} {responses : List Response}
    (usable : s.terminal.disposed = false) (goes : s.ending = none) (linked : s.link = some l)
    (gone : l.service = none) (waiting : l.responses = responses) :
    LossDue behaves spawn s responses := by
  -- By what is left to deliver. None of it starts another worker, as that takes a loss.
  induction responses generalizing s l with
  | nil =>
    refine ⟨.refl, goes, ⟨l, linked, ?_⟩, losses_noticeLoss usable spawn⟩
    rw [Link.isLost, gone, waiting]
    rfl
  | cons r rest ih =>
    have delivered := deliver_of_waiting linked waiting
    have all : s.deliverAll (r :: rest) = s.deliver.deliverAll rest := by
      rw [deliverAll, goes]
      rfl
    have facts := react_facts (s := { s with link := some { l with responses := rest } }) usable
      (s.session.onResponse r)
    have carried := react_carried (s := { s with link := some { l with responses := rest } }) usable
      (r := s.session.onResponse r) rfl
    rw [← delivered] at facts carried
    have due : LossDue behaves spawn s.deliver rest := by
      refine ih (l := { l with responses := rest }) ?_ facts.2 ?_ gone rfl
      · rw [carried.1, ScriptedTerminal.disposed_seeAll]
        exact usable
      · rw [carried.2, Option.map_some, Link.sendAll_of_stopped (by exact gone)]
    have uncounted : s.deliver.session.losses = s.session.losses := by
      rw [facts.1]
      rfl
    refine ⟨?_, ?_, ?_, ?_⟩
    · rw [all]
      exact .head (.deliver goes) due.moves
    · rw [all]
      exact due.goes
    · rw [all]
      exact due.lost
    · rw [all, due.counted, uncounted]

/-- Along every run over a worker on a thread, with any backend and whenever the thread ends: while
an evaluation goes on, either the worker lives and one request of the evaluation's generation waits
or is being handled, or one answer of it waits to be delivered, and not both; or the worker is gone
and does nothing more, and with what it has said delivered its loss is noticed; or the session has
ended because a lost worker was not replaced.

A script that a machine can hold and a 32-bit count of restarts stay below the number of
generations. -/
theorem no_request_lost [Backend β] (backends : Nat → Option β) (prompts : Prompts)
    (maxRestarts : Nat) (script : List ScriptStep) (fits : script.length + maxRestarts < 2 ^ 64)
    (s : LiveSession ScriptedTerminal (Thread (Worker β)))
    (reached : Reached Thread.Moves (Thread.spawn backends) prompts maxRestarts script s)
    (g : Generation) (phase : s.session.bridge.phase = .evaluating g) :
    (∃ l, s.link = some l ∧ s.ending = none ∧
      ((l.service ≠ none ∧
          (l.requests g = 1 ∧ l.replies g = 0 ∨ l.requests g = 0 ∧ l.replies g = 1)) ∨
        (l.service = none ∧ (∀ m, ¬ Thread.Moves l m) ∧
          LossDue Thread.Moves (Thread.spawn backends) s l.responses))) ∨
      (s.link = none ∧
        ((∃ n, s.ending = some (.workerLost n)) ∨ s.ending = some .workerFailed)) := by
  have conserves := conserves_reached fits reached
  have evaluating := Bridge.isEvaluating_of_phase phase
  cases linked : s.link with
  | none => exact .inr ⟨rfl, conserves.unlinked linked⟩
  | some l =>
    -- Had it ended while the answer is awaited, it would be for want of a worker.
    have goes : s.ending = none := by
      cases ending : s.ending with
      | none => rfl
      | some ending =>
        have gone := conserves.ended (ending ▸ nofun) evaluating
        rw [linked] at gone
        cases gone
    refine .inl ⟨l, rfl, goes, ?_⟩
    by_cases gone : l.service = none
    · have usable := ((sound_reached reached).1 goes).usable
      exact .inr ⟨gone, fun m => Thread.not_moves_of_gone gone,
        lossDue_of_gone usable goes linked gone rfl⟩
    · have one := (conserves.accounted l linked gone).current
      rw [← conserves.timely g phase, evaluating, Link.inFlight] at one
      change _ = 1 at one
      exact .inl ⟨gone, by omega⟩

/-- A worker that has begun an expression is interrupted, and answers when the next line has been
sent: the late answer waits, and the request behind it is there as well. -/
theorem no_request_lost_behind_late_answer :
    ∃ s l, Reached Thread.Moves (Thread.spawn fun _ => some (LispBackend.new 8)) .standard 0
        [.line ⟨"(+ 1"⟩, .interrupt "SIGINT", .line ⟨"2"⟩] s ∧
      s.session.bridge.phase = .evaluating 1 ∧ s.link = some l ∧
      l.responses = [.incomplete 0 1] ∧ l.requests 1 = 1 ∧ l.replies 1 = 0 := by
  have begun : Reached Thread.Moves (Thread.spawn fun _ => some (LispBackend.new 8)) .standard 0
    [.line ⟨"(+ 1"⟩, .interrupt "SIGINT", .line ⟨"2"⟩] _ := .refl
  have sent := begun.tail (.event rfl rfl)
  have taken := sent.tail (.worker rfl (.inl .take))
  have interrupted := taken.tail (.event rfl rfl)
  have again := interrupted.tail (.event rfl rfl)
  have answers := Worker.service_of_reply (LispWorker.handle_of_incomplete (.new 8) 0 "(+ 1" rfl)
  have late := again.tail (.worker rfl (.inl (.answer answers)))
  refine ⟨_, _, late, rfl, rfl, rfl, ?_⟩
  rcases no_request_lost _ _ _ _ (by decide) _ late 1 rfl with
    ⟨l, linked, -, ⟨-, waits | ⟨none, -⟩⟩ | ⟨gone, -⟩⟩ | ⟨gone, -⟩
  · cases linked
    exact waits
  · cases linked
    cases none
  · cases linked
    cases gone
  · cases gone

end LiveSession

end LispRepl

import LispRepl.Proofs.SessionReaction

/-!
# Lost workers

A session that loses its worker starts another, a bounded number of times, and gives up the
expression that was being entered. The loss is told at once or, while a continuation line is being
entered, when that line arrives; in the meantime a second worker may be lost. Whatever the order of
these, nothing of a lost expression reaches a later worker: what a session asks for from a loss on
begins with the notice and a reset, and the first line behind them is the only one pending.

The history of a run has a round for each turn of the loop: what the turn took up and the reaction
to it. Only runs in which another worker can always be started are considered.

- `LiveSession.Cause`, `LiveSession.Round`, `LiveSession.Run`: runs with their histories.
- `Session.Recovers`, `Session.recovers_reaction`: what a session asks for from a loss on.
- `LiveSession.Tally`, `LiveSession.tally_run`: how many losses there were and how the run ended.
- `LiveSession.losses_are_contained`: the result.
-/

set_option autoImplicit false

namespace LispRepl

/-- What a turn of a session's loop takes up. -/
inductive LiveSession.Cause where
  | event (event : TerminalEvent)
  | response (response : Response)
  /-- The worker is lost. -/
  | loss
deriving DecidableEq

/-- The user leaves: there is no more input, or the line is a command to leave. -/
def LiveSession.Cause.Leaves (c : Cause) : Prop :=
  c = .event .closed ∨
    ∃ line, c = .event (.line line) ∧ MetaCommand.ofLine? line.text = some .exit

/-! ## Reactions -/

namespace Session

open LiveSession (Cause)

/-- The reaction to what a turn takes up, where another worker can be started. -/
def reaction (s : Session) : Cause → Reaction
  | .event e => s.onTerminal e
  | .response r => s.onResponse r
  | .loss => s.onLoss true

variable {s : Session} {t : ScriptedTerminal} {c : Cause}

/-- The bridge alone takes part in its step. -/
theorem feed_counts (s : Session) (e : BridgeEvent) :
    (s.feed e).session.losses = s.losses ∧ (s.feed e).session.maxRestarts = s.maxRestarts := by
  cases step : s.bridge.step e with
  | error error =>
    rw [feed_of_error step]
    exact ⟨rfl, rfl⟩
  | ok result =>
    rw [feed_of_ok step]
    exact ⟨rfl, rfl⟩

theorem onTerminal_counts (s : Session) (e : TerminalEvent) :
    (s.onTerminal e).session.losses = s.losses ∧
      (s.onTerminal e).session.maxRestarts = s.maxRestarts := by
  have answer := s.answer_onTerminal e
  generalize s.onTerminal e = r at answer ⊢
  cases answer with
  | closed => exact ⟨rfl, rfl⟩
  | tell => exact feed_counts { s with untold := none } _
  | exit => exact ⟨rfl, rfl⟩
  | clear => exact feed_counts s _
  | output => exact ⟨rfl, rfl⟩
  | line => exact feed_counts s _
  | interrupt => exact feed_counts s _

/-- Losses are counted, and nothing else is. -/
theorem reaction_counts (s : Session) (c : Cause) :
    (s.reaction c).session.losses = s.losses + (if c = .loss then 1 else 0) ∧
      (s.reaction c).session.maxRestarts = s.maxRestarts := by
  cases c with
  | event e => exact onTerminal_counts s e
  | response r => exact feed_counts s _
  | loss =>
    have answer := s.lossAnswer_onLoss true
    rw [reaction]
    generalize s.onLoss true = r at answer ⊢
    cases answer with
    | exhausted => exact ⟨rfl, rfl⟩
    | failed => exact ⟨rfl, rfl⟩
    | told => exact feed_counts s.countLoss _
    | held => exact ⟨rfl, rfl⟩

/-- Only a closed terminal and a command to leave make a session leave. -/
theorem leaves_of_left {e : TerminalEvent} (h : (s.onTerminal e).ending = some .left) :
    Cause.Leaves (.event e) := by
  have answer := s.answer_onTerminal e
  generalize s.onTerminal e = r at answer h
  cases answer with
  | closed => exact .inl rfl
  | tell => exact absurd h (feed_ending_ne_left _ _)
  | @exit line _ _ found => exact .inr ⟨line, rfl, found⟩
  | clear => exact absurd h (feed_ending_ne_left _ _)
  | output => cases h
  | line => exact absurd h (feed_ending_ne_left _ _)
  | interrupt => exact absurd h (feed_ending_ne_left _ _)

/-- How a session ends: a loss ends it once no worker may be started any more, and otherwise it ends
when the user leaves. -/
theorem ending_of_reaction (poised : s.Poised t)
    (awaiting : ∀ line, c = .event (.line line) → s.bridge.isEvaluating = false) :
    (c = .loss ∧
      (s.reaction c).ending =
        if s.losses < s.maxRestarts then none else some (.workerLost (s.losses + 1))) ∨
      (c ≠ .loss ∧
        ((s.reaction c).ending = none ∨ ((s.reaction c).ending = some .left ∧ c.Leaves))) := by
  cases c with
  | event e =>
    refine .inr ⟨nofun, ?_⟩
    rcases onTerminal_cases poised.tidy e fun line same => awaiting line (same ▸ rfl) with
      left | ⟨-, settles⟩
    · exact .inr ⟨left, leaves_of_left left⟩
    · exact .inl settles.goes
  | response r => exact .inr ⟨nofun, .inl rfl⟩
  | loss =>
    refine .inl ⟨rfl, ?_⟩
    have answer := s.lossAnswer_onLoss true
    rw [reaction]
    generalize s.onLoss true = r at answer ⊢
    cases answer with
    | exhausted full => rw [if_neg (Nat.not_lt.2 full)]
    | failed _ restarted => cases restarted
    | told may => rw [if_pos may, feed_of_ok rfl]
    | held may => rw [if_pos may]

/-- A reaction sends a line by itself, which then is pending on top of what was; or it sends no
line, and what is pending stays or is given up. -/
theorem dispatch_of_feed (s : Session) (e : BridgeEvent) :
    (∃ line, (s.feed e).session.bridge = s.bridge.accept line ∧
      (s.feed e).effects = [.dispatch s.bridge.generation line]) ∨
      ((∀ a ∈ (s.feed e).effects, a.isDispatch = false) ∧
        ((s.feed e).session.bridge.pendingLines = 0 ∨
          (s.feed e).session.bridge.pendingLines = s.bridge.pendingLines)) := by
  cases step : s.bridge.step e with
  | error error =>
    rw [feed_of_error step]
    exact .inr ⟨nofun, .inr rfl⟩
  | ok result =>
    obtain ⟨next, effects⟩ := result
    rw [feed_of_ok step]
    cases Bridge.transition_of_step step with
    | skip => exact .inr ⟨by simp [Effect.isDispatch], .inr rfl⟩
    | accept => exact .inl ⟨_, rfl, rfl⟩
    | drop => exact .inr ⟨nofun, .inr rfl⟩
    | more => exact .inr ⟨by simp [Effect.isDispatch], .inr rfl⟩
    | @finish r g outcome =>
      refine .inr ⟨?_, .inl rfl⟩
      cases outcome.render <;> simp [Effect.isDispatch]
    | resync => exact .inr ⟨by simp [Effect.isDispatch], .inl rfl⟩
    | interrupt => exact .inr ⟨by simp [Effect.isDispatch], .inl rfl⟩
    | lost => exact .inr ⟨by simp [Effect.isDispatch], .inl rfl⟩

theorem dispatch_of_reaction (s : Session) (c : Cause) :
    (∃ line, (s.reaction c).session.bridge = s.bridge.accept line ∧
      (s.reaction c).effects = [.dispatch s.bridge.generation line]) ∨
      ((∀ a ∈ (s.reaction c).effects, a.isDispatch = false) ∧
        ((s.reaction c).session.bridge.pendingLines = 0 ∨
          (s.reaction c).session.bridge.pendingLines = s.bridge.pendingLines)) := by
  cases c with
  | event e =>
    have answer := s.answer_onTerminal e
    rw [reaction]
    generalize s.onTerminal e = r at answer ⊢
    cases answer with
    | closed => exact .inr ⟨nofun, .inr rfl⟩
    | tell => exact dispatch_of_feed { s with untold := none } _
    | exit => exact .inr ⟨nofun, .inr rfl⟩
    | clear => exact dispatch_of_feed s _
    | @output _ lines =>
      refine .inr ⟨?_, .inr rfl⟩
      intro a member
      rcases List.mem_append.1 member with shown | asked
      · obtain ⟨text, -, rfl⟩ := List.mem_map.1 shown
        rfl
      · rw [List.mem_singleton.1 asked]
        rfl
    | line => exact dispatch_of_feed s _
    | interrupt => exact dispatch_of_feed s _
  | response r => exact dispatch_of_feed s _
  | loss =>
    have answer := s.lossAnswer_onLoss true
    rw [reaction]
    generalize s.onLoss true = r at answer ⊢
    cases answer with
    | exhausted => exact .inr ⟨nofun, .inr rfl⟩
    | failed => exact .inr ⟨nofun, .inr rfl⟩
    | told => exact dispatch_of_feed s.countLoss _
    | held => exact .inr ⟨nofun, .inr rfl⟩

/-- The reaction tells a loss. -/
structure Tells (r : Reaction) : Prop where
  effects : r.effects = [.write (lostMessage exitReason), .reset r.session.bridge.generation,
    .read r.session.bridge.prompt]
  cleared : r.session.bridge.pendingLines = 0

theorem tells_of_lost (s : Session) : Tells (s.feed (.lost exitReason)) := by
  rw [feed_of_ok rfl]
  exact ⟨rfl, rfl⟩

/-- A loss is told, or it is left untold, or it ends the session. -/
theorem onLoss_cases (s : Session) :
    Tells (s.onLoss true) ∨
      ((s.onLoss true).effects = [] ∧
        ((s.onLoss true).session.untold = some exitReason ∨ (s.onLoss true).ending ≠ none)) := by
  have answer := s.lossAnswer_onLoss true
  generalize s.onLoss true = r at answer ⊢
  cases answer with
  | exhausted => exact .inr ⟨rfl, .inr nofun⟩
  | failed => exact .inr ⟨rfl, .inr nofun⟩
  | told => exact .inl (tells_of_lost s.countLoss)
  | held => exact .inr ⟨rfl, .inl rfl⟩

/-- While a loss is untold, the next line or interrupt tells it, and everything else leaves it
untold and asks for nothing. -/
theorem untold_cases (poised : s.Poised t) (untold : s.untold = some exitReason) (c : Cause) :
    Tells (s.reaction c) ∨
      ((s.reaction c).effects = [] ∧ (s.reaction c).session.untold = some exitReason) := by
  have owed : s.untold ≠ none := by
    rw [untold]
    nofun
  -- A loss is left untold only while a continuation line is awaited.
  obtain ⟨awaiting, begun⟩ := poised.held owed
  cases c with
  | event e =>
    have answer := s.answer_onTerminal e
    rw [reaction]
    generalize s.onTerminal e = r at answer ⊢
    cases answer with
    | closed => exact .inr ⟨rfl, untold⟩
    | tell _ reason =>
      cases untold.symm.trans reason
      exact .inl (tells_of_lost { s with untold := none })
    | exit told => exact absurd told owed
    | clear told => exact absurd told owed
    | output told => exact absurd told owed
    | line told => exact absurd told owed
    | interrupt told => exact absurd told owed
  | response r =>
    rw [reaction, LiveSession.onResponse_of_awaiting awaiting]
    exact .inr ⟨rfl, untold⟩
  | loss =>
    have answer := s.lossAnswer_onLoss true
    rw [reaction]
    generalize s.onLoss true = r at answer ⊢
    cases answer with
    | exhausted => exact .inr ⟨rfl, untold⟩
    | failed => exact .inr ⟨rfl, untold⟩
    | told => exact .inl (tells_of_lost s.countLoss)
    | held => exact .inr ⟨rfl, rfl⟩

/-! ## What is asked for from a loss on -/

/-- Effects, each with the bridge as it is behind the turn that asks for them: no line was sent and
none is pending, or the first line that was sent is the only one pending then. -/
inductive FirstAlone : List (Bridge × Effect) → Bridge → Prop where
  | unsent {acts : List (Bridge × Effect)} {b : Bridge} :
    (∀ a ∈ acts, a.2.isDispatch = false) → b.pendingLines = 0 → FirstAlone acts b
  | sent {calm rest : List (Bridge × Effect)} {b last : Bridge} {g : Generation} {line : String} :
    (∀ a ∈ calm, a.2.isDispatch = false) → b.pendingLines = 1 →
    FirstAlone (calm ++ (b, .dispatch g line) :: rest) last

/-- What was asked for from a loss on, and the session behind it: either the loss is still untold
and nothing was sent, or the notice came first and then a reset, and the first line behind these is
alone. -/
inductive Recovers : List (Bridge × Effect) → Session → Prop where
  | untold {acts : List (Bridge × Effect)} {s : Session} :
    s.untold = some exitReason → (∀ a ∈ acts, a.2.command? = none) → Recovers acts s
  | told {quiet more : List (Bridge × Effect)} {b : Bridge} {s : Session} :
    (∀ a ∈ quiet, a.2.command? = none) → FirstAlone more s.bridge →
    Recovers
      (quiet ++ (b, .write (lostMessage exitReason)) :: (b, .reset b.generation) :: more) s

/-- The effects of a reaction, each with the bridge behind it. -/
def acts (r : Reaction) : List (Bridge × Effect) :=
  r.effects.map (r.session.bridge, ·)

theorem acts_of_tells {r : Reaction} (tells : Tells r) :
    acts r =
      (r.session.bridge, .write (lostMessage exitReason)) ::
        (r.session.bridge, .reset r.session.bridge.generation) ::
          [(r.session.bridge, .read r.session.bridge.prompt)] := by
  rw [acts, tells.effects]
  rfl

/-- A loss is told behind effects that sent nothing. -/
theorem recovers_of_tells {r : Reaction} (tells : Tells r) {quiet : List (Bridge × Effect)}
    (silent : ∀ a ∈ quiet, a.2.command? = none) : Recovers (quiet ++ acts r) r.session := by
  rw [acts_of_tells tells]
  refine .told silent (.unsent ?_ tells.cleared)
  intro a member
  rw [List.mem_singleton.1 member]
  rfl

theorem firstAlone_reaction {more : List (Bridge × Effect)} (alone : FirstAlone more s.bridge)
    (c : Cause) : FirstAlone (more ++ acts (s.reaction c)) (s.reaction c).session.bridge := by
  cases alone with
  | unsent calm none =>
    -- None is pending, so that a line which is sent now is the first and the only one.
    rcases dispatch_of_reaction s c with ⟨line, accepted, sent⟩ | ⟨quiet, pending⟩
    · rw [acts, sent, accepted]
      refine .sent calm ?_
      show s.bridge.pendingLines + 1 = 1
      rw [none]
    · refine .unsent ?_ ?_
      · intro a member
        rcases List.mem_append.1 member with member | member
        · exact calm a member
        · obtain ⟨e, asked, rfl⟩ := List.mem_map.1 member
          exact quiet e asked
      · rcases pending with cleared | same
        · exact cleared
        · exact same.trans none
  | sent calm one =>
    rw [List.append_assoc, List.cons_append]
    exact .sent calm one

/-- Every reaction of a session that recovers is one more step of its recovery. -/
theorem recovers_reaction {before : List (Bridge × Effect)} (poised : s.Poised t)
    (recovers : Recovers before s) (c : Cause) :
    Recovers (before ++ acts (s.reaction c)) (s.reaction c).session := by
  cases recovers with
  | untold untold silent =>
    rcases untold_cases poised untold c with tells | ⟨none, still⟩
    · exact recovers_of_tells tells silent
    · rw [acts, none, List.map_nil, List.append_nil]
      exact .untold still silent
  | told silent alone =>
    rw [List.append_assoc, List.cons_append, List.cons_append]
    exact .told silent (firstAlone_reaction alone c)

variable {all : List (Bridge × Effect)}

/-- Nothing is found among effects without what is looked for. -/
theorem find?_of_none {p : Effect → Bool} {quiet : List (Bridge × Effect)}
    (none : ∀ a ∈ quiet, p a.2 = false) (rest : List (Bridge × Effect)) :
    (quiet ++ rest).find? (fun a => p a.2) = rest.find? fun a => p a.2 := by
  have skipped : quiet.find? (fun a => p a.2) = Option.none := by
    apply List.find?_eq_none.2
    intro a member
    rw [none a member]
    exact Bool.false_ne_true
  rw [List.find?_append, skipped, Option.none_or]

theorem isDispatch_of_silent {e : Effect} (silent : e.command? = none) : e.isDispatch = false := by
  cases e with
  | dispatch g line => cases silent
  | _ => rfl

/-- The first command behind a loss is a reset of the bridge's generation. -/
theorem Recovers.reset (h : Recovers all s) {b : Bridge} {e : Effect}
    (first : all.find? (fun a => a.2.command?.isSome) = some (b, e)) :
    e = .reset b.generation := by
  have quietly {quiet : List (Bridge × Effect)} (silent : ∀ a ∈ quiet, a.2.command? = none) :
      ∀ a ∈ quiet, a.2.command?.isSome = false := by
    intro a member
    rw [silent a member]
    rfl
  cases h with
  | untold _ silent =>
    rw [← List.append_nil all, find?_of_none (p := fun e => e.command?.isSome) (quietly silent)]
      at first
    cases first
  | told silent _ =>
    rw [find?_of_none (p := fun e => e.command?.isSome) (quietly silent)] at first
    cases first
    rfl

/-- At the first line that is sent behind a loss, that line alone is pending. -/
theorem Recovers.alone (h : Recovers all s) {b : Bridge} {e : Effect}
    (first : all.find? (fun a => a.2.isDispatch) = some (b, e)) : b.pendingLines = 1 := by
  cases h with
  | untold _ silent =>
    rw [← List.append_nil all,
      find?_of_none fun a member => isDispatch_of_silent (silent a member)] at first
    cases first
  | @told quiet more told _ silent alone =>
    have behind : more.find? (fun a => a.2.isDispatch) = some (b, e) := by
      rw [find?_of_none fun a member => isDispatch_of_silent (silent a member)] at first
      exact first
    cases alone with
    | unsent calm _ =>
      rw [← List.append_nil more, find?_of_none calm] at behind
      cases behind
    | sent calm one =>
      rw [find?_of_none calm] at behind
      cases behind
      exact one

/-- The notice of a loss is written before a line is sent. -/
theorem Recovers.notice (h : Recovers all s) {before after : List (Bridge × Effect)} {b : Bridge}
    {g : Generation} {line : String} (sent : all = before ++ (b, .dispatch g line) :: after) :
    ∃ earlier, (earlier, .write (lostMessage exitReason)) ∈ before := by
  cases h with
  | untold _ silent =>
    have none := silent (b, .dispatch g line) (by simp [sent])
    cases none
  | @told quiet more told _ silent _ =>
    -- The line is neither among what was silent nor the notice, so the notice stands before it.
    rcases List.append_eq_append_iff.1 sent with ⟨between, rfl, rest⟩ | ⟨between, rfl, rest⟩
    · cases between with
      | nil => cases rest
      | cons a between =>
        rw [List.cons_append, List.cons.injEq] at rest
        rw [← rest.1]
        exact ⟨told, by simp⟩
    · cases between with
      | nil => cases rest
      | cons a between =>
        rw [List.cons_append, List.cons.injEq] at rest
        have none := silent a (by simp)
        rw [← rest.1] at none
        cases none

end Session

/-! ## Runs with their histories -/

namespace LiveSession

variable {σ : Type}

/-- A turn of the loop: what it took up, and what that came to. -/
structure Round where
  cause : Cause
  reaction : Reaction

/-- One move of a live session whose workers can always be replaced, with what it takes up if it is
a turn of the loop that takes up something. -/
inductive Step (behaves : Link σ → Link σ → Prop) (spawn : Nat → σ) :
    LiveSession ScriptedTerminal σ → Option Cause → LiveSession ScriptedTerminal σ → Prop where
  | worker {s : LiveSession ScriptedTerminal σ} {l m : Link σ} :
    s.link = some l → behaves l m → Step behaves spawn s none { s with link := some m }
  | pause {s : LiveSession ScriptedTerminal σ} {t : ScriptedTerminal} :
    s.ending = none → s.terminal.poll = (none, t) →
    Step behaves spawn s none { s with terminal := t }
  | event {s : LiveSession ScriptedTerminal σ} {e : TerminalEvent} {t : ScriptedTerminal} :
    s.ending = none → s.terminal.poll = (some e, t) →
    Step behaves spawn s (some (.event e)) ({ s with terminal := t }.onEvent e)
  | deliver {s : LiveSession ScriptedTerminal σ} {l : Link σ} {r : Response}
      {rest : List Response} :
    s.ending = none → s.link = some l → l.responses = r :: rest →
    Step behaves spawn s (some (.response r)) s.deliver
  | loss {s : LiveSession ScriptedTerminal σ} {l : Link σ} :
    s.ending = none → s.link = some l → l.isLost = true →
    Step behaves spawn s (some .loss) (s.noticeLoss fun n => some (spawn n))

/-- A run from a first state, with its rounds in order. -/
inductive Run (behaves : Link σ → Link σ → Prop) (spawn : Nat → σ)
    (first : LiveSession ScriptedTerminal σ) :
    List Round → LiveSession ScriptedTerminal σ → Prop where
  | nil : Run behaves spawn first [] first
  | snoc {log : List Round} {s t : LiveSession ScriptedTerminal σ} {cause : Option Cause} :
    Run behaves spawn first log s → Step behaves spawn s cause t →
    Run behaves spawn first
      (log ++ (cause.map fun c => ⟨c, s.session.reaction c⟩).toList) t

variable {behaves : Link σ → Link σ → Prop} {spawn : Nat → σ}
variable {s t first : LiveSession ScriptedTerminal σ} {log : List Round}

/-- A step is a move with what it takes up. -/
theorem move_of_step {cause : Option Cause} (step : Step behaves spawn s cause t) :
    Move behaves (fun n => some (spawn n)) s t := by
  cases step with
  | worker linked moved => exact .worker linked moved
  | pause goes polled => exact .pause goes polled
  | event goes polled => exact .event goes polled
  | deliver goes => exact .deliver goes
  | loss goes linked lost => exact .loss goes linked lost

/-- A session after a run has been reached by moves. -/
theorem reached_of_run {prompts : Prompts} {maxRestarts : Nat} {script : List ScriptStep}
    (run : Run behaves spawn
      (start (fun n => some (spawn n)) (Session.new prompts maxRestarts) (.new script)) log s) :
    Reached behaves (fun n => some (spawn n)) prompts maxRestarts script s := by
  induction run with
  | nil => exact .refl
  | snoc _ step ih => exact ih.tail (move_of_step step)

/-- A move takes up something or nothing, or it delivers nothing and is no move at all. -/
theorem step_of_move (move : Move behaves (fun n => some (spawn n)) s t) :
    t = s ∨ ∃ cause, Step behaves spawn s cause t := by
  cases move with
  | worker linked moved => exact .inr ⟨_, .worker linked moved⟩
  | pause goes polled => exact .inr ⟨_, .pause goes polled⟩
  | event goes polled => exact .inr ⟨_, .event goes polled⟩
  | deliver goes =>
    rcases deliver_cases s with same | ⟨l, r, rest, linked, waiting⟩
    · exact .inl same
    · exact .inr ⟨_, .deliver goes linked waiting⟩
  | loss goes linked lost => exact .inr ⟨_, .loss goes linked lost⟩

/-- Every session that is reached by moves has a history. -/
theorem run_of_reached {prompts : Prompts} {maxRestarts : Nat} {script : List ScriptStep}
    (reached : Reached behaves (fun n => some (spawn n)) prompts maxRestarts script s) :
    ∃ log, Run behaves spawn
      (start (fun n => some (spawn n)) (Session.new prompts maxRestarts) (.new script)) log s := by
  induction reached with
  | refl => exact ⟨[], .nil⟩
  | tail _ move ih =>
    obtain ⟨log, run⟩ := ih
    rcases step_of_move move with rfl | ⟨cause, step⟩
    · exact ⟨log, run⟩
    · exact ⟨_, run.snoc step⟩

/-- A turn of the loop comes to what the session makes of its cause. -/
theorem step_facts (usable : s.terminal.disposed = false) {c : Cause}
    (step : Step behaves spawn s (some c) t) :
    s.ending = none ∧ t.session = (s.session.reaction c).session ∧
      t.ending = (s.session.reaction c).ending := by
  cases step with
  | @event e terminal goes polled =>
    have step := s.terminal.polled
    rw [polled] at step
    exact ⟨goes, react_facts (s := { s with terminal })
      ((ScriptedTerminal.poll_keeps step).2.trans usable) (s.session.onTerminal e)⟩
  | @deliver l r rest goes linked waiting =>
    refine ⟨goes, ?_⟩
    rw [deliver_of_waiting linked waiting]
    apply react_facts
    exact usable
  | loss goes =>
    rw [noticeLoss_eq]
    refine ⟨goes, ?_⟩
    apply react_facts
    exact usable

/-- A line comes while one is awaited. -/
theorem awaiting_of_step (poised : s.session.Poised s.terminal) {line : InputLine}
    (step : Step behaves spawn s (some (.event (.line line))) t) :
    s.session.bridge.isEvaluating = false := by
  cases step with
  | event _ polled =>
    have step := s.terminal.polled
    rw [polled] at step
    have armed := ScriptedTerminal.armed_of_line step
    rw [poised.armed] at armed
    rwa [Bool.not_eq_true'] at armed

/-! ## Counting losses -/

/-- The turn took up the loss of a worker. -/
def Round.isLoss (r : Round) : Bool :=
  r.cause = .loss

/-- How many losses a history has. -/
def losses (log : List Round) : Nat :=
  log.countP Round.isLoss

theorem losses_snoc (log : List Round) (c : Cause) (r : Reaction) :
    losses (log ++ [⟨c, r⟩]) = losses log + (if c = .loss then 1 else 0) := by
  rw [losses, List.countP_append, List.countP_singleton]
  simp [Round.isLoss, losses]

/-- What a history says of losses and of the end, with so many workers that may be replaced. -/
structure Tally (maxRestarts : Nat) (log : List Round) (s : LiveSession ScriptedTerminal σ) :
    Prop where
  counted : s.session.losses = losses log
  limit : s.session.maxRestarts = maxRestarts
  going : s.ending = none → losses log ≤ maxRestarts
  ended : ∀ ending, s.ending = some ending →
    (ending = .workerLost (maxRestarts + 1) ∧ losses log = maxRestarts + 1) ∨
      (ending = .left ∧ losses log ≤ maxRestarts ∧
        ∃ before last, log = before ++ [last] ∧ last.cause.Leaves)

theorem tally_start (spawn : Nat → σ) (prompts : Prompts) (maxRestarts : Nat)
    (script : List ScriptStep) :
    Tally maxRestarts []
      (start (fun n => some (spawn n)) (Session.new prompts maxRestarts) (.new script)) := by
  refine ⟨rfl, rfl, fun _ => Nat.zero_le _, fun ending ended => ?_⟩
  cases ended

/-- A turn of the loop keeps the tally. -/
theorem tally_turn {maxRestarts : Nat} (tally : Tally maxRestarts log s)
    (poised : s.session.Poised s.terminal) {c : Cause} (step : Step behaves spawn s (some c) t) :
    Tally maxRestarts (log ++ [⟨c, s.session.reaction c⟩]) t := by
  obtain ⟨goes, session, ending⟩ := step_facts poised.usable step
  obtain ⟨counted, limit⟩ := s.session.reaction_counts c
  have room := tally.going goes
  have ends := Session.ending_of_reaction poised
    (c := c) fun line same => awaiting_of_step poised (same ▸ step)
  rw [tally.counted, tally.limit] at ends
  refine ⟨?_, ?_, ?_, ?_⟩
  · rw [session, counted, losses_snoc, tally.counted]
  · rw [session, limit, tally.limit]
  · intro going
    rw [losses_snoc]
    rw [ending] at going
    rcases ends with ⟨rfl, end_eq⟩ | ⟨other, -⟩
    · rw [going] at end_eq
      split at end_eq
      · rw [if_pos rfl]
        omega
      · cases end_eq
    · rw [if_neg other]
      exact room
  · intro last ended
    rw [ending] at ended
    rw [losses_snoc]
    rcases ends with ⟨rfl, end_eq⟩ | ⟨other, none | ⟨left, leaves⟩⟩
    · rw [ended] at end_eq
      split at end_eq
      · cases end_eq
      · -- No worker may be started any more, so as many were lost as may be replaced.
        have full : losses log = maxRestarts := by omega
        cases end_eq
        rw [if_pos rfl, full]
        exact .inl ⟨rfl, rfl⟩
    · rw [ended] at none
      cases none
    · rw [ended] at left
      cases left
      rw [if_neg other]
      exact .inr ⟨rfl, room, _, _, rfl, leaves⟩

theorem tally_run {prompts : Prompts} {maxRestarts : Nat} {script : List ScriptStep}
    (run : Run behaves spawn
      (start (fun n => some (spawn n)) (Session.new prompts maxRestarts) (.new script)) log s) :
    Tally maxRestarts log s := by
  induction run with
  | nil => exact tally_start spawn prompts maxRestarts script
  | @snoc log s t cause run step ih =>
    cases cause with
    | none =>
      -- The history stays where nothing is taken up.
      rw [Option.map_none, Option.toList_none, List.append_nil]
      cases step with
      | worker => exact ⟨ih.counted, ih.limit, ih.going, ih.ended⟩
      | pause => exact ⟨ih.counted, ih.limit, ih.going, ih.ended⟩
    | some c =>
      have poised := (sound_reached (reached_of_run run)).1 (by cases step <;> assumption)
      exact tally_turn ih poised step

/-! ## From a loss on -/

/-- What the rounds ask for, each effect with the bridge behind its round. -/
def acts (log : List Round) : List (Bridge × Effect) :=
  log.flatMap fun r => Session.acts r.reaction

/-- From each loss of a history on, the session recovers; a loss that ends it leaves nothing to
ask for. -/
def Recovering (log : List Round) (s : LiveSession ScriptedTerminal σ) : Prop :=
  ∀ before loss after, log = before ++ loss :: after → loss.cause = .loss →
    Session.Recovers (acts (loss :: after)) s.session ∨
      (acts (loss :: after) = [] ∧ s.ending ≠ none)

theorem recovering_turn (recovering : Recovering log s) (poised : s.session.Poised s.terminal)
    {c : Cause} (step : Step behaves spawn s (some c) t) :
    Recovering (log ++ [⟨c, s.session.reaction c⟩]) t := by
  obtain ⟨goes, session, ending⟩ := step_facts poised.usable step
  intro before loss after split lost
  rcases List.eq_nil_or_concat after with rfl | ⟨earlier, last, rfl⟩
  · -- The turn is the loss itself.
    obtain ⟨rfl, same⟩ := List.append_inj' split rfl
    cases same
    cases lost
    have all : acts [⟨.loss, s.session.reaction .loss⟩] =
        [] ++ Session.acts (s.session.reaction .loss) := by
      simp [acts]
    rw [all, session, ending]
    rcases s.session.onLoss_cases with tells | ⟨none, untold | ends⟩
    · exact .inl (Session.recovers_of_tells tells nofun)
    · have empty : Session.acts (s.session.reaction .loss) = [] := congrArg _ none
      rw [empty]
      exact .inl (.untold untold nofun)
    · have empty : Session.acts (s.session.reaction .loss) = [] := congrArg _ none
      exact .inr ⟨empty, ends⟩
  · rw [List.concat_eq_append, ← List.cons_append, ← List.append_assoc] at split
    obtain ⟨rfl, same⟩ := List.append_inj' split rfl
    cases same
    have all : acts (loss :: (earlier ++ [⟨c, s.session.reaction c⟩])) =
        acts (loss :: earlier) ++ Session.acts (s.session.reaction c) := by
      simp [acts]
    -- The loss lies further back, and the session has gone on since.
    rcases recovering before loss earlier rfl lost with recovers | ⟨-, ended⟩
    · rw [List.concat_eq_append, all, session]
      exact .inl (Session.recovers_reaction poised recovers c)
    · exact absurd goes ended

theorem recovering_run {prompts : Prompts} {maxRestarts : Nat} {script : List ScriptStep}
    (run : Run behaves spawn
      (start (fun n => some (spawn n)) (Session.new prompts maxRestarts) (.new script)) log s) :
    Recovering log s := by
  induction run with
  | nil =>
    intro before loss after split
    cases before <;> cases split
  | @snoc log s t cause run step ih =>
    cases cause with
    | none =>
      rw [Option.map_none, Option.toList_none, List.append_nil]
      cases step with
      | worker => exact ih
      | pause => exact ih
    | some c =>
      have poised := (sound_reached (reached_of_run run)).1 (by cases step <;> assumption)
      exact recovering_turn ih poised step

/-- Along every run in which each lost worker can be replaced, whatever the workers do and whenever
they are lost. The run ends with the loss of too many workers exactly at the loss behind the last
that may be replaced, and no earlier; otherwise it ends only when the user leaves. From any loss on,
the first command that is sent is a reset of the bridge's generation at that time, at the first line
that is sent the bridge holds no other, and the loss is told before any line is sent. -/
theorem losses_are_contained (behaves : Link σ → Link σ → Prop) (spawn : Nat → σ)
    (prompts : Prompts) (maxRestarts : Nat) (script : List ScriptStep) (log : List Round)
    (s : LiveSession ScriptedTerminal σ)
    (run : Run behaves spawn
      (start (fun n => some (spawn n)) (Session.new prompts maxRestarts) (.new script)) log s) :
    losses log ≤ maxRestarts + 1 ∧
      (∀ n, s.ending = some (.workerLost n) ↔
        n = maxRestarts + 1 ∧ losses log = maxRestarts + 1) ∧
      (∀ ending, s.ending = some ending → ending = .workerLost (maxRestarts + 1) ∨
        (ending = .left ∧ ∃ before last, log = before ++ [last] ∧ last.cause.Leaves)) ∧
      ∀ before loss after, log = before ++ loss :: after → loss.cause = .loss →
        (∀ b e, (acts (loss :: after)).find? (fun a => a.2.command?.isSome) = some (b, e) →
          e = .reset b.generation) ∧
        (∀ b e, (acts (loss :: after)).find? (fun a => a.2.isDispatch) = some (b, e) →
          b.pendingLines = 1) ∧
        ∀ earlier b g line later,
          acts (loss :: after) = earlier ++ (b, .dispatch g line) :: later →
          ∃ told, (told, .write (lostMessage exitReason)) ∈ earlier := by
  have tally := tally_run run
  refine ⟨?_, fun n => ⟨fun ended => ?_, ?_⟩, fun ending ended => ?_, ?_⟩
  · cases ended : s.ending with
    | none => exact Nat.le_succ_of_le (tally.going ended)
    | some ending =>
      rcases tally.ended ending ended with ⟨-, full⟩ | ⟨-, few, -⟩
      · exact Nat.le_of_eq full
      · exact Nat.le_succ_of_le few
  · rcases tally.ended _ ended with ⟨lost, full⟩ | ⟨left, -⟩
    · cases lost
      exact ⟨rfl, full⟩
    · cases left
  · rintro ⟨rfl, full⟩
    cases ended : s.ending with
    | none =>
      have few := tally.going ended
      omega
    | some ending =>
      rcases tally.ended ending ended with ⟨rfl, -⟩ | ⟨-, few, -⟩
      · rfl
      · omega
  · rcases tally.ended ending ended with ⟨lost, -⟩ | ⟨left, -, leaves⟩
    · exact .inl lost
    · exact .inr ⟨left, leaves⟩
  · intro before loss after split lost
    rcases recovering_run run before loss after split lost with recovers | ⟨none, -⟩
    · exact ⟨fun b e => recovers.reset, fun b e => recovers.alone,
        fun earlier b g line later => recovers.notice⟩
    · rw [none]
      refine ⟨nofun, nofun, fun earlier b g line later split => ?_⟩
      cases earlier <;> cases split

/-- The worker is lost while the second line of an expression is being entered, and another may be
started. The line is dropped with the notice, and the next one is sent alone. -/
theorem losses_are_contained_between_lines :
    ∃ log s,
      Run (fun _ _ => True) (fun _ => ())
        (start (fun _ => some ()) (Session.new .standard 1)
          (.new [.line ⟨"(+ 1"⟩, .line ⟨"2)"⟩, .line ⟨"3"⟩])) log s ∧
      s.ending = none ∧ losses log ≤ 2 ∧ ∃ before loss after, log = before ++ loss :: after ∧
        loss.cause = .loss ∧ ∃ b c,
          (acts (loss :: after)).find? (fun a => a.2.command?.isSome) = some (b, .reset 1) ∧
          b.generation = 1 ∧
          (acts (loss :: after)).find? (fun a => a.2.isDispatch) = some (c, .dispatch 1 "3") ∧
          c.pendingLines = 1 := by
  have sent := (@Run.nil Unit (fun _ _ => True) (fun _ => ())
    (start (fun _ => some ()) (Session.new .standard 1)
      (.new [.line ⟨"(+ 1"⟩, .line ⟨"2)"⟩, .line ⟨"3"⟩]))).snoc (.event rfl rfl)
  have answered := sent.snoc (.worker (m := ⟨[], none, [.incomplete 0 1]⟩) rfl trivial)
  have asked := answered.snoc (.deliver rfl rfl rfl)
  have lost := asked.snoc (.loss rfl rfl rfl)
  have told := lost.snoc (.event rfl rfl)
  have alone := told.snoc (.event rfl rfl)
  obtain ⟨few, -, -, contained⟩ := losses_are_contained _ _ _ _ _ _ _ alone
  obtain ⟨reset, first, -⟩ := contained [_, _] _ [_, _] rfl rfl
  refine ⟨_, _, alone, rfl, few, [_, _], _, [_, _], rfl, rfl, _, _, rfl, ?_, rfl, first _ _ rfl⟩
  exact (Effect.reset.inj (reset _ _ rfl)).symm

end LiveSession

end LispRepl

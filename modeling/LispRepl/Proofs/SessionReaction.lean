import LispRepl.Proofs.ArmedPrompt

/-!
# What a session makes of what it is told

The reactions of a session to an event of its terminal and to the loss of its worker are listed
once, with what each needs, so that a fact about all of them is a case analysis of these lists.
Carrying out a reaction changes the session as the reaction says, shows its effects to the terminal,
and puts the commands among them on the queue of the worker, as long as there is one.

- `Session.Answer`, `Session.answer_onTerminal`: the reactions to an event of the terminal.
- `Session.LossAnswer`, `Session.lossAnswer_onLoss`: the reactions to a loss.
- `ScriptedTerminal.script_seeAll`, `ScriptedTerminal.script_of_event`: what is left of a script.
- `Link.sendAll`, `LiveSession.performAll_link`: the commands among the effects.
- `LiveSession.react_facts`, `LiveSession.react_carried`: a live session behind a reaction.
- `LiveSession.deliver_of_waiting`, `LiveSession.noticeLoss_eq`: a delivery and a loss as reactions.
-/

set_option autoImplicit false

namespace LispRepl

/-! ## Reactions -/

namespace Session

variable {s : Session} {e : BridgeEvent}

theorem feed_of_ok {next : Bridge} {effects : List Effect}
    (h : s.bridge.step e = .ok (next, effects)) :
    s.feed e = ⟨{ s with bridge := next }, effects, none⟩ := by
  rw [feed, h]

theorem feed_of_error {error : BridgeError} (h : s.bridge.step e = .error error) :
    s.feed e = ⟨s, [], some (.bridgeFailed error)⟩ := by
  rw [feed, h]

/-- A session does not leave because of what the bridge makes of an event. -/
theorem feed_ending_ne_left (s : Session) (e : BridgeEvent) : (s.feed e).ending ≠ some .left := by
  intro left
  cases step : s.bridge.step e with
  | error error =>
    rw [feed_of_error step] at left
    cases left
  | ok result =>
    rw [feed_of_ok step] at left
    cases left

/-- An event leads to one command at most. -/
theorem length_commands_feed (s : Session) (e : BridgeEvent) :
    ((s.feed e).effects.filterMap Effect.command?).length ≤ 1 := by
  cases step : s.bridge.step e with
  | error error =>
    rw [feed_of_error step]
    exact Nat.zero_le 1
  | ok result =>
    rw [feed_of_ok step]
    rcases Bridge.commands_of_step step with ⟨none, -⟩ | ⟨line, one, -⟩ | ⟨one, -⟩
    · exact none ▸ Nat.zero_le 1
    · exact one ▸ Nat.le_refl 1
    · exact one ▸ Nat.le_refl 1

/-- The reactions to an event of the terminal, each with what leads to it. -/
inductive Answer (s : Session) : TerminalEvent → Reaction → Prop where
  | closed : Answer s .closed ⟨s, [], some .left⟩
  /-- A loss was left untold, and what ends the read is dropped. -/
  | tell {e : TerminalEvent} {reason : String} : e ≠ .closed → s.untold = some reason →
    Answer s e (s.tell reason)
  | exit {line : InputLine} : s.untold = none → s.bridge.isIdle = true →
    MetaCommand.ofLine? line.text = some .exit → Answer s (.line line) ⟨s, [], some .left⟩
  | clear {line : InputLine} : s.untold = none → s.bridge.isIdle = true →
    MetaCommand.ofLine? line.text = some .clear →
    Answer s (.line line) (s.feed (.interrupt "clear"))
  | output {line : InputLine} {lines : List String} : s.untold = none → s.bridge.isIdle = true →
    MetaCommand.ofLine? line.text = some (.output lines) →
    Answer s (.line line) ⟨s, lines.map Effect.write ++ [.read s.bridge.prompt], none⟩
  /-- A line that is no command, or comes while an expression is entered. -/
  | line {line : InputLine} : s.untold = none →
    (s.bridge.isIdle = true → MetaCommand.ofLine? line.text = none) →
    Answer s (.line line) (s.feed (.line line))
  | interrupt {signal : String} : s.untold = none →
    Answer s (.interrupt signal) (s.feed (.interrupt signal))

theorem answer_onLine (untold : s.untold = none) (line : InputLine) :
    Answer s (.line line) (s.onLine line) := by
  rw [onLine]
  cases idle : s.bridge.isIdle with
  | false => exact .line untold fun begun => by rw [idle] at begun; cases begun
  | true =>
    cases found : MetaCommand.ofLine? line.text with
    | none => exact .line untold fun _ => found
    | some command =>
      cases command with
      | exit => exact .exit untold idle found
      | clear => exact .clear untold idle found
      | output lines => exact .output untold idle found

/-- Every reaction to an event of the terminal is one of the answers. -/
theorem answer_onTerminal (s : Session) (e : TerminalEvent) : Answer s e (s.onTerminal e) := by
  cases e with
  | closed => exact .closed
  | line line =>
    cases untold : s.untold with
    | some reason =>
      simp only [onTerminal, untold]
      exact .tell (fun same => by cases same) untold
    | none =>
      simp only [onTerminal, untold]
      exact answer_onLine untold line
  | interrupt signal =>
    cases untold : s.untold with
    | some reason =>
      simp only [onTerminal, untold]
      exact .tell (fun same => by cases same) untold
    | none =>
      simp only [onTerminal, untold]
      exact .interrupt untold

theorem length_commands_onTerminal (s : Session) (e : TerminalEvent) :
    ((s.onTerminal e).effects.filterMap Effect.command?).length ≤ 1 := by
  have answer := s.answer_onTerminal e
  generalize s.onTerminal e = r at answer ⊢
  cases answer with
  | closed => exact Nat.zero_le 1
  | tell => exact length_commands_feed { s with untold := none } _
  | exit => exact Nat.zero_le 1
  | clear => exact length_commands_feed s _
  | @output _ lines =>
    rw [Effect.commands_shown]
    exact Nat.zero_le 1
  | line => exact length_commands_feed s _
  | interrupt => exact length_commands_feed s _

/-- The reactions to the loss of a worker, where `restarted` tells whether another could be
started. -/
inductive LossAnswer (s : Session) (restarted : Bool) : Reaction → Prop where
  | exhausted : s.maxRestarts ≤ s.losses →
    LossAnswer s restarted ⟨s.countLoss, [], some (.workerLost (s.losses + 1))⟩
  | failed : s.losses < s.maxRestarts → restarted = false →
    LossAnswer s restarted ⟨s.countLoss, [], some .workerFailed⟩
  | told : s.losses < s.maxRestarts → restarted = true →
    LossAnswer s restarted (s.countLoss.feed (.lost exitReason))
  /-- A continuation line is being entered. -/
  | held : s.losses < s.maxRestarts → restarted = true → s.bridge.isEvaluating = false →
    s.bridge.pending ≠ "" →
    LossAnswer s restarted ⟨{ s.countLoss with untold := some exitReason }, [], none⟩

theorem lossAnswer_onLoss (s : Session) (restarted : Bool) :
    LossAnswer s restarted (s.onLoss restarted) := by
  rw [onLoss, mayRestart]
  by_cases may : s.losses < s.maxRestarts
  · rw [decide_eq_true may]
    cases restarted with
    | false => exact .failed may rfl
    | true =>
      cases evaluating : s.bridge.isEvaluating with
      | true =>
        have told : s.countLoss.onReplaced = s.countLoss.feed (.lost exitReason) := by
          rw [onReplaced, show s.countLoss.bridge.isEvaluating = true from evaluating]
          rfl
        exact told ▸ .told may rfl
      | false =>
        -- No answer is awaited, so that it depends on whether an expression has begun.
        by_cases begun : s.bridge.pending = ""
        · have idle : s.countLoss.bridge.isIdle = true := by
            rw [Bridge.isIdle, show s.countLoss.bridge.isEvaluating = false from evaluating,
              show s.countLoss.bridge.pending = "" from begun]
            rfl
          have told : s.countLoss.onReplaced = s.countLoss.feed (.lost exitReason) := by
            rw [onReplaced, idle, Bool.or_true]
            rfl
          exact told ▸ .told may rfl
        · have busy : s.countLoss.bridge.isIdle = false := by
            rw [Bridge.isIdle,
              beq_eq_false_iff_ne.2 (show s.countLoss.bridge.pending ≠ "" from begun),
              Bool.and_false]
          have held : s.countLoss.onReplaced =
              ⟨{ s.countLoss with untold := some exitReason }, [], none⟩ := by
            rw [onReplaced, show s.countLoss.bridge.isEvaluating = false from evaluating, busy]
            rfl
          exact held ▸ .held may rfl evaluating begun
  · rw [decide_eq_false may]
    exact .exhausted (Nat.le_of_not_lt may)

end Session

/-! ## Scripts -/

namespace ScriptedTerminal

/-- Effects take nothing from the script. -/
theorem script_see (t : ScriptedTerminal) (e : Effect) : (t.see e).script = t.script := by
  cases e with
  | read prompt =>
    rw [see, arm]
    split <;> rfl
  | _ => rfl

theorem script_seeAll (effects : List Effect) (t : ScriptedTerminal) :
    (t.seeAll effects).script = t.script := by
  induction effects generalizing t with
  | nil => rfl
  | cons e effects ih => exact (ih (t.see e)).trans (t.script_see e)

variable {t next : ScriptedTerminal}

/-- Every event but the last is a step of the script. -/
theorem script_of_event {e : TerminalEvent} (step : Polled t (some e) next) (more : e ≠ .closed) :
    next.script.length + 1 = t.script.length := by
  cases step with
  | interrupt script => rw [script]; rfl
  | line script => rw [script]; rfl
  | closed => exact absurd rfl more

theorem script_of_pause (step : Polled t none next) :
    next.script.length ≤ t.script.length := by
  cases step with
  | pause script =>
    rw [script]
    exact Nat.le_succ _
  | idle => exact Nat.le_refl _

end ScriptedTerminal

/-! ## Commands -/

namespace Link

variable {σ : Type}

/-- Sends commands in order. -/
def sendAll (l : Link σ) (cs : List Command) : Link σ :=
  cs.foldl send l

/-- A worker that has not stopped gets the commands behind those it has. -/
theorem sendAll_of_live {l : Link σ} {service : σ} (live : l.service = some service)
    (cs : List Command) : l.sendAll cs = { l with commands := l.commands ++ cs } := by
  induction cs generalizing l with
  | nil => simp [sendAll]
  | cons c cs ih =>
    have sent : l.send c = { l with commands := l.commands ++ [c] } := by rw [send, live]
    have rest := ih (l := { l with commands := l.commands ++ [c] }) live
    change (l.send c).sendAll cs = _
    rw [sent, rest, List.append_assoc]
    rfl

/-- Commands for a worker that has stopped are lost. -/
theorem sendAll_of_stopped {l : Link σ} (stopped : l.service = none) (cs : List Command) :
    l.sendAll cs = l := by
  induction cs with
  | nil => rfl
  | cons c cs ih =>
    have lost : l.send c = l := by rw [send, stopped]
    change (l.send c).sendAll cs = l
    rw [lost, ih]

/-- Commands neither start nor stop a worker. -/
theorem service_sendAll (l : Link σ) (cs : List Command) : (l.sendAll cs).service = l.service := by
  cases known : l.service with
  | none =>
    rw [sendAll_of_stopped known, known]
  | some service =>
    rw [sendAll_of_live known]
    exact known

end Link

namespace LiveSession

variable {σ : Type} {s : LiveSession ScriptedTerminal σ}

/-- Carrying out effects puts the commands among them on the queue of the worker, and starts no
other. -/
theorem performAll_link (effects : List Effect) (goes : s.ending = none)
    (usable : s.terminal.disposed = false) :
    (s.performAll effects).link =
        s.link.map (fun l => l.sendAll (effects.filterMap Effect.command?)) ∧
      (s.performAll effects).spawned = s.spawned := by
  induction effects generalizing s with
  | nil =>
    refine ⟨?_, rfl⟩
    change s.link = s.link.map id
    rw [Option.map_id]
    rfl
  | cons e effects ih =>
    obtain ⟨-, terminal, ending⟩ := performAll_eq [e] goes usable
    have one : s.performAll [e] = s.perform e := by
      rw [performAll, goes]
      rfl
    have all : s.performAll (e :: effects) = (s.perform e).performAll effects := by
      rw [performAll, goes]
      rfl
    rw [one] at terminal ending
    have still : (s.perform e).terminal.disposed = false := by
      rw [terminal, ScriptedTerminal.disposed_seeAll, usable]
    obtain ⟨link, spawned⟩ := ih ending still
    rw [all, link, spawned]
    cases e with
    | dispatch g line =>
      refine ⟨?_, rfl⟩
      change (s.link.map _).map _ = _
      rw [Option.map_map]
      rfl
    | reset g =>
      refine ⟨?_, rfl⟩
      change (s.link.map _).map _ = _
      rw [Option.map_map]
      rfl
    | write text => exact ⟨rfl, rfl⟩
    | read prompt =>
      -- Asking for a line can fail in general, and does not on a terminal that is in use.
      have armed : Terminal.readLine s.terminal prompt = .ok (s.terminal.arm prompt) :=
        ScriptedTerminal.readLine_eq usable prompt
      rw [perform, armed]
      exact ⟨rfl, rfl⟩

/-- A reaction that ends the session asks for nothing any more. -/
theorem react_over {τ : Type} [Terminal τ] {s : LiveSession τ σ} {r : Reaction} {ending : Ending}
    (ends : r.ending = some ending) :
    s.react r = { s with session := r.session, ending := some ending } := by
  rw [react, ends]
  cases r.effects <;> rfl

/-- Carrying out effects leaves what the session knows as it is, whatever the terminal says. -/
theorem session_performAll {τ : Type} [Terminal τ] (effects : List Effect) (s : LiveSession τ σ) :
    (s.performAll effects).session = s.session := by
  induction effects generalizing s with
  | nil => rfl
  | cons e effects ih =>
    have one : (s.perform e).session = s.session := by
      cases e with
      | dispatch g line => rfl
      | reset g => rfl
      | write text =>
        rw [perform]
        split <;> rfl
      | read prompt =>
        rw [perform]
        split <;> rfl
    rw [performAll]
    split
    · rfl
    · exact (ih (s.perform e)).trans one

theorem session_react {τ : Type} [Terminal τ] (s : LiveSession τ σ) (r : Reaction) :
    (s.react r).session = r.session :=
  session_performAll r.effects { s with session := r.session, ending := r.ending }

/-- A session takes over what a reaction makes of it. -/
theorem react_facts (usable : s.terminal.disposed = false) (r : Reaction) :
    (s.react r).session = r.session ∧ (s.react r).ending = r.ending := by
  cases ends : r.ending with
  | none =>
    obtain ⟨session, -, going⟩ := performAll_eq r.effects
      (s := { s with session := r.session, ending := r.ending }) ends usable
    exact ⟨session, going⟩
  | some ending =>
    rw [react_over ends]
    exact ⟨rfl, rfl⟩

/-- A reaction that goes on shows its effects to the terminal and sends the commands among them. -/
theorem react_carried (usable : s.terminal.disposed = false) {r : Reaction}
    (goes : r.ending = none) :
    (s.react r).terminal = s.terminal.seeAll r.effects ∧
      (s.react r).link =
        s.link.map fun l => l.sendAll (r.effects.filterMap Effect.command?) := by
  obtain ⟨-, terminal, -⟩ := performAll_eq r.effects
    (s := { s with session := r.session, ending := r.ending }) goes usable
  have link := (performAll_link r.effects
    (s := { s with session := r.session, ending := r.ending }) goes usable).1
  exact ⟨terminal, link⟩

/-- A response that waits is delivered. -/
theorem deliver_of_waiting {τ : Type} [Terminal τ] {s : LiveSession τ σ} {l : Link σ}
    {r : Response} {rest : List Response} (linked : s.link = some l)
    (waiting : l.responses = r :: rest) :
    s.deliver =
      { s with link := some { l with responses := rest } }.react (s.session.onResponse r) := by
  rw [deliver, linked]
  simp only [waiting]

/-- Where no response waits, nothing is delivered. -/
theorem deliver_cases (s : LiveSession ScriptedTerminal σ) :
    s.deliver = s ∨ ∃ l r rest, s.link = some l ∧ l.responses = r :: rest := by
  cases linked : s.link with
  | none =>
    rw [deliver, linked]
    exact .inl rfl
  | some l =>
    cases waiting : l.responses with
    | nil =>
      rw [deliver, linked]
      simp only [waiting]
      exact .inl trivial
    | cons r rest => exact .inr ⟨l, r, rest, rfl, waiting⟩

/-- The loss of a worker is reacted to behind the attempt to start another, if there may be one. -/
theorem noticeLoss_eq {τ : Type} [Terminal τ] (spawn : Nat → Option σ) (s : LiveSession τ σ) :
    s.noticeLoss spawn =
      LiveSession.react
        { s with
          link := if s.session.mayRestart then (spawn s.spawned).map .new else none
          spawned := if s.session.mayRestart then s.spawned + 1 else s.spawned }
        (s.session.onLoss (spawn s.spawned).isSome) := by
  rw [noticeLoss]
  cases may : s.session.mayRestart with
  | true =>
    cases spawn s.spawned with
    | none => rfl
    | some service => rfl
  | false =>
    -- Whether another could be started does not matter where none may be.
    have same (restarted : Bool) : s.session.onLoss restarted =
        ⟨s.session.countLoss, [], some (.workerLost (s.session.losses + 1))⟩ := by
      rw [Session.onLoss, may]
      rfl
    simp only [same]
    rfl

/-- A reaction that asks for nothing changes the session and its ending alone. -/
theorem react_quiet {τ : Type} [Terminal τ] {s : LiveSession τ σ} {r : Reaction}
    (quiet : r.effects = []) :
    s.react r = { s with session := r.session, ending := r.ending } := by
  rw [react, quiet]
  rfl

end LiveSession

end LispRepl

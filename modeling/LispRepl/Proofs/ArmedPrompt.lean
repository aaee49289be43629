import LispRepl.Proofs.SessionRun

/-!
# The read on screen

Whenever the loop of a session comes round, a read is armed unless an evaluation is going on, and
the prompt on screen is the one the bridge stands for. Each reaction to an event therefore has to
arm exactly one read, or none where a request went out. The loss of a worker is where this could
fail: it is told at once where no continuation line is being entered, and the read that was armed
before then shows the right prompt because there is no input to give up.

- `Reaction.Settles`: a reaction that asks for a line last, or sends a request.
- `Session.settles_feed`, `Session.settles_onTerminal`: the reactions of a session settle.
- `Session.Poised`, `LiveSession.sound_move`: what holds at the head of the loop, and that every
  move keeps it or ends the session for a reason other than a busy bridge.
- `LiveSession.read_armed_with_prompt`: it holds along every run.
-/

set_option autoImplicit false

namespace LispRepl

/-- The reaction goes on, owes no word of a loss, and asks for one line, last, unless an evaluation
is going on. -/
structure Reaction.Settles (r : Reaction) : Prop where
  goes : r.ending = none
  told : r.session.untold = none
  tidy : r.session.bridge.Tidy
  reads : (r.session.bridge.isEvaluating = true ∧ ∀ e ∈ r.effects, e.isRead = false) ∨
    (r.session.bridge.isEvaluating = false ∧ r.session.bridge.AsksLast r.effects)

/-! ## Reactions -/

namespace Session

variable {s : Session}

/-- What the bridge makes of an event settles, unless the event is a response it does not await. -/
theorem settles_feed {e : BridgeEvent} {next : Bridge} {effects : List Effect}
    (tidy : s.bridge.Tidy) (told : s.untold = none) (h : s.bridge.step e = .ok (next, effects))
    (awaited : ∀ r, e = .response r → s.bridge.isEvaluating = true) : (s.feed e).Settles := by
  have reaction : s.feed e = ⟨{ s with bridge := next }, effects, none⟩ := by rw [feed, h]
  rw [reaction]
  refine ⟨rfl, told, Bridge.tidy_step tidy h, ?_⟩
  rcases Bridge.reads_of_step h with ⟨same, nothing, r, response⟩ | reads
  · subst same nothing
    exact .inl ⟨awaited r response, fun e member => by cases member⟩
  · exact reads

theorem settles_interrupt (tidy : s.bridge.Tidy) (told : s.untold = none) (signal : String) :
    (s.feed (.interrupt signal)).Settles :=
  settles_feed tidy told rfl fun _ h => by cases h

theorem settles_lost (tidy : s.bridge.Tidy) (told : s.untold = none) (reason : String) :
    (s.feed (.lost reason)).Settles :=
  settles_feed tidy told rfl fun _ h => by cases h

theorem settles_response (tidy : s.bridge.Tidy) (told : s.untold = none)
    (evaluating : s.bridge.isEvaluating = true) (r : Response) : (s.onResponse r).Settles :=
  settles_feed tidy told rfl fun _ _ => evaluating

theorem settles_line (tidy : s.bridge.Tidy) (told : s.untold = none)
    (awaiting : s.bridge.isEvaluating = false) (line : InputLine) :
    (s.feed (.line line)).Settles := by
  cases step : s.bridge.step (.line line) with
  | error error =>
    have busy := (Bridge.step_error step).1
    rw [awaiting] at busy
    cases busy
  | ok result => exact settles_feed tidy told step fun _ h => by cases h

/-- A meta command leaves the session, or settles. -/
theorem onCommand_cases (tidy : s.bridge.Tidy) (told : s.untold = none)
    (awaiting : s.bridge.isEvaluating = false) (c : MetaCommand) :
    (s.onCommand c).ending = some .left ∨ (s.onCommand c).Settles := by
  cases c with
  | exit => exact .inl rfl
  | clear => exact .inr (settles_interrupt tidy told "clear")
  | output lines =>
    refine .inr ⟨rfl, told, tidy, .inr ⟨awaiting, lines.map Effect.write, rfl, ?_⟩⟩
    intro e member
    obtain ⟨line, -, rfl⟩ := List.mem_map.1 member
    rfl

theorem onLine_cases (tidy : s.bridge.Tidy) (told : s.untold = none)
    (awaiting : s.bridge.isEvaluating = false) (line : InputLine) :
    (s.onLine line).ending = some .left ∨ (s.onLine line).Settles := by
  rw [onLine]
  split
  · exact onCommand_cases tidy told awaiting _
  · exact .inr (settles_line tidy told awaiting line)

/-- An event of the terminal ends the session, or settles. A line must not come during an
evaluation. -/
theorem onTerminal_cases (tidy : s.bridge.Tidy) (e : TerminalEvent)
    (awaiting : ∀ line, e = .line line → s.bridge.isEvaluating = false) :
    (s.onTerminal e).ending = some .left ∨ (e ≠ .closed ∧ (s.onTerminal e).Settles) := by
  cases untold : s.untold with
  | some reason =>
    -- Whatever ends the read, the loss is told and the event itself is dropped.
    have settles : (s.tell reason).Settles :=
      settles_lost (s := { s with untold := none }) tidy rfl reason
    cases e with
    | closed => exact .inl rfl
    | line line =>
      simp only [onTerminal, untold]
      exact .inr ⟨(fun same => by cases same), settles⟩
    | interrupt signal =>
      simp only [onTerminal, untold]
      exact .inr ⟨(fun same => by cases same), settles⟩
  | none =>
    cases e with
    | closed => exact .inl rfl
    | line line =>
      simp only [onTerminal, untold]
      exact (onLine_cases tidy untold (awaiting line rfl) line).imp_right fun settles =>
        ⟨(fun same => by cases same), settles⟩
    | interrupt signal =>
      simp only [onTerminal, untold]
      exact .inr ⟨(fun same => by cases same), settles_interrupt tidy untold signal⟩

/-! ## The head of the loop -/

/-- What holds at the head of the loop: a read is armed unless an evaluation is going on, with the
prompt of the bridge, and a loss waits to be told only while a continuation line is entered. -/
structure Poised (s : Session) (t : ScriptedTerminal) : Prop where
  usable : t.disposed = false
  armed : t.armed = !s.bridge.isEvaluating
  asked : t.armed = true → t.prompts.getLast? = some s.bridge.prompt
  tidy : s.bridge.Tidy
  held : s.untold ≠ none → s.bridge.isEvaluating = false ∧ s.bridge.pending ≠ ""

variable {t : ScriptedTerminal}

theorem Poised.told (poised : s.Poised t) (evaluating : s.bridge.isEvaluating = true) :
    s.untold = none := by
  by_cases untold : s.untold = none
  · exact untold
  · have awaiting := (poised.held untold).1
    rw [evaluating] at awaiting
    cases awaiting

theorem Poised.unarmed (poised : s.Poised t) (evaluating : s.bridge.isEvaluating = true) :
    t.armed = false := by
  rw [poised.armed, evaluating]
  rfl

/-- A terminal without a read is poised once it has seen the effects of a reaction that settles. -/
theorem poised_of_settles {r : Reaction} (usable : t.disposed = false) (unarmed : t.armed = false)
    (settles : r.Settles) : r.session.Poised (t.seeAll r.effects) := by
  have still : (t.seeAll r.effects).disposed = false :=
    (t.disposed_seeAll r.effects).trans usable
  have held : r.session.untold ≠ none →
      r.session.bridge.isEvaluating = false ∧ r.session.bridge.pending ≠ "" :=
    fun untold => absurd settles.told untold
  rcases settles.reads with ⟨evaluating, quiet⟩ | ⟨awaiting, others, effects, quiet⟩
  · obtain ⟨armed, prompts⟩ := t.seeAll_of_quiet quiet
    refine ⟨still, ?_, fun asked => ?_, settles.tidy, held⟩
    · rw [armed, unarmed, evaluating]
      rfl
    · rw [armed, unarmed] at asked
      cases asked
  · -- The effects end in a read, and none before it arms one.
    obtain ⟨armed, prompts⟩ :=
      ScriptedTerminal.seeAll_of_unarmed unarmed quiet r.session.bridge.prompt
    rw [← effects] at armed prompts
    refine ⟨still, ?_, fun _ => ?_, settles.tidy, held⟩
    · rw [armed, awaiting]
      rfl
    · rw [prompts, List.getLast?_concat]

/-- The prompt of a bridge without input is the one it shows once it gives up its input. -/
theorem prompt_abandon {b : Bridge} (tidy : b.Tidy) (awaiting : b.isEvaluating = false)
    (empty : b.pending = "") : b.abandon.prompt = b.prompt := by
  have primary : b.awaitingMore = false := by
    cases more : b.awaitingMore with
    | false => rfl
    | true => exact absurd empty ((tidy.more awaiting).1 more)
  rw [Bridge.prompt, Bridge.prompt, primary]
  rfl

/-- A loss that is told while no expression is begun leaves the read as it is, which shows the
prompt of the bridge still. -/
theorem poised_lost (poised : s.Poised t) (awaiting : s.bridge.isEvaluating = false)
    (empty : s.bridge.pending = "") (reason : String) :
    (s.feed (.lost reason)).session.Poised (t.seeAll (s.feed (.lost reason)).effects) := by
  have armed : t.armed = true := by
    rw [poised.armed, awaiting]
    rfl
  have quiet : ∀ e ∈ [Effect.write (lostMessage reason), .reset s.bridge.abandon.generation],
      e.isRead = false := by simp [Effect.isRead]
  obtain ⟨kept, prompts⟩ :=
    ScriptedTerminal.seeAll_of_armed armed quiet s.bridge.abandon.prompt
  refine ⟨?_, kept, fun _ => ?_, Bridge.tidy_abandon s.bridge, fun untold => ?_⟩
  · exact (t.disposed_seeAll _).trans poised.usable
  · have shown := poised.asked armed
    rw [← prompt_abandon poised.tidy awaiting empty, ← prompts] at shown
    exact shown
  · exact absurd empty (poised.held untold).2

end Session

/-! ## Moves -/

namespace LiveSession

variable {σ : Type} {s : LiveSession ScriptedTerminal σ}

/-- Between two turns of the loop a session is poised, or it has ended without having given the
bridge a line during an evaluation. -/
def Sound (s : LiveSession ScriptedTerminal σ) : Prop :=
  (s.ending = none → s.session.Poised s.terminal) ∧ s.ending ≠ some (.bridgeFailed .busy)

theorem sound_of_poised (poised : s.session.Poised s.terminal) (goes : s.ending = none) :
    s.Sound := by
  refine ⟨fun _ => poised, fun busy => ?_⟩
  rw [goes] at busy
  cases busy

theorem sound_of_ended {ending : Ending} (ended : s.ending = some ending)
    (other : ending ≠ .bridgeFailed .busy) : s.Sound := by
  refine ⟨fun goes => ?_, fun busy => ?_⟩
  · rw [ended] at goes
    cases goes
  · rw [ended] at busy
    exact other (Option.some.inj busy)

theorem react_ended {τ : Type} [Terminal τ] {s : LiveSession τ σ} {r : Reaction} {ending : Ending}
    (ended : r.ending = some ending) : (s.react r).ending = some ending := by
  rw [react]
  cases r.effects with
  | nil => exact ended
  | cons e effects =>
    rw [performAll, ended]
    rfl

/-- A reaction keeps a session sound where its effects leave the terminal poised. -/
theorem sound_react {r : Reaction} (usable : s.terminal.disposed = false) (goes : r.ending = none)
    (poised : r.session.Poised (s.terminal.seeAll r.effects)) : (s.react r).Sound := by
  obtain ⟨session, terminal, still⟩ := performAll_eq r.effects
    (s := { s with session := r.session, ending := r.ending }) goes usable
  refine sound_of_poised (s := s.react r) ?_ still
  rw [react, session, terminal]
  exact poised

theorem sound_settles {r : Reaction} (usable : s.terminal.disposed = false)
    (unarmed : s.terminal.armed = false) (settles : r.Settles) : (s.react r).Sound :=
  sound_react usable settles.goes (Session.poised_of_settles usable unarmed settles)

theorem sound_start (spawn : Nat → Option σ) (prompts : Prompts) (maxRestarts : Nat)
    (script : List ScriptStep) :
    (start spawn (Session.new prompts maxRestarts) (.new script)).Sound := by
  rw [start]
  cases spawn 0 with
  | none => exact sound_of_ended rfl (by decide)
  | some service =>
    refine sound_of_poised ⟨rfl, rfl, fun _ => rfl, Bridge.tidy_new prompts, ?_⟩ rfl
    intro held
    exact absurd rfl held

theorem sound_event {e : TerminalEvent} {terminal : ScriptedTerminal}
    (poised : s.session.Poised s.terminal) (polled : s.terminal.poll = (some e, terminal)) :
    ({ s with terminal }.onEvent e).Sound := by
  have step := s.terminal.polled
  rw [polled] at step
  -- A line needs an armed read, and none is armed during an evaluation.
  have awaiting : ∀ line, e = .line line → s.session.bridge.isEvaluating = false := by
    intro line same
    subst same
    have armed := ScriptedTerminal.armed_of_line step
    rw [poised.armed] at armed
    rwa [Bool.not_eq_true'] at armed
  rcases Session.onTerminal_cases poised.tidy e awaiting with left | ⟨goes, settles⟩
  · exact sound_of_ended (react_ended left) (by decide)
  · have unarmed : terminal.armed = false :=
      ScriptedTerminal.poll_armed step fun same => goes (Option.some.inj same)
    have usable : terminal.disposed = false :=
      (ScriptedTerminal.poll_keeps step).2.trans poised.usable
    exact sound_settles (s := { s with terminal }) usable unarmed settles

theorem onResponse_of_awaiting {session : Session} (awaiting : session.bridge.isEvaluating = false)
    (r : Response) : session.onResponse r = ⟨session, [], none⟩ := by
  cases phase : session.bridge.phase with
  | awaiting =>
    have dropped : session.bridge.step (.response r) = .ok (session.bridge, []) :=
      congrArg Except.ok (Bridge.onResponse_of_awaiting phase r)
    rw [Session.onResponse, Session.feed, dropped]
  | evaluating g =>
    rw [Bridge.isEvaluating, phase] at awaiting
    cases awaiting

theorem sound_deliver (poised : s.session.Poised s.terminal) (goes : s.ending = none) :
    s.deliver.Sound := by
  have same := sound_of_poised poised goes
  rw [deliver]
  split
  · split
    · rename_i r rest _
      cases evaluating : s.session.bridge.isEvaluating with
      | false =>
        rw [onResponse_of_awaiting evaluating r]
        exact sound_of_poised poised rfl
      | true =>
        exact sound_settles poised.usable (poised.unarmed evaluating)
          (Session.settles_response poised.tidy (poised.told evaluating) evaluating r)
    · exact same
  · exact same

/-- The loss of a worker in whose place another was started. -/
theorem sound_replaced (poised : s.session.Poised s.terminal) :
    (s.react s.session.countLoss.onReplaced).Sound := by
  have counted : s.session.countLoss.Poised s.terminal :=
    ⟨poised.usable, poised.armed, poised.asked, poised.tidy, poised.held⟩
  rw [Session.onReplaced]
  cases evaluating : s.session.countLoss.bridge.isEvaluating with
  | true =>
    rw [Bool.true_or, if_pos rfl]
    exact sound_settles poised.usable (counted.unarmed evaluating)
      (Session.settles_lost counted.tidy (counted.told evaluating) exitReason)
  | false =>
    -- A read is armed; whether its prompt may stay depends on the input that is given up.
    by_cases empty : s.session.countLoss.bridge.pending = ""
    · have idle : s.session.countLoss.bridge.isIdle = true := by
        rw [Bridge.isIdle, evaluating, empty]
        rfl
      rw [idle, Bool.or_true, if_pos rfl]
      exact sound_react poised.usable rfl
        (Session.poised_lost counted evaluating empty exitReason)
    · -- A continuation line is being entered, so that the loss is left untold.
      have busy : s.session.countLoss.bridge.isIdle = false := by
        rw [Bridge.isIdle, evaluating, beq_eq_false_iff_ne.2 empty]
        rfl
      rw [busy, Bool.or_false, if_neg Bool.false_ne_true]
      exact sound_of_poised ⟨poised.usable, poised.armed, poised.asked, poised.tidy,
        fun _ => ⟨evaluating, empty⟩⟩ rfl

theorem sound_loss (spawn : Nat → Option σ) (poised : s.session.Poised s.terminal) :
    (s.noticeLoss spawn).Sound := by
  rw [noticeLoss]
  split
  · rename_i may
    split
    · rename_i service _
      have reaction : s.session.onLoss true = s.session.countLoss.onReplaced := by
        rw [Session.onLoss, may]
        rfl
      rw [reaction]
      exact sound_replaced
        (s := { s with link := some (.new service), spawned := s.spawned + 1 }) poised
    · have failed : (s.session.onLoss false).ending = some .workerFailed := by
        rw [Session.onLoss, may]
        rfl
      exact sound_of_ended (react_ended failed) (by decide)
  · rename_i mayNot
    rw [Bool.not_eq_true] at mayNot
    have lost : (s.session.onLoss false).ending = some (.workerLost (s.session.losses + 1)) := by
      rw [Session.onLoss, mayNot]
      rfl
    exact sound_of_ended (react_ended lost) fun same => by cases same

/-- Every move keeps a session sound, whatever the worker does. -/
theorem sound_move {behaves : Link σ → Link σ → Prop} {spawn : Nat → Option σ}
    {next : LiveSession ScriptedTerminal σ} (sound : s.Sound) (move : Move behaves spawn s next) :
    next.Sound := by
  cases move with
  | worker => exact sound
  | pause goes polled =>
    have poised := sound.1 goes
    have step := s.terminal.polled
    rw [polled] at step
    have armed := ScriptedTerminal.poll_armed step (fun same => by cases same)
    obtain ⟨prompts, disposed⟩ := ScriptedTerminal.poll_keeps step
    refine sound_of_poised ⟨disposed.trans poised.usable, armed.trans poised.armed, ?_,
      poised.tidy, poised.held⟩ goes
    intro asked
    exact (congrArg _ prompts).trans (poised.asked (armed.symm.trans asked))
  | event goes polled => exact sound_event (sound.1 goes) polled
  | deliver goes => exact sound_deliver (sound.1 goes) goes
  | loss goes => exact sound_loss spawn (sound.1 goes)

theorem sound_reached {behaves : Link σ → Link σ → Prop} {spawn : Nat → Option σ}
    {prompts : Prompts} {maxRestarts : Nat} {script : List ScriptStep}
    (run : Reached behaves spawn prompts maxRestarts script s) : s.Sound := by
  induction run with
  | refl => exact sound_start spawn prompts maxRestarts script
  | tail _ move ih => exact sound_move ih move

/-- Along every run, whatever the worker does: at the head of the loop an evaluation is going on
exactly when no read is armed, an armed read shows the prompt of the bridge, and a loss is left
untold only while a line is awaited with input pending. The bridge never refuses a line. -/
theorem read_armed_with_prompt (behaves : Link σ → Link σ → Prop) (spawn : Nat → Option σ)
    (prompts : Prompts) (maxRestarts : Nat) (script : List ScriptStep)
    (s : LiveSession ScriptedTerminal σ)
    (run : Reached behaves spawn prompts maxRestarts script s) :
    (s.ending = none →
      (s.session.bridge.isEvaluating = true ↔ s.terminal.armed = false) ∧
        (s.terminal.armed = true →
          s.terminal.prompts.getLast? = some s.session.bridge.prompt) ∧
        (s.session.untold ≠ none →
          s.session.bridge.isEvaluating = false ∧ s.session.bridge.pending ≠ "")) ∧
      s.ending ≠ some (.bridgeFailed .busy) := by
  obtain ⟨head, busy⟩ := sound_reached run
  refine ⟨fun goes => ?_, busy⟩
  have poised := head goes
  refine ⟨?_, poised.asked, poised.held⟩
  rw [poised.armed]
  cases s.session.bridge.isEvaluating <;> simp

/-- The case of a worker that finds the input incomplete and is then lost: the loss is left untold
under the continuation prompt. -/
theorem read_armed_with_prompt_after_loss :
    ∃ s : LiveSession ScriptedTerminal Unit,
      Reached (fun _ _ => True) (fun _ => some ()) .standard 1 [.line ⟨"(+ 1"⟩] s ∧
        s.ending = none ∧ s.session.untold = some exitReason ∧ s.terminal.armed = true ∧
        s.terminal.prompts.getLast? = some s.session.bridge.prompt ∧
        s.session.bridge.isEvaluating = false ∧ s.session.bridge.pending ≠ "" := by
  have begun : @Reached Unit (fun _ _ => True) (fun _ => some ()) .standard 1
    [.line ⟨"(+ 1"⟩] _ := .refl
  have sent := begun.tail (.event rfl rfl)
  have answered := sent.tail (.worker (m := ⟨[], none, [.incomplete 0 1]⟩) rfl trivial)
  have asked := answered.tail (.deliver rfl)
  have lost := asked.tail (.loss rfl rfl rfl)
  obtain ⟨-, shown, held⟩ := (read_armed_with_prompt _ _ _ _ _ _ lost).1 rfl
  exact ⟨_, lost, rfl, rfl, rfl, shown rfl, held (Option.some_ne_none exitReason)⟩

end LiveSession

end LispRepl

import LispRepl.Proofs.EditorQueues
import LispRepl.Proofs.WorkerLoss

/-!
# The end of the input

The editor of a line terminal reports the end of the input as an event and stops. Until a session
takes that event it waits for a line that will not come, and all that can happen to it is an
interrupt or the loss of its worker. It answers an interrupt without a line of output, and asks for
a line that it is waiting for anyway. The notice of a loss is a line of output. The queue takes it,
although nobody will show it, until the editor lets go of the queue; a loss that is told behind that
ends the session with the refusal of the terminal, whether it was noticed then or told then because
an interrupt ended the wait.

- `Session.Attended`: what holds at the head of the loop over a line terminal.
- `LiveSession.Comes`, `LiveSession.comes_of_step`: what a turn of the loop comes to.
- `LiveSession.LineStep`, `LiveSession.LineRun`: runs over a line terminal, with their turns.
- `LiveSession.Account`, `LiveSession.account_run`: how a run stands by its turns.
- `LiveSession.ahead_run`: events are taken in the order in which they came.
- `LiveSession.closed_input_ends_session`: the result.
-/

set_option autoImplicit false

namespace LispRepl

/-! ## The head of the loop -/

namespace Session

/-- What holds at the head of the loop over a line terminal: a read is outstanding unless an
evaluation is going on, and a loss is left untold only while one is. -/
structure Attended (s : Session) (t : LineTerminal) : Prop where
  orderly : t.Orderly
  reading : t.reading = !s.bridge.isEvaluating
  tidy : s.bridge.Tidy
  held : ∀ reason, s.untold = some reason →
    reason = exitReason ∧ s.bridge.isEvaluating = false

variable {s : Session} {t : LineTerminal}

theorem Attended.awaiting (attended : s.Attended t) (reading : t.reading = true) :
    s.bridge.isEvaluating = false := by
  have same := attended.reading
  rw [reading] at same
  cases evaluating : s.bridge.isEvaluating with
  | false => rfl
  | true =>
    rw [evaluating] at same
    cases same

theorem Attended.told (attended : s.Attended t) (evaluating : s.bridge.isEvaluating = true) :
    s.untold = none := by
  cases untold : s.untold with
  | none => rfl
  | some reason =>
    have awaiting := (attended.held reason untold).2
    rw [evaluating] at awaiting
    cases awaiting

/-- A terminal behind effects that ask for one line last unless an evaluation is going on then. -/
theorem attended_hearAll {r : Reaction} (orderly : t.Orderly)
    (reading : t.reading = true → r.session.bridge.isEvaluating = false)
    (tidy : r.session.bridge.Tidy)
    (reads : (r.session.bridge.isEvaluating = true ∧ ∀ e ∈ r.effects, e.isRead = false) ∨
      (r.session.bridge.isEvaluating = false ∧ r.session.bridge.AsksLast r.effects))
    (held : ∀ reason, r.session.untold = some reason →
      reason = exitReason ∧ r.session.bridge.isEvaluating = false) :
    r.session.Attended (t.hearAll r.effects) := by
  refine ⟨LineTerminal.orderly_hearAll r.effects orderly, ?_, tidy, held⟩
  rcases reads with ⟨evaluating, quiet⟩ | ⟨awaiting, others, asks, -⟩
  · rw [LineTerminal.reading_hearAll quiet, evaluating]
    cases read : t.reading with
    | false => rfl
    | true =>
      rw [reading read] at evaluating
      cases evaluating
  · rw [asks, LineTerminal.reading_of_asked, awaiting]
    rfl

theorem attended_of_settles {r : Reaction} (orderly : t.Orderly)
    (reading : t.reading = true → r.session.bridge.isEvaluating = false) (settles : r.Settles) :
    r.session.Attended (t.hearAll r.effects) := by
  refine attended_hearAll orderly reading settles.tidy settles.reads fun reason untold => ?_
  rw [settles.told] at untold
  cases untold

theorem interrupt_told (told : s.untold = none) (signal : String) :
    s.onTerminal (.interrupt signal) = s.feed (.interrupt signal) := by
  simp only [onTerminal, told]

theorem interrupt_untold {reason : String} (untold : s.untold = some reason) (signal : String) :
    s.onTerminal (.interrupt signal) = s.tell reason := by
  simp only [onTerminal, untold]

/-- Behind an interrupt a line is awaited. -/
theorem awaiting_of_interrupt (s : Session) (signal : String) :
    (s.onTerminal (.interrupt signal)).session.bridge.isEvaluating = false := by
  cases untold : s.untold with
  | none =>
    rw [interrupt_told untold]
    rfl
  | some reason =>
    rw [interrupt_untold untold]
    rfl

end Session

/-! ## What a turn comes to -/

namespace LiveSession

variable {σ : Type} {s t : LiveSession LineTerminal σ}

/-- A turn of the loop over a line terminal: a round, and whether the editor had let go of its queue
before. -/
structure Turn extends Round where
  refuses : Bool

/-- The turn tells a loss when the editor has let go of its queue. -/
def Turn.TellsLate (turn : Turn) : Prop :=
  turn.refuses = true ∧ .write (lostMessage exitReason) ∈ turn.reaction.effects

/-- The turn in which a session takes up something. -/
def turn (s : LiveSession LineTerminal σ) (c : Cause) : Turn :=
  ⟨⟨c, s.session.reaction c⟩, s.terminal.refuses⟩

/-- What a turn of a session leads to. -/
inductive Comes (s : LiveSession LineTerminal σ) (c : Cause) (t : LiveSession LineTerminal σ) :
    Prop where
  | going : ¬ (turn s c).TellsLate → t.ending = none → t.session.Attended t.terminal →
    Comes s c t
  | left : ¬ (turn s c).TellsLate → t.ending = some .left → Comes s c t
  | refused : (turn s c).TellsLate → t.ending = some (.terminalFailed .closed) → Comes s c t
  | lost : ¬ (turn s c).TellsLate → c = .loss → s.session.maxRestarts ≤ s.session.losses →
    t.ending = some (.workerLost (s.session.losses + 1)) → Comes s c t

/-- What a turn comes to, by how the session stands behind it. -/
theorem Comes.facts {c : Cause} (comes : Comes s c t) :
    (t.ending = none → t.session.Attended t.terminal) ∧
      (∀ ending, t.ending = some ending → ending = .left ∨ ending = .terminalFailed .closed ∨
        (c = .loss ∧ s.session.maxRestarts ≤ s.session.losses)) ∧
      (t.ending = some (.terminalFailed .closed) ↔ (turn s c).TellsLate) := by
  cases comes with
  | going timely going attended =>
    rw [going]
    exact ⟨fun _ => attended, nofun, nofun, fun late => absurd late timely⟩
  | left timely left =>
    rw [left]
    exact ⟨nofun, fun _ same => .inl (Option.some.inj same).symm, nofun,
      fun late => absurd late timely⟩
  | refused late refused =>
    rw [refused]
    exact ⟨nofun, fun _ same => .inr (.inl (Option.some.inj same).symm), fun _ => late,
      fun _ => rfl⟩
  | lost timely loss full lost =>
    rw [lost]
    exact ⟨nofun, fun _ _ => .inr (.inr ⟨loss, full⟩), nofun, fun late => absurd late timely⟩

theorem not_late_of_takes {c : Cause} (takes : s.terminal.refuses = false) :
    ¬ (turn s c).TellsLate := by
  intro late
  rw [show s.terminal.refuses = true from late.1] at takes
  cases takes

theorem not_late_of_silent {c : Cause}
    (silent : ∀ text, .write text ∉ (s.session.reaction c).effects) : ¬ (turn s c).TellsLate :=
  fun late => silent _ late.2

/-- A reaction that goes on while the queue takes commands, if only in vain. -/
theorem comes_of_heard {u : LiveSession LineTerminal σ} {c : Cause} {r : Reaction}
    (takes : s.terminal.refuses = false) (still : u.terminal.refuses = s.terminal.refuses)
    (unclosed : u.terminal.closed = false) (goes : r.ending = none)
    (attended : r.session.Attended (u.terminal.hearAll r.effects)) : Comes s c (u.react r) := by
  obtain ⟨terminal, going⟩ := react_heard (s := u) goes unclosed (still.trans takes)
  refine .going (not_late_of_takes takes) going ?_
  rw [session_react, terminal]
  exact attended

/-- A reaction that shows nothing while a line is awaited, whether the queue takes commands or
not. -/
theorem comes_of_silent {u : LiveSession LineTerminal σ} {c : Cause} {r : Reaction}
    (reaction : s.session.reaction c = r) (goes : r.ending = none)
    (silent : ∀ text, .write text ∉ r.effects)
    (awaiting : r.session.bridge.isEvaluating = false)
    (attended : r.session.Attended u.terminal) : Comes s c (u.react r) := by
  have reading : u.terminal.reading = true := by
    rw [attended.reading, awaiting]
    rfl
  obtain ⟨terminal, going⟩ := react_unheard goes attended.orderly.unclosed reading silent
  refine .going (not_late_of_silent ?_) going ?_
  · rw [reaction]
    exact silent
  · rw [session_react, terminal]
    exact attended

/-- A loss that is told when the editor has let go of its queue. -/
theorem comes_of_late {u : LiveSession LineTerminal σ} {c : Cause} {r : Reaction}
    (refuses : s.terminal.refuses = true) (still : u.terminal.refuses = s.terminal.refuses)
    (reaction : s.session.reaction c = r) (tells : Session.Tells r) (goes : r.ending = none) :
    Comes s c (u.react r) := by
  refine .refused ⟨refuses, ?_⟩ (react_refused goes (still.trans refuses) tells.effects)
  show _ ∈ (s.session.reaction c).effects
  rw [reaction, tells.effects]
  exact List.mem_cons_self

theorem comes_of_event_heard {e : TerminalEvent} {next : LineTerminal}
    (attended : s.session.Attended s.terminal) (taken : s.terminal.nextEvent = (some e, next))
    (more : e ≠ .closed) (takes : s.terminal.refuses = false) :
    Comes s (.event e) ({ s with terminal := next }.onEvent e) := by
  have reads := LineTerminal.reading_taken attended.orderly taken
  have awaiting : ∀ line, e = .line line → s.session.bridge.isEvaluating = false := by
    rintro line rfl
    rcases reads with ⟨reading, -⟩ | ⟨-, signal, interrupt⟩
    · exact attended.awaiting reading
    · cases interrupt
  rcases Session.onTerminal_cases attended.tidy e awaiting with left | ⟨-, settles⟩
  · exact .left (not_late_of_takes takes) (react_ended left)
  · have orderly := LineTerminal.orderly_taken attended.orderly taken more
    have still := LineTerminal.refuses_taken taken
    refine comes_of_heard takes still orderly.unclosed settles.goes ?_
    refine Session.attended_of_settles orderly (fun reading => ?_) settles
    -- Only an interrupt leaves a read outstanding.
    rcases reads with ⟨-, unread⟩ | ⟨-, signal, rfl⟩
    · rw [reading] at unread
      cases unread
    · exact s.session.awaiting_of_interrupt signal

/-- What comes before the report that the editor has stopped is an interrupt that ends no read. -/
theorem comes_of_event_unheard {e : TerminalEvent} {next : LineTerminal}
    (attended : s.session.Attended s.terminal) (taken : s.terminal.nextEvent = (some e, next))
    (more : e ≠ .closed) (refuses : s.terminal.refuses = true) :
    Comes s (.event e) ({ s with terminal := next }.onEvent e) := by
  have orderly := LineTerminal.orderly_taken attended.orderly taken more
  have still := LineTerminal.refuses_taken taken
  have reading : next.reading = true :=
    (orderly.alone_of_stopped (orderly.left (still.trans refuses))).1
  -- Any other event would have ended the read that is to end with the report.
  rcases LineTerminal.reading_taken attended.orderly taken with ⟨-, unread⟩ | ⟨-, signal, rfl⟩
  · rw [reading] at unread
    cases unread
  · rw [onEvent]
    cases untold : s.session.untold with
    | some reason =>
      obtain ⟨rfl, -⟩ := attended.held reason untold
      have tells := Session.interrupt_untold untold signal
      rw [tells]
      exact comes_of_late refuses still tells
        (Session.tells_of_lost { s.session with untold := none }) rfl
    | none =>
      have answers := Session.interrupt_told untold signal
      rw [answers]
      -- The reset is nothing to the terminal, and the line is asked for already.
      have silent : ∀ text, .write text ∉ (s.session.feed (.interrupt signal)).effects := by
        intro text member
        rw [Session.feed_of_ok rfl] at member
        simp at member
      refine comes_of_silent answers rfl silent rfl
        ⟨orderly, reading, Bridge.tidy_abandon _, fun reason held => ?_⟩
      rw [show s.session.untold = some reason from held] at untold
      cases untold

theorem comes_of_event {e : TerminalEvent} {next : LineTerminal}
    (attended : s.session.Attended s.terminal) (taken : s.terminal.nextEvent = (some e, next)) :
    Comes s (.event e) ({ s with terminal := next }.onEvent e) := by
  by_cases closed : e = .closed
  · subst closed
    exact .left (not_late_of_silent fun _ => List.not_mem_nil) (react_ended rfl)
  · cases refuses : s.terminal.refuses with
    | false => exact comes_of_event_heard attended taken closed refuses
    | true => exact comes_of_event_unheard attended taken closed refuses

/-- A response is dropped unless it is awaited, and while it is the queue takes commands. -/
theorem comes_of_response {l : Link σ} {r : Response} {rest : List Response}
    (attended : s.session.Attended s.terminal) (linked : s.link = some l)
    (waiting : l.responses = r :: rest) : Comes s (.response r) s.deliver := by
  rw [deliver_of_waiting linked waiting]
  cases evaluating : s.session.bridge.isEvaluating with
  | false =>
    have dropped := onResponse_of_awaiting evaluating r
    rw [dropped]
    exact comes_of_silent dropped rfl (fun _ => List.not_mem_nil) evaluating attended
  | true =>
    -- No read is outstanding during an evaluation, and the editor stops with one only.
    have unread : s.terminal.reading = false := by
      rw [attended.reading, evaluating]
      rfl
    have takes := attended.orderly.takes_of_unread unread
    have settles := Session.settles_response attended.tidy (attended.told evaluating) evaluating r
    refine comes_of_heard takes rfl attended.orderly.unclosed settles.goes ?_
    refine Session.attended_of_settles attended.orderly (fun reading => ?_) settles
    rw [unread] at reading
    cases reading

/-- A loss is told, unless a continuation line is being entered or it is one too many. -/
theorem comes_of_loss (spawn : Nat → σ) (attended : s.session.Attended s.terminal) :
    Comes s .loss (s.noticeLoss fun n => some (spawn n)) := by
  rw [noticeLoss_eq, Option.isSome_some]
  have answer := s.session.lossAnswer_onLoss true
  generalize reaction : s.session.onLoss true = r at answer ⊢
  cases answer with
  | exhausted full =>
    refine .lost (not_late_of_silent ?_) rfl full (react_ended rfl)
    rw [Session.reaction, reaction]
    exact fun _ => List.not_mem_nil
  | failed _ restarted => cases restarted
  | told =>
    cases refuses : s.terminal.refuses with
    | true =>
      exact comes_of_late refuses rfl reaction (Session.tells_of_lost s.session.countLoss) rfl
    | false =>
      refine comes_of_heard refuses rfl attended.orderly.unclosed rfl ?_
      apply Session.attended_hearAll attended.orderly (fun _ => rfl)
        (Bridge.tidy_abandon s.session.bridge)
      · exact .inr ⟨rfl, [_, _], rfl, by simp [Effect.isRead]⟩
      · -- What was untold may stay so, since a line is awaited now.
        intro reason untold
        exact ⟨(attended.held reason untold).1, rfl⟩
  | held _ _ awaiting =>
    refine comes_of_silent reaction rfl (fun _ => List.not_mem_nil) awaiting
      ⟨attended.orderly, attended.reading, attended.tidy, ?_⟩
    intro reason untold
    cases untold
    exact ⟨rfl, awaiting⟩

/-! ## Runs with their turns -/

/-- One move over a line terminal where each lost worker can be replaced, with what it takes up if
it is a turn of the loop. The editor, the user and the worker move whenever they like; what the
session sends between the report of the editor and its leave is queued in vain. -/
inductive LineStep (behaves : Link σ → Link σ → Prop) (spawn : Nat → σ) :
    LiveSession LineTerminal σ → Option Cause → LiveSession LineTerminal σ → Prop where
  | editor {s : LiveSession LineTerminal σ} (result : ReadResult) :
    LineStep behaves spawn s none { s with terminal := s.terminal.edit result }
  /-- An editor that has stopped lets go of its queue. -/
  | leave {s : LiveSession LineTerminal σ} :
    LineStep behaves spawn s none { s with terminal := s.terminal.leave }
  | signal {s : LiveSession LineTerminal σ} :
    LineStep behaves spawn s none { s with terminal := s.terminal.signal }
  | worker {s : LiveSession LineTerminal σ} {l m : Link σ} :
    s.link = some l → behaves l m → LineStep behaves spawn s none { s with link := some m }
  | event {s : LiveSession LineTerminal σ} {e : TerminalEvent} {next : LineTerminal} :
    s.ending = none → s.terminal.nextEvent = (some e, next) →
    LineStep behaves spawn s (some (.event e)) ({ s with terminal := next }.onEvent e)
  | deliver {s : LiveSession LineTerminal σ} {l : Link σ} {r : Response} {rest : List Response} :
    s.ending = none → s.link = some l → l.responses = r :: rest →
    LineStep behaves spawn s (some (.response r)) s.deliver
  | loss {s : LiveSession LineTerminal σ} {l : Link σ} :
    s.ending = none → s.link = some l → l.isLost = true →
    LineStep behaves spawn s (some .loss) (s.noticeLoss fun n => some (spawn n))

/-- A run over a line terminal from a first state, with its turns in order. -/
inductive LineRun (behaves : Link σ → Link σ → Prop) (spawn : Nat → σ)
    (first : LiveSession LineTerminal σ) : List Turn → LiveSession LineTerminal σ → Prop where
  | nil : LineRun behaves spawn first [] first
  | snoc {log : List Turn} {s t : LiveSession LineTerminal σ} {cause : Option Cause} :
    LineRun behaves spawn first log s → LineStep behaves spawn s cause t →
    LineRun behaves spawn first (log ++ (cause.map (turn s)).toList) t

variable {behaves : Link σ → Link σ → Prop} {spawn : Nat → σ} {log : List Turn}

/-- The run that begins where another has come to. -/
theorem LineRun.here {first : LiveSession LineTerminal σ} (_ : LineRun behaves spawn first log s) :
    LineRun behaves spawn s [] s :=
  .nil

theorem comes_of_step (attended : s.session.Attended s.terminal) {c : Cause}
    (step : LineStep behaves spawn s (some c) t) : Comes s c t := by
  cases step with
  | event _ taken => exact comes_of_event attended taken
  | deliver _ linked waiting => exact comes_of_response attended linked waiting
  | loss => exact comes_of_loss spawn attended

/-- A turn of the loop comes to what the session makes of its cause. -/
theorem session_of_turn {c : Cause} (step : LineStep behaves spawn s (some c) t) :
    s.ending = none ∧ t.session = (s.session.reaction c).session := by
  cases step with
  | event goes => exact ⟨goes, session_react _ _⟩
  | deliver goes linked waiting =>
    rw [deliver_of_waiting linked waiting]
    exact ⟨goes, session_react _ _⟩
  | loss goes =>
    rw [noticeLoss_eq]
    exact ⟨goes, session_react _ _⟩

/-- Between the turns only the terminal and the worker move. -/
theorem session_of_pause (step : LineStep behaves spawn s none t) :
    t.session = s.session ∧ t.ending = s.ending := by
  cases step <;> exact ⟨rfl, rfl⟩

theorem attended_of_pause (attended : s.session.Attended s.terminal)
    (step : LineStep behaves spawn s none t) : t.session.Attended t.terminal := by
  obtain ⟨orderly, reading, tidy, held⟩ := attended
  cases step with
  | editor result =>
    have same := (s.terminal.edit_facts result).1
    exact ⟨LineTerminal.orderly_edit orderly result, same.trans reading, tidy, held⟩
  | leave =>
    have same := s.terminal.leave_facts.1
    exact ⟨LineTerminal.orderly_leave orderly, same.trans reading, tidy, held⟩
  | signal => exact ⟨LineTerminal.orderly_signal orderly, reading, tidy, held⟩
  | worker => exact ⟨orderly, reading, tidy, held⟩

/-! ## How a run stands -/

/-- How many losses the turns have taken up. -/
def lossesOf (log : List Turn) : Nat :=
  losses (log.map Turn.toRound)

theorem lossesOf_snoc (log : List Turn) (s : LiveSession LineTerminal σ) (c : Cause) :
    lossesOf (log ++ [turn s c]) = lossesOf log + (if c = .loss then 1 else 0) := by
  rw [lossesOf, List.map_append]
  exact losses_snoc (log.map Turn.toRound) c (s.session.reaction c)

/-- What the turns of a run say of its state, with so many workers that may be replaced. -/
structure Account (maxRestarts : Nat) (log : List Turn) (s : LiveSession LineTerminal σ) :
    Prop where
  counted : s.session.losses = lossesOf log
  limit : s.session.maxRestarts = maxRestarts
  attended : s.ending = none → s.session.Attended s.terminal
  ended : ∀ ending, s.ending = some ending →
    ending = .left ∨ ending = .terminalFailed .closed ∨ maxRestarts < lossesOf log
  late : s.ending = some (.terminalFailed .closed) ↔ ∃ turn ∈ log, turn.TellsLate

theorem account_start (spawn : Nat → σ) (prompts : Prompts) (maxRestarts : Nat)
    (showsPrompts : Bool) :
    Account maxRestarts []
      (start (fun n => some (spawn n)) (Session.new prompts maxRestarts)
        (LineTerminal.new showsPrompts)) where
  counted := rfl
  limit := rfl
  attended := fun _ => {
    orderly := LineTerminal.orderly_hear (LineTerminal.orderly_new showsPrompts)
      (.read (Bridge.new prompts).prompt)
    reading := rfl
    tidy := Bridge.tidy_new prompts
    held := nofun }
  ended := nofun
  late := ⟨nofun, fun ⟨_, member, _⟩ => nomatch member⟩

theorem account_pause {maxRestarts : Nat} (account : Account maxRestarts log s)
    (step : LineStep behaves spawn s none t) : Account maxRestarts log t := by
  obtain ⟨session, ending⟩ := session_of_pause step
  refine ⟨?_, ?_, fun goes => ?_, ?_, ?_⟩
  · rw [session, account.counted]
  · rw [session, account.limit]
  · exact attended_of_pause (account.attended (ending.symm.trans goes)) step
  · rw [ending]
    exact account.ended
  · rw [ending]
    exact account.late

/-- A turn of the loop keeps the account. -/
theorem account_turn {maxRestarts : Nat} (account : Account maxRestarts log s) {c : Cause}
    (step : LineStep behaves spawn s (some c) t) :
    Account maxRestarts (log ++ [turn s c]) t := by
  obtain ⟨goes, session⟩ := session_of_turn step
  obtain ⟨counted, limit⟩ := s.session.reaction_counts c
  rw [← session] at counted limit
  rw [account.counted, ← lossesOf_snoc log s c] at counted
  rw [account.limit] at limit
  -- As long as the session went on, no turn told a loss late.
  have timely : ¬ ∃ turn ∈ log, turn.TellsLate := by
    rw [← account.late, goes]
    nofun
  have late : (∃ last ∈ log ++ [turn s c], last.TellsLate) ↔ (turn s c).TellsLate := by
    simp only [List.mem_append, List.mem_singleton, or_and_right, exists_or, timely, false_or,
      exists_eq_left]
  obtain ⟨attended, ends, refused⟩ := (comes_of_step (account.attended goes) step).facts
  refine ⟨counted, limit, attended, fun ending ended => ?_, refused.trans late.symm⟩
  refine (ends ending ended).imp_right (Or.imp_right fun ⟨loss, full⟩ => ?_)
  rw [account.limit, account.counted] at full
  rw [lossesOf_snoc, if_pos loss]
  exact Nat.lt_succ_of_le full

theorem account_run {prompts : Prompts} {maxRestarts : Nat} {showsPrompts : Bool}
    (run : LineRun behaves spawn
      (start (fun n => some (spawn n)) (Session.new prompts maxRestarts)
        (LineTerminal.new showsPrompts)) log s) :
    Account maxRestarts log s := by
  induction run with
  | nil => exact account_start spawn prompts maxRestarts showsPrompts
  | @snoc log s t cause run step ih =>
    cases cause with
    | none =>
      rw [Option.map_none, Option.toList_none, List.append_nil]
      exact account_pause ih step
    | some c => exact account_turn ih step

/-! ## Events in their order -/

/-- The turn takes an event of the terminal. -/
def Turn.takesEvent (turn : Turn) : Bool :=
  match turn.cause with
  | .event _ => true
  | _ => false

/-- How many events the turns have taken. -/
def taken (log : List Turn) : Nat :=
  log.countP Turn.takesEvent

theorem taken_append (first others : List Turn) :
    taken (first ++ others) = taken first + taken others :=
  List.countP_append

/-- A session that has gone on through some turns took the events that were waiting before them in
their order, and none was the end of the input. -/
structure Ahead (s : LiveSession LineTerminal σ) (log : List Turn)
    (t : LiveSession LineTerminal σ) : Prop where
  went : s.ending = none
  waiting : ∃ new, t.terminal.events = s.terminal.events.drop (taken log) ++ new
  open_ : ∀ d ∈ s.terminal.events.take (taken log), d.event ≠ .closed

/-- Further events may come while none is taken. -/
theorem Ahead.grow {u : LiveSession LineTerminal σ} {log' : List Turn} (ahead : Ahead s log t)
    (count : taken log' = taken log)
    (grown : ∃ new, u.terminal.events = t.terminal.events ++ new) : Ahead s log' u := by
  obtain ⟨new, rest⟩ := ahead.waiting
  obtain ⟨more, grown⟩ := grown
  refine ⟨ahead.went, ⟨new ++ more, ?_⟩, ?_⟩
  · rw [count, grown, rest, List.append_assoc]
  · rw [count]
    exact ahead.open_

/-- One more event is taken. -/
theorem Ahead.take {u : LiveSession LineTerminal σ} {log' : List Turn} {d : Delivered}
    (ahead : Ahead s log t) (count : taken log' = taken log + 1)
    (first : t.terminal.events = d :: u.terminal.events) (more : d.event ≠ .closed) :
    Ahead s log' u := by
  obtain ⟨new, rest⟩ := ahead.waiting
  rw [first] at rest
  have took : s.terminal.events.take (taken log + 1) =
      s.terminal.events.take (taken log) ++ (s.terminal.events.drop (taken log)).head?.toList := by
    rw [List.take_add_one, List.head?_drop]
  have left : s.terminal.events.drop (taken log + 1) =
      (s.terminal.events.drop (taken log)).tail := List.tail_drop.symm
  -- The event is the first that is left of those, or all of them have been taken before.
  refine ⟨ahead.went, ?_, ?_⟩
  · rw [count, left]
    cases behind : s.terminal.events.drop (taken log) with
    | nil => exact ⟨u.terminal.events, rfl⟩
    | cons d' others =>
      rw [behind] at rest
      exact ⟨new, (List.cons.inj rest).2⟩
  · rw [count, took]
    intro d' member
    rcases List.mem_append.1 member with old | last
    · exact ahead.open_ d' old
    · cases behind : s.terminal.events.drop (taken log) with
      | nil =>
        rw [behind] at last
        cases last
      | cons d'' others =>
        rw [behind] at rest last
        rw [List.mem_singleton.1 last, ← (List.cons.inj rest).1]
        exact more

/-- A session that goes on behind an event has not taken the end of the input. -/
theorem open_of_going {e : TerminalEvent} (going : (s.onEvent e).ending = none) : e ≠ .closed := by
  rintro rfl
  cases going

/-- As long as a session goes on it is ahead of where it was. -/
theorem ahead_run (run : LineRun behaves spawn s log t) (going : t.ending = none) :
    Ahead s log t := by
  induction run with
  | nil => exact ⟨going, ⟨[], (List.append_nil _).symm⟩, nofun⟩
  | @snoc log t u cause run step ih =>
    have same : t.terminal.events = t.terminal.events ++ [] := (List.append_nil _).symm
    cases step with
    | editor result =>
      exact (ih going).grow (taken_append log []) (t.terminal.edit_facts result).2
    | leave =>
      exact (ih going).grow (taken_append log []) ⟨[], t.terminal.leave_facts.2.trans same⟩
    | signal => exact (ih going).grow (taken_append log []) ⟨_, rfl⟩
    | worker => exact (ih going).grow (taken_append log []) ⟨[], same⟩
    | event goes took =>
      obtain ⟨d, first, rfl, -⟩ := LineTerminal.taken_eq took
      refine (ih goes).take (taken_append log _) ?_ (open_of_going going)
      rw [onEvent, events_react]
      exact first
    | deliver goes linked waiting =>
      refine (ih goes).grow (taken_append log _) ⟨[], ?_⟩
      rw [deliver_of_waiting linked waiting, events_react]
      exact same
    | loss goes =>
      refine (ih goes).grow (taken_append log _) ⟨[], ?_⟩
      rw [noticeLoss_eq, events_react]
      exact same

/-- Along every run over a line terminal in which each lost worker can be replaced and no more are
lost than may be, whatever the editor reads, whenever it lets go of its queue, whenever interrupts
come and whatever the workers do. The editor has stopped exactly while its report of the end of the
input is on its way to a session that goes on, and the session has ended at the latest when it has
taken as many further events as are waiting then. It ends because the user leaves, or with the
refusal of a closed terminal; and the latter exactly when a loss was told while the queue of the
editor was gone, and not when the queue still took the notice. -/
theorem closed_input_ends_session (behaves : Link σ → Link σ → Prop) (spawn : Nat → σ)
    (prompts : Prompts) (maxRestarts : Nat) (showsPrompts : Bool) (log : List Turn)
    (s : LiveSession LineTerminal σ)
    (run : LineRun behaves spawn
      (start (fun n => some (spawn n)) (Session.new prompts maxRestarts)
        (LineTerminal.new showsPrompts)) log s)
    (few : lossesOf log ≤ maxRestarts) :
    (s.ending = none →
      (s.terminal.stopped = true ↔ ∃ d ∈ s.terminal.events, d.event = .closed)) ∧
      (s.terminal.stopped = true → ∀ more t, LineRun behaves spawn s more t →
        s.terminal.events.length ≤ taken more → t.ending ≠ none) ∧
      (∀ ending, s.ending = some ending → ending = .left ∨ ending = .terminalFailed .closed) ∧
      (s.ending = some (.terminalFailed .closed) ↔ ∃ turn ∈ log, turn.TellsLate) := by
  have account := account_run run
  refine ⟨fun goes => ?_, fun stopped more t onward enough going => ?_, fun ending ended => ?_, ?_⟩
  · exact (account.attended goes).orderly.reported
  · -- A session that went on has taken all the events, and the end of the input was among them.
    have ahead := ahead_run onward going
    obtain ⟨d, waits, closed⟩ :=
      (account.attended ahead.went).orderly.reported.1 stopped
    have all := ahead.open_
    rw [List.take_of_length_le enough] at all
    exact all d waits closed
  · rcases account.ended ending ended with left | refused | many
    · exact .inl left
    · exact .inr refused
    · exact absurd many (Nat.not_lt.2 few)
  · exact account.late

/-- The editor meets the end of the input, and the worker is lost before the queue is gone: the
notice is queued in vain, and the next turn ends the session. -/
theorem closed_input_ends_session_behind_notice :
    ∃ log s more t,
      LineRun (fun _ m => m.service = none) (fun _ => ())
        (start (fun _ => some ()) (Session.new .standard 1) (LineTerminal.new true)) log s ∧
      lossesOf log = 1 ∧ s.terminal.stopped = true ∧
      s.terminal.commands = [.write (lostMessage exitReason)] ∧ s.terminal.events.length = 1 ∧
      LineRun (fun _ m => m.service = none) (fun _ => ()) s more t ∧ taken more = 1 ∧
      t.terminal.refuses = true ∧ t.ending ≠ none ∧ ¬ ∃ turn ∈ log, turn.TellsLate := by
  have ended := (@LineRun.nil Unit (fun _ m => m.service = none) (fun _ => ())
    (start (fun _ => some ()) (Session.new .standard 1) (LineTerminal.new true))).snoc
      (.editor .ended)
  have gone := ended.snoc (.worker (m := ⟨[], none, []⟩) rfl rfl)
  have told := gone.snoc (.loss rfl rfl rfl)
  have onward := (told.here.snoc .leave).snoc (.event rfl rfl)
  obtain ⟨-, ends, -, refused⟩ := closed_input_ends_session _ _ _ _ _ _ _ told (by decide)
  refine ⟨_, _, _, _, told, rfl, rfl, rfl, rfl, onward, rfl, rfl,
    ends rfl _ _ onward (by decide), ?_⟩
  intro late
  have same : none = some (Ending.terminalFailed .closed) := refused.2 late
  cases same

/-- The worker is lost when the editor has let go of its queue and its report waits. The notice is
refused, and the refusal ends the session. -/
theorem closed_input_refuses_notice :
    ∃ log s,
      LineRun (fun _ m => m.service = none) (fun _ => ())
        (start (fun _ => some ()) (Session.new .standard 1) (LineTerminal.new true)) log s ∧
      lossesOf log = 1 ∧ s.terminal.stopped = true ∧
      s.terminal.events = [⟨.closed, true⟩] ∧ s.ending = some (.terminalFailed .closed) := by
  have ended := (@LineRun.nil Unit (fun _ m => m.service = none) (fun _ => ())
    (start (fun _ => some ()) (Session.new .standard 1) (LineTerminal.new true))).snoc
      (.editor .ended)
  have gone := (ended.snoc .leave).snoc (.worker (m := ⟨[], none, []⟩) rfl rfl)
  have told := gone.snoc (.loss rfl rfl rfl)
  exact ⟨_, _, told, rfl, rfl, rfl, rfl⟩

end LiveSession

end LispRepl

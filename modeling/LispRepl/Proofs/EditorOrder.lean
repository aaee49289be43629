import LispRepl.Proofs.EditorQueues
import Mathlib.Data.List.Basic

/-!
# One read at a time

Three parties share the queues of a line terminal: the session, which sends commands and takes
events; the editor, which carries out one command after the other; and the user, whose interrupts may
come at any time. A command counts as queued until it has been carried out, so that what the others
do while the editor waits for a line comes before the step in which it has read the line. The queue
of an editor that has met the end of its input takes commands until the editor lets go of it, in a
step of its own. What was sent, carried out, raised and taken makes up the log of a terminal in use.

An interrupt may end the read of a line or come from outside, and the session sees no difference.
Each event says by itself whether it ends a read, and so the terminal knows of the outstanding one.

- `LineTerminal.Act`, `LineTerminal.Step`, `LineTerminal.Run`: what is done at a terminal, by whom
  and in any order.
- `LineTerminal.Accounts`, `LineTerminal.accounts_step`: the queues between what was put into them
  and what was taken out.
- `LineTerminal.reads_end_in_order`: the one outstanding read, and the order of events and commands.
-/

set_option autoImplicit false

namespace LispRepl

namespace LineTerminal

/-! ## What is done at a terminal -/

/-- What one of the parties does. -/
inductive Act where
  /-- The session sends commands; none if it asks for a line while a read is outstanding. -/
  | sent (commands : List EditorCommand)
  /-- The editor carries out a command and raises events; `result` is how reading a line ends. -/
  | executed (command : EditorCommand) (result : ReadResult) (events : List Delivered)
  /-- The editor, which has stopped, lets go of its queue. -/
  | left
  /-- The user interrupts while no line is being edited. -/
  | interrupted
  /-- The session takes an event. -/
  | took (event : Delivered)
deriving DecidableEq

namespace Act

/-- The commands that are sent. -/
def sends : Act → List EditorCommand
  | .sent commands => commands
  | _ => []

/-- The commands that are carried out. -/
def executes : Act → List EditorCommand
  | .executed command _ _ => [command]
  | _ => []

/-- The events that are raised. -/
def raises : Act → List Delivered
  | .executed _ _ events => events
  | .interrupted => [⟨.interrupt "SIGINT", false⟩]
  | _ => []

/-- The events that the session takes. -/
def takes : Act → List Delivered
  | .took event => [event]
  | _ => []

/-- The event that has to end the read of a line. -/
def ends : Act → List Delivered
  | .executed (.read _) result _ => [⟨result.event, true⟩]
  | _ => []

/-- The end of the input is met. -/
def endsInput : Act → Bool
  | .executed (.read _) .ended _ => true
  | _ => false

/-- What is shown. -/
def shows (showsPrompts : Bool) : Act → String
  | .executed (.read prompt) _ _ => if showsPrompts then prompt else ""
  | .executed (.write text) _ _ => text ++ "\n"
  | _ => ""

end Act

/-- One step of one of the parties. A call that the terminal refuses is none. -/
inductive Step : LineTerminal → Act → LineTerminal → Prop where
  | read {t next : LineTerminal} {prompt : String} {commands : List EditorCommand} :
    t.readLine prompt = .ok next → next.commands = t.commands ++ commands →
    Step t (.sent commands) next
  | write {t next : LineTerminal} {text : String} {commands : List EditorCommand} :
    t.writeLine text = .ok next → next.commands = t.commands ++ commands →
    Step t (.sent commands) next
  | edit {t : LineTerminal} {command : EditorCommand} {rest : List EditorCommand}
      {events : List Delivered} (result : ReadResult) : t.stopped = false →
    t.commands = command :: rest → (t.edit result).events = t.events ++ events →
    Step t (.executed command result events) (t.edit result)
  /-- From here on the session is refused whatever it sends. -/
  | leave {t : LineTerminal} : t.stopped = true → Step t .left t.leave
  | signal {t : LineTerminal} : Step t .interrupted t.signal
  | event {t next : LineTerminal} {d : Delivered} : t.nextEvent = (some d.event, next) →
    t.events = d :: next.events → Step t (.took d) next

/-- What has been done at a terminal since it was new, and what has become of it. -/
inductive Run (showsPrompts : Bool) : List Act → LineTerminal → Prop where
  | new : Run showsPrompts [] (new showsPrompts)
  | snoc {log : List Act} {t next : LineTerminal} {act : Act} :
    Run showsPrompts log t → Step t act next → Run showsPrompts (log ++ [act]) next

/-! ## One step -/

variable {showsPrompts : Bool} {log : List Act} {act : Act} {t next : LineTerminal}

/-- What holds of the queues between two steps. -/
structure Sound (t : LineTerminal) : Prop where
  /-- At most one read is queued or on its way back. -/
  one : t.commands.countP EditorCommand.isRead + t.events.countP Delivered.endsRead =
    t.reading.toNat
  serving : .shutdown ∉ t.commands
  reported : t.stopped = true → t.closed = true ∨ ⟨.closed, true⟩ ∈ t.events
  /-- An editor that has stopped was asked for no other line, and will not be. -/
  drained : t.stopped = true → t.commands.countP EditorCommand.isRead = 0

/-- What an act does to the queues and to what is shown. -/
structure Moves (t : LineTerminal) (act : Act) (next : LineTerminal) : Prop where
  events : t.events ++ act.raises = act.takes ++ next.events
  ended : act.raises.filter Delivered.endsRead = act.ends
  /-- An editor that serves takes the first command, and all others stay queued while it does. -/
  served : t.stopped = false → ∃ left, t.commands ++ act.sends = act.executes ++ left ∧
    (next.stopped = false → next.commands = left)
  idle : t.stopped = true → act.executes = []
  /-- No read is dropped. -/
  asked : t.commands.countP EditorCommand.isRead + act.sends.countP EditorCommand.isRead =
    act.ends.length + next.commands.countP EditorCommand.isRead
  stopped : next.stopped = (t.stopped || act.endsInput)
  shown : next.showsPrompts = t.showsPrompts ∧ next.shown = t.shown ++ act.shows t.showsPrompts
  sound : next.Sound

/-- A request for a line is ignored while a read is outstanding, and queued otherwise. -/
theorem readLine_cases {prompt : String} (armed : t.readLine prompt = .ok next) :
    (t.reading = true ∧ next = t) ∨ (t.reading = false ∧ t.closed = false ∧
      next = { t with commands := t.commands ++ [.read prompt], reading := true }) := by
  rw [readLine] at armed
  split at armed
  · cases armed
  · rename_i unclosed
    cases reading : t.reading with
    | true =>
      rw [reading, if_pos rfl] at armed
      cases armed
      exact .inl ⟨rfl, rfl⟩
    | false =>
      rw [reading, if_neg Bool.false_ne_true, send] at armed
      split at armed
      · cases armed
      · cases armed
        exact .inr ⟨rfl, Bool.eq_false_iff.2 unclosed, rfl⟩

/-- While the report that the editor has stopped is on its way to the session, the read that ends
with it is outstanding. -/
theorem Sound.reading_of_stopped (sound : t.Sound) (unclosed : t.closed = false)
    (stopped : t.stopped = true) : t.reading = true := by
  rcases sound.reported stopped with closed | waits
  · cases unclosed.symm.trans closed
  · exact (alone_of_waiting sound.one waits rfl).1

/-- The session sends commands, whether they will be carried out or not. -/
theorem moves_sent (sound : t.Sound) {commands : List EditorCommand} {reading : Bool}
    (plain : .shutdown ∉ commands)
    (drained : t.stopped = true → commands.countP EditorCommand.isRead = 0)
    (one : reading.toNat = t.reading.toNat + commands.countP EditorCommand.isRead) :
    Moves t (.sent commands)
      { t with commands := t.commands ++ commands, reading := reading } where
  events := List.append_nil _
  ended := rfl
  served := fun _ => ⟨t.commands ++ commands, rfl, fun _ => rfl⟩
  idle := fun _ => rfl
  asked := by
    rw [List.countP_append]
    exact (Nat.zero_add _).symm
  stopped := (Bool.or_false _).symm
  shown := ⟨rfl, String.append_empty.symm⟩
  sound := {
    one := by
      have before := sound.one
      dsimp only
      rw [one, List.countP_append]
      omega
    serving := by simpa [plain] using sound.serving
    reported := sound.reported
    drained := fun stopped => by
      rw [List.countP_append, sound.drained stopped, drained stopped] }

/-- A request for a line that is outstanding anyway sends nothing. -/
theorem moves_ignored (sound : t.Sound) : Moves t (.sent []) t := by
  have same : Moves t (.sent []) { t with commands := t.commands ++ [], reading := t.reading } :=
    moves_sent sound nofun (fun _ => rfl) rfl
  rwa [List.append_nil] at same

/-- The session asks for a line. -/
theorem moves_asked (sound : t.Sound) {prompt : String} {commands : List EditorCommand}
    (armed : t.readLine prompt = .ok next) (grown : next.commands = t.commands ++ commands) :
    Moves t (.sent commands) next := by
  rcases readLine_cases armed with ⟨-, rfl⟩ | ⟨unread, unclosed, rfl⟩
  · obtain rfl := List.self_eq_append_right.1 grown
    exact moves_ignored sound
  · obtain rfl := List.append_cancel_left grown
    refine moves_sent sound (by simp) (fun stopped => ?_) (by rw [unread]; rfl)
    -- The report of an editor that has stopped would be the end of an outstanding read.
    cases unread.symm.trans (sound.reading_of_stopped unclosed stopped)

/-- The editor shows a line of output. -/
theorem moves_write (sound : t.Sound) {text : String} {rest : List EditorCommand}
    {events : List Delivered} (result : ReadResult) (serves : t.stopped = false)
    (queued : t.commands = .write text :: rest)
    (raised : (t.edit result).events = t.events ++ events) :
    Moves t (.executed (.write text) result events) (t.edit result) := by
  have one := one_write sound.one serves queued result
  rw [edit_write serves queued] at one raised ⊢
  obtain rfl := List.self_eq_append_right.1 raised
  exact {
    events := List.append_nil _
    ended := rfl
    served := fun _ => ⟨rest, by rw [queued]; exact List.append_nil _, fun _ => rfl⟩
    idle := fun stopped => by cases serves.symm.trans stopped
    asked := by
      rw [queued]
      exact (Nat.zero_add _).symm
    stopped := (Bool.or_false _).symm
    shown := ⟨rfl, String.append_assoc⟩
    sound := {
      one := one
      serving := serving_of_queued sound.serving queued
      reported := sound.reported
      drained := fun stopped => by cases serves.symm.trans stopped } }

/-- The editor reads a line, and stops if there is none. -/
theorem moves_read (sound : t.Sound) {prompt : String} {rest : List EditorCommand}
    {events : List Delivered} (result : ReadResult) (serves : t.stopped = false)
    (queued : t.commands = .read prompt :: rest)
    (raised : (t.edit result).events = t.events ++ events) :
    Moves t (.executed (.read prompt) result events) (t.edit result) := by
  obtain ⟨none, one⟩ := one_read sound.one serves queued result
  obtain ⟨-, alone, -⟩ := alone_of_queued sound.one queued
  rw [edit_read serves queued] at none one raised ⊢
  obtain rfl := List.append_cancel_left raised
  exact {
    events := rfl
    ended := rfl
    served := fun _ => ⟨rest, by rw [queued]; exact List.append_nil _, fun _ => rfl⟩
    idle := fun stopped => by cases serves.symm.trans stopped
    asked := by
      rw [none, queued, List.countP_cons_of_pos rfl, alone]
      rfl
    stopped := by
      dsimp only
      rw [serves]
      cases result <;> rfl
    shown := by
      refine ⟨rfl, ?_⟩
      rw [Act.shows]
      cases t.showsPrompts with
      | true => rfl
      | false => exact String.append_empty.symm
    sound := {
      one := one
      serving := serving_of_queued sound.serving queued
      reported := by
        intro ended
        rw [beq_iff_eq] at ended
        rw [ended]
        exact .inr (List.mem_append_right _ List.mem_cons_self)
      drained := fun _ => alone } }

/-- The editor, which has stopped, drops the commands that are left in its queue. -/
theorem moves_leave (sound : t.Sound) (stopped : t.stopped = true) : Moves t .left t.leave := by
  -- No read is among them that would end without an event.
  have drained := sound.drained stopped
  rw [leave, if_pos stopped]
  exact {
    events := List.append_nil _
    ended := rfl
    served := fun serves => by cases stopped.symm.trans serves
    idle := fun _ => rfl
    asked := by
      rw [drained]
      rfl
    stopped := (Bool.or_false _).symm
    shown := ⟨rfl, String.append_empty.symm⟩
    sound := {
      one := by
        have before := sound.one
        rw [drained] at before
        exact before
      serving := List.not_mem_nil
      reported := sound.reported
      drained := fun _ => rfl } }

/-- The user interrupts, which ends no read. -/
theorem moves_signal (sound : t.Sound) : Moves t .interrupted t.signal where
  events := rfl
  ended := rfl
  served := fun _ => ⟨t.commands, List.append_nil _, fun _ => rfl⟩
  idle := fun _ => rfl
  asked := (Nat.add_zero _).trans (Nat.zero_add _).symm
  stopped := (Bool.or_false _).symm
  shown := ⟨rfl, String.append_empty.symm⟩
  sound := {
    one := one_signal sound.one
    serving := sound.serving
    reported := fun stopped => (sound.reported stopped).imp_right (List.mem_append_left _)
    drained := sound.drained }

/-- The session takes the first event that is waiting. -/
theorem moves_event (sound : t.Sound) {d : Delivered}
    (taken : t.nextEvent = (some d.event, next)) (waiting : t.events = d :: next.events) :
    Moves t (.took d) next := by
  obtain ⟨d', waiting', -, rest⟩ := taken_eq taken
  obtain rfl : d = d' := (List.cons.inj (waiting.symm.trans waiting')).1
  have one := one_taken sound.one taken
  rw [rest] at one ⊢
  exact {
    events := by
      rw [waiting]
      exact List.append_nil _
    ended := rfl
    served := fun _ => ⟨t.commands, List.append_nil _, fun _ => rfl⟩
    idle := fun _ => rfl
    asked := (Nat.add_zero _).trans (Nat.zero_add _).symm
    stopped := (Bool.or_false _).symm
    shown := ⟨rfl, String.append_empty.symm⟩
    sound := {
      one := one
      serving := sound.serving
      reported := by
        intro stopped
        rcases sound.reported stopped with closed | waits
        · exact .inl (by rw [closed, Bool.true_or])
        · rw [waiting] at waits
          rcases List.mem_cons.1 waits with rfl | behind
          · exact .inl (Bool.or_true _)
          · exact .inr behind
      drained := sound.drained } }

theorem moves_of_step (sound : t.Sound) (step : Step t act next) : Moves t act next := by
  cases step with
  | read armed grown => exact moves_asked sound armed grown
  | write shown grown =>
    rw [writeLine, send] at shown
    split at shown
    · cases shown
    · cases shown
      obtain rfl := List.append_cancel_left grown
      exact moves_sent sound (by simp) (fun _ => rfl) rfl
  | leave stopped => exact moves_leave sound stopped
  | @edit command _ _ result serves queued raised =>
    cases command with
    | read prompt => exact moves_read sound result serves queued raised
    | write text => exact moves_write sound result serves queued raised
    | shutdown =>
      have serving := sound.serving
      rw [queued] at serving
      exact absurd List.mem_cons_self serving
  | signal => exact moves_signal sound
  | event taken waiting => exact moves_event sound taken waiting

/-! ## All steps -/

/-- What the log says of the queues and of the editor. -/
structure Accounts (showsPrompts : Bool) (log : List Act) (t : LineTerminal) : Prop where
  /-- No event is lost, and none overtakes another. -/
  raised : log.flatMap Act.raises = log.flatMap Act.takes ++ t.events
  /-- A read that is carried out ends in one event, and nothing else ends a read. -/
  ended : ∀ act ∈ log, act.raises.filter Delivered.endsRead = act.ends
  inOrder : log.flatMap Act.executes <+: log.flatMap Act.sends
  /-- As long as the editor serves, the commands that it has not carried out are queued. -/
  queued : t.stopped = false → log.flatMap Act.sends = log.flatMap Act.executes ++ t.commands
  asked : (log.flatMap Act.sends).countP EditorCommand.isRead =
    (log.flatMap Act.ends).length + t.commands.countP EditorCommand.isRead
  stopped : t.stopped = log.any Act.endsInput
  shown : t.showsPrompts = showsPrompts ∧ t.shown = String.join (log.map (Act.shows showsPrompts))
  sound : t.Sound

theorem accounts_new (showsPrompts : Bool) : Accounts showsPrompts [] (new showsPrompts) where
  raised := rfl
  ended := nofun
  inOrder := List.nil_prefix
  queued := fun _ => rfl
  asked := rfl
  stopped := rfl
  shown := ⟨rfl, rfl⟩
  sound := ⟨rfl, nofun, nofun, nofun⟩

theorem flatMap_snoc {α : Type} (f : Act → List α) (log : List Act) (act : Act) :
    (log ++ [act]).flatMap f = log.flatMap f ++ f act := by
  rw [List.flatMap_append, List.flatMap_singleton]

theorem accounts_snoc (accounts : Accounts showsPrompts log t) (moves : Moves t act next) :
    Accounts showsPrompts (log ++ [act]) next := by
  constructor
  case raised =>
    rw [flatMap_snoc, flatMap_snoc, accounts.raised, List.append_assoc, moves.events,
      List.append_assoc]
  case ended =>
    intro act' member
    rcases List.mem_append.1 member with old | new
    · exact accounts.ended act' old
    · rw [List.mem_singleton.1 new]
      exact moves.ended
  case inOrder =>
    rw [flatMap_snoc, flatMap_snoc]
    cases stopped : t.stopped with
    | true =>
      rw [moves.idle stopped, List.append_nil]
      exact accounts.inOrder.trans (List.prefix_append _ _)
    | false =>
      obtain ⟨left, rest, -⟩ := moves.served stopped
      rw [accounts.queued stopped, List.append_assoc, rest, ← List.append_assoc]
      exact List.prefix_append _ _
  case queued =>
    intro serves
    have before : t.stopped = false := (Bool.or_eq_false_iff.1 (moves.stopped.symm.trans serves)).1
    obtain ⟨left, rest, kept⟩ := moves.served before
    rw [flatMap_snoc, flatMap_snoc, accounts.queued before, List.append_assoc, rest, kept serves,
      List.append_assoc]
  case asked =>
    have asked := moves.asked
    rw [flatMap_snoc, flatMap_snoc, List.countP_append, List.length_append, accounts.asked]
    omega
  case stopped =>
    rw [moves.stopped, accounts.stopped, List.any_append, List.any_cons, List.any_nil,
      Bool.or_false]
  case shown =>
    obtain ⟨showsPrompts, shown⟩ := accounts.shown
    refine ⟨moves.shown.1.trans showsPrompts, ?_⟩
    rw [moves.shown.2, showsPrompts, shown]
    simp [String.join_append]
  case sound => exact moves.sound

theorem accounts_run (run : Run showsPrompts log t) : Accounts showsPrompts log t := by
  induction run with
  | new => exact accounts_new showsPrompts
  | snoc run step ih => exact accounts_snoc ih (moves_of_step ih.sound step)

/-- Every read that was asked for has ended, but for the one that is outstanding. -/
theorem Accounts.reads (accounts : Accounts showsPrompts log t) :
    (log.flatMap Act.sends).countP EditorCommand.isRead =
      (log.flatMap Act.takes).countP Delivered.endsRead + t.reading.toNat := by
  have ends : (log.flatMap Act.ends).length =
      (log.flatMap Act.raises).countP Delivered.endsRead := by
    rw [List.countP_eq_length_filter, List.filter_flatMap]
    exact congrArg List.length (List.flatMap_congr fun act member => (accounts.ended act member).symm)
  have one := accounts.sound.one
  rw [accounts.asked, ends, accounts.raised, List.countP_append]
  omega

/-- Only an event that ends a read makes the terminal forget the outstanding one. -/
theorem took_of_unread (step : Step t act next) (reading : t.reading = true)
    (unread : next.reading = false) : ∃ d, act = .took d ∧ d.endsRead = true := by
  cases step with
  | read armed =>
    rcases readLine_cases armed with ⟨-, rfl⟩ | ⟨none, -, -⟩
    · cases reading.symm.trans unread
    · cases reading.symm.trans none
  | write shown =>
    rw [writeLine, send] at shown
    split at shown
    · cases shown
    · cases shown
      cases reading.symm.trans unread
  | leave => cases reading.symm.trans (t.leave_facts.1.symm.trans unread)
  | edit result => cases reading.symm.trans ((t.edit_facts result).1.symm.trans unread)
  | signal => cases reading.symm.trans unread
  | @event _ d taken waiting =>
    obtain ⟨d', waiting', -, rest⟩ := taken_eq taken
    obtain rfl : d = d' := (List.cons.inj (waiting.symm.trans waiting')).1
    have forgotten : (t.reading && !d.endsRead) = false :=
      (congrArg LineTerminal.reading rest).symm.trans unread
    rw [reading, Bool.true_and, Bool.not_eq_false'] at forgotten
    exact ⟨d, rfl, forgotten⟩

/-- Along every run of a terminal that is not told to stop, whatever the session asks for, however
the reading of each line ends and whenever the user interrupts. A read is outstanding exactly if more
reads were asked for than the session has taken events that end one, and there is never more than one
too many. A read that the editor carries out raises one such event, and an interrupt from outside
raises none; the session takes all events in the order in which they were raised, and an event that
ends no read leaves the outstanding one as it is. The editor carries out the commands in the order in
which they were sent, without leaving one out, until it meets the end of its input; and what it has
carried out is what is shown. -/
theorem reads_end_in_order (showsPrompts : Bool) (log : List Act) (t : LineTerminal)
    (run : Run showsPrompts log t) :
    (t.reading = true ↔ (log.flatMap Act.takes).countP Delivered.endsRead <
      (log.flatMap Act.sends).countP EditorCommand.isRead) ∧
    (log.flatMap Act.sends).countP EditorCommand.isRead ≤
      (log.flatMap Act.takes).countP Delivered.endsRead + 1 ∧
    (∀ act ∈ log, act.raises.filter Delivered.endsRead = act.ends) ∧
    log.flatMap Act.raises = log.flatMap Act.takes ++ t.events ∧
    (∀ act next, Step t act next → t.reading = true → next.reading = false →
      ∃ d, act = .took d ∧ d.endsRead = true) ∧
    log.flatMap Act.executes <+: log.flatMap Act.sends ∧
    (log.any Act.endsInput = false →
      log.flatMap Act.sends = log.flatMap Act.executes ++ t.commands) ∧
    t.stopped = log.any Act.endsInput ∧
    t.shown = String.join (log.map (Act.shows showsPrompts)) := by
  have accounts := accounts_run run
  have reads := accounts.reads
  refine ⟨?_, ?_, accounts.ended, accounts.raised, fun _ _ => took_of_unread, accounts.inOrder,
    fun serves => accounts.queued (accounts.stopped.trans serves), accounts.stopped,
    accounts.shown.2⟩
  · rw [reads]
    cases t.reading <;> simp
  · have at_most : t.reading.toNat ≤ 1 := Bool.toNat_le _
    omega

/-- An interrupt comes while the editor waits for a line, and the session takes it first: the read is
still outstanding, so that another is ignored. -/
theorem reads_end_in_order_interrupted :
    ∃ log t, Run true log t ∧
      log = [.sent [.read "> "], .interrupted,
        .executed (.read "> ") (.line ⟨"1"⟩) [⟨.line ⟨"1"⟩, true⟩],
        .took ⟨.interrupt "SIGINT", false⟩, .sent []] ∧
      t.reading = true ∧
      log.flatMap Act.raises =
        [⟨.interrupt "SIGINT", false⟩] ++ [⟨.line ⟨"1"⟩, true⟩] ∧
      t.shown = "> " := by
  have asked := (@Run.new true).snoc (@Step.read _ _ "> " [.read "> "] rfl rfl)
  have interrupted := asked.snoc .signal
  have read := interrupted.snoc
    (@Step.edit _ _ _ [⟨.line ⟨"1"⟩, true⟩] (.line ⟨"1"⟩) rfl rfl rfl)
  have took := read.snoc (@Step.event _ _ ⟨.interrupt "SIGINT", false⟩ rfl rfl)
  have again := took.snoc (@Step.read _ _ "> " [] rfl rfl)
  obtain ⟨reading, -, -, raised, -, -, -, -, shown⟩ := reads_end_in_order _ _ _ again
  exact ⟨_, _, again, rfl, reading.2 (by decide), raised, shown⟩

end LineTerminal

end LispRepl

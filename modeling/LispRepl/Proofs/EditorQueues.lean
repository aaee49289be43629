import LispRepl.Proofs.BridgeTransition
import LispRepl.Session.Live
import LispRepl.Terminal.Line

/-!
# The queues of a line terminal

A session and the editor of its line terminal know of each other only by what stands in the two
queues between them. One read at a time is outstanding: either the command for it is still queued,
or the event that ends it is on its way back. The editor stops with such an event, and the session
learns that the terminal is closed only when it takes it. Until then the terminal has nothing to
report but interrupts. Its queue takes commands in vain at first, and refuses them once the editor
has let go of it.

- `LineTerminal.one_read`, `LineTerminal.one_write`, `LineTerminal.one_signal`,
  `LineTerminal.one_taken`: at most one read is outstanding, whatever is done.
- `LineTerminal.Orderly`: what holds of the queues between two steps of anyone.
- `LineTerminal.orderly_edit`, `LineTerminal.orderly_leave`, `LineTerminal.orderly_signal`,
  `LineTerminal.orderly_taken`: the editor, the user and a session that takes an event keep it.
- `LineTerminal.hear`: what a terminal makes of one effect while its queue takes commands.
- `LiveSession.react_heard`, `LiveSession.react_unheard`, `LiveSession.react_refused`: the effects
  of a reaction, while the queue takes commands and when it is gone.
-/

set_option autoImplicit false

namespace LispRepl

/-- The editor is asked for a line. -/
def EditorCommand.isRead : EditorCommand → Bool
  | .read _ => true
  | _ => false

namespace LineTerminal

/-- How many reads were asked for whose end the session has not seen. -/
def outstanding (t : LineTerminal) : Nat :=
  t.commands.countP EditorCommand.isRead + t.events.countP Delivered.endsRead

/-- What holds of the queues of a terminal between two steps of anyone, as long as the session has
not seen that it is closed. -/
structure Orderly (t : LineTerminal) : Prop where
  unclosed : t.closed = false
  one : t.outstanding = t.reading.toNat
  /-- What does not end a read is an interrupt. -/
  plain : ∀ d ∈ t.events, d.endsRead = false → ∃ signal, d.event = .interrupt signal
  serving : .shutdown ∉ t.commands
  /-- The editor has stopped exactly when its report of that is on its way. -/
  reported : t.stopped = true ↔ ∃ d ∈ t.events, d.event = .closed
  /-- Only an editor that has stopped lets go of its queue. -/
  left : t.refuses = true → t.stopped = true

variable {t next : LineTerminal} {e : TerminalEvent}

theorem orderly_new (showsPrompts : Bool) : (new showsPrompts).Orderly where
  unclosed := rfl
  one := rfl
  plain := nofun
  serving := nofun
  reported := ⟨nofun, fun ⟨_, member, _⟩ => nomatch member⟩
  left := nofun

/-- An event that ends a read and has not been taken is the end of the outstanding one, so that no
other is queued. -/
theorem alone_of_waiting (one : t.outstanding = t.reading.toNat) {d : Delivered}
    (waits : d ∈ t.events) (ends : d.endsRead = true) :
    t.reading = true ∧ t.commands.countP EditorCommand.isRead = 0 := by
  have some : 0 < t.events.countP Delivered.endsRead := List.countP_pos_iff.2 ⟨d, waits, ends⟩
  rw [outstanding] at one
  cases reading : t.reading with
  | true =>
    rw [reading, Bool.toNat_true] at one
    exact ⟨rfl, by omega⟩
  | false =>
    rw [reading, Bool.toNat_false] at one
    omega

/-- The report that the editor has stopped ends a read. -/
theorem Orderly.ends_of_closed (orderly : t.Orderly) {d : Delivered} (waits : d ∈ t.events)
    (closed : d.event = .closed) : d.endsRead = true := by
  cases ends : d.endsRead with
  | true => rfl
  | false =>
    obtain ⟨signal, interrupt⟩ := orderly.plain d waits ends
    rw [closed] at interrupt
    cases interrupt

/-- While the editor's report that it has stopped is on its way, the read it ends is outstanding,
and none is queued. -/
theorem Orderly.alone_of_stopped (orderly : t.Orderly) (stopped : t.stopped = true) :
    t.reading = true ∧ t.commands.countP EditorCommand.isRead = 0 := by
  obtain ⟨d, waits, closed⟩ := orderly.reported.1 stopped
  exact alone_of_waiting orderly.one waits (orderly.ends_of_closed waits closed)

/-- While no read is outstanding the queue takes commands. -/
theorem Orderly.takes_of_unread (orderly : t.Orderly) (unread : t.reading = false) :
    t.refuses = false := by
  cases refuses : t.refuses with
  | false => rfl
  | true =>
    rw [(orderly.alone_of_stopped (orderly.left refuses)).1] at unread
    cases unread

/-! ## What each of them does -/

/-- An editor that has stopped does nothing any more. -/
theorem edit_of_stopped (stopped : t.stopped = true) (result : ReadResult) :
    t.edit result = t := by
  rw [edit, stopped, if_pos rfl]

theorem edit_read (serves : t.stopped = false) {prompt : String} {rest : List EditorCommand}
    (queued : t.commands = .read prompt :: rest) (result : ReadResult) :
    t.edit result =
      { t with
        commands := rest
        events := t.events ++ [⟨result.event, true⟩]
        stopped := result == .ended
        shown := if t.showsPrompts then t.shown ++ prompt else t.shown } := by
  rw [edit, serves, if_neg Bool.false_ne_true, queued]

theorem edit_write (serves : t.stopped = false) {text : String} {rest : List EditorCommand}
    (queued : t.commands = .write text :: rest) (result : ReadResult) :
    t.edit result = { t with commands := rest, shown := t.shown ++ text ++ "\n" } := by
  rw [edit, serves, if_neg Bool.false_ne_true, queued]

/-- The editor takes no part in what the session knows, and only adds to the events. -/
theorem edit_facts (t : LineTerminal) (result : ReadResult) :
    (t.edit result).reading = t.reading ∧ ∃ new, (t.edit result).events = t.events ++ new := by
  have same : t.events = t.events ++ [] := (List.append_nil _).symm
  rw [edit]
  split
  · exact ⟨rfl, [], same⟩
  · split
    · exact ⟨rfl, [], same⟩
    · exact ⟨rfl, _, rfl⟩
    · exact ⟨rfl, [], same⟩
    · exact ⟨rfl, [], same⟩

/-- The session is not told that the queue of commands is gone. -/
theorem leave_facts (t : LineTerminal) :
    t.leave.reading = t.reading ∧ t.leave.events = t.events := by
  rw [leave]
  split <;> exact ⟨rfl, rfl⟩

/-- The event that a session takes was the first one waiting. -/
theorem taken_eq (taken : t.nextEvent = (some e, next)) :
    ∃ d, t.events = d :: next.events ∧ d.event = e ∧
      next = { t with
        events := next.events
        reading := t.reading && !d.endsRead
        closed := t.closed || e == .closed } := by
  cases waiting : t.events with
  | nil =>
    rw [nextEvent, waiting] at taken
    cases taken
  | cons d rest =>
    rw [nextEvent, waiting] at taken
    cases taken
    exact ⟨d, rfl, rfl, rfl⟩

theorem refuses_taken (taken : t.nextEvent = (some e, next)) : next.refuses = t.refuses := by
  obtain ⟨_, _, _, rest⟩ := taken_eq taken
  rw [rest]

/-! ## The outstanding read -/

section One

variable (one : t.outstanding = t.reading.toNat)

include one

/-- A read that is queued is the outstanding one. -/
theorem alone_of_queued {prompt : String} {rest : List EditorCommand}
    (queued : t.commands = .read prompt :: rest) :
    t.reading = true ∧ rest.countP EditorCommand.isRead = 0 ∧
      t.events.countP Delivered.endsRead = 0 := by
  rw [outstanding, queued, List.countP_cons_of_pos rfl] at one
  cases reading : t.reading with
  | true =>
    rw [reading, Bool.toNat_true] at one
    exact ⟨rfl, by omega, by omega⟩
  | false =>
    rw [reading, Bool.toNat_false] at one
    omega

/-- The read that the editor carries out goes on as the event that ends it. -/
theorem one_read (serves : t.stopped = false) {prompt : String} {rest : List EditorCommand}
    (queued : t.commands = .read prompt :: rest) (result : ReadResult) :
    (t.edit result).commands.countP EditorCommand.isRead = 0 ∧
      (t.edit result).outstanding = (t.edit result).reading.toNat := by
  obtain ⟨reading, alone, unread⟩ := alone_of_queued one queued
  rw [edit_read serves queued]
  refine ⟨alone, ?_⟩
  show List.countP _ rest + List.countP _ (_ ++ _) = t.reading.toNat
  rw [alone, List.countP_append, unread, reading]
  rfl

/-- A line of output is no read. -/
theorem one_write (serves : t.stopped = false) {text : String} {rest : List EditorCommand}
    (queued : t.commands = .write text :: rest) (result : ReadResult) :
    (t.edit result).outstanding = (t.edit result).reading.toNat := by
  rw [outstanding, queued, List.countP_cons_of_neg Bool.false_ne_true] at one
  rw [edit_write serves queued]
  exact one

/-- An interrupt from outside ends no read. -/
theorem one_signal : t.signal.outstanding = t.signal.reading.toNat := by
  rw [outstanding, signal, List.countP_append]
  exact one

/-- The terminal forgets the read when the session takes the event that ends it. -/
theorem one_taken (taken : t.nextEvent = (some e, next)) :
    next.outstanding = next.reading.toNat := by
  obtain ⟨d, waiting, -, rest⟩ := taken_eq taken
  rw [outstanding, waiting] at one
  rw [rest]
  show List.countP _ t.commands + List.countP _ next.events = (t.reading && !d.endsRead).toNat
  cases ends : d.endsRead with
  | true =>
    -- The read that ends was the only one outstanding.
    rw [List.countP_cons_of_pos ends] at one
    have at_most : t.reading.toNat ≤ 1 := Bool.toNat_le _
    rw [Bool.not_true, Bool.and_false, Bool.toNat_false]
    omega
  | false =>
    rw [List.countP_cons_of_neg (ne_true_of_eq_false ends)] at one
    rw [Bool.not_false, Bool.and_true]
    exact one

end One

/-- The editor is not told to stop by what is queued behind a first command either. -/
theorem serving_of_queued (serving : .shutdown ∉ t.commands) {c : EditorCommand}
    {rest : List EditorCommand} (queued : t.commands = c :: rest) : .shutdown ∉ rest := by
  rw [queued] at serving
  exact fun member => serving (List.mem_cons_of_mem _ member)

/-! ## The editor and the user -/

theorem orderly_signal (orderly : t.Orderly) : t.signal.Orderly where
  unclosed := orderly.unclosed
  one := one_signal orderly.one
  plain := by
    intro d member open_
    rcases List.mem_append.1 member with old | new
    · exact orderly.plain d old open_
    · rw [List.mem_singleton.1 new]
      exact ⟨_, rfl⟩
  serving := orderly.serving
  reported := by
    rw [signal, orderly.reported]
    simp
  left := orderly.left

/-- The editor reads a line, and stops if there is none. -/
theorem orderly_read (orderly : t.Orderly) (serves : t.stopped = false) {prompt : String}
    {rest : List EditorCommand} (queued : t.commands = .read prompt :: rest)
    (result : ReadResult) : (t.edit result).Orderly := by
  obtain ⟨-, one⟩ := one_read orderly.one serves queued result
  have unreported : ¬ ∃ d ∈ t.events, d.event = .closed := by
    rw [← orderly.reported, serves]
    exact Bool.false_ne_true
  rw [edit_read serves queued] at one ⊢
  constructor
  case unclosed => exact orderly.unclosed
  case one => exact one
  case plain =>
    intro d member open_
    rcases List.mem_append.1 member with old | new
    · exact orderly.plain d old open_
    · rw [List.mem_singleton.1 new] at open_
      cases open_
  case serving => exact serving_of_queued orderly.serving queued
  case left =>
    intro refuses
    rw [orderly.left refuses] at serves
    cases serves
  case reported =>
    show (result == .ended) = true ↔ ∃ d ∈ t.events ++ [⟨result.event, true⟩], d.event = .closed
    simp only [List.mem_append, List.mem_singleton, or_and_right, exists_or, unreported,
      false_or, exists_eq_left]
    cases result <;> simp [ReadResult.event]

/-- The editor shows a line of output, which is no step of a read. -/
theorem orderly_write (orderly : t.Orderly) (serves : t.stopped = false) {text : String}
    {rest : List EditorCommand} (queued : t.commands = .write text :: rest)
    (result : ReadResult) : (t.edit result).Orderly := by
  have one := one_write orderly.one serves queued result
  rw [edit_write serves queued] at one ⊢
  constructor
  case unclosed => exact orderly.unclosed
  case one => exact one
  case plain => exact orderly.plain
  case serving => exact serving_of_queued orderly.serving queued
  case reported => exact orderly.reported
  case left => exact orderly.left

/-- Whatever the editor takes from its queue, and however a line ends that it reads. -/
theorem orderly_edit (orderly : t.Orderly) (result : ReadResult) : (t.edit result).Orderly := by
  cases stopped : t.stopped with
  | true =>
    rw [edit_of_stopped stopped]
    exact orderly
  | false =>
    cases queued : t.commands with
    | nil =>
      rw [edit, stopped, if_neg Bool.false_ne_true, queued]
      exact orderly
    | cons c rest =>
      cases c with
      | read prompt => exact orderly_read orderly stopped queued result
      | write text => exact orderly_write orderly stopped queued result
      | shutdown =>
        have served := orderly.serving
        rw [queued] at served
        exact absurd List.mem_cons_self served

/-- No read is left in the queue that an editor lets go of: the outstanding one ends with the report
that it has stopped. -/
theorem orderly_leave (orderly : t.Orderly) : t.leave.Orderly := by
  cases stopped : t.stopped with
  | false =>
    rw [leave, if_neg (ne_true_of_eq_false stopped)]
    exact orderly
  | true =>
    have one := orderly.one
    rw [outstanding, (orderly.alone_of_stopped stopped).2] at one
    rw [leave, if_pos stopped]
    constructor
    case unclosed => exact orderly.unclosed
    case one => exact one
    case plain => exact orderly.plain
    case serving => exact nofun
    case reported => exact orderly.reported
    case left => exact fun _ => stopped

/-! ## Events -/

/-- A session that takes an event other than the report that the editor has stopped. -/
theorem orderly_taken (orderly : t.Orderly) (taken : t.nextEvent = (some e, next))
    (more : e ≠ .closed) : next.Orderly := by
  have one := one_taken orderly.one taken
  obtain ⟨d, waiting, rfl, rest⟩ := taken_eq taken
  rw [rest] at one ⊢
  constructor
  case unclosed =>
    show (t.closed || d.event == .closed) = false
    rw [orderly.unclosed, beq_eq_false_iff_ne.2 more]
    rfl
  case one => exact one
  case plain =>
    intro d' member
    exact orderly.plain d' (waiting ▸ List.mem_cons_of_mem _ member)
  case serving => exact orderly.serving
  case reported =>
    show t.stopped = true ↔ ∃ d ∈ next.events, d.event = .closed
    rw [orderly.reported, waiting]
    simp [more]
  case left => exact orderly.left

/-- An event ends the outstanding read, or it is an interrupt that leaves it as it is. -/
theorem reading_taken (orderly : t.Orderly) (taken : t.nextEvent = (some e, next)) :
    (t.reading = true ∧ next.reading = false) ∨
      (next.reading = t.reading ∧ ∃ signal, e = .interrupt signal) := by
  obtain ⟨d, waiting, rfl, rest⟩ := taken_eq taken
  have waits : d ∈ t.events := waiting ▸ List.mem_cons_self
  rw [rest]
  cases ends : d.endsRead with
  | true => exact .inl ⟨(alone_of_waiting orderly.one waits ends).1, Bool.and_false _⟩
  | false => exact .inr ⟨Bool.and_true _, orderly.plain d waits ends⟩

/-! ## Effects -/

theorem events_send {c : EditorCommand} (sent : t.send c = .ok next) : next.events = t.events := by
  rw [send] at sent
  split at sent
  · cases sent
  · cases sent
    rfl

theorem events_readLine {prompt : String} (armed : t.readLine prompt = .ok next) :
    next.events = t.events := by
  rw [readLine] at armed
  split at armed
  · cases armed
  · split at armed
    · cases armed
      rfl
    · cases sent : t.send (.read prompt) with
      | error error =>
        rw [sent] at armed
        cases armed
      | ok queued =>
        rw [sent] at armed
        cases armed
        show queued.events = t.events
        exact events_send sent

/-- What the terminal makes of an effect while its queue takes commands. -/
def hear (t : LineTerminal) : Effect → LineTerminal
  | .write text => { t with commands := t.commands ++ [.write text] }
  | .read prompt =>
    if t.reading then t
    else { t with commands := t.commands ++ [.read prompt], reading := true }
  | .dispatch _ _ => t
  | .reset _ => t

/-- What the terminal makes of effects in order. -/
def hearAll (t : LineTerminal) (effects : List Effect) : LineTerminal :=
  effects.foldl hear t

theorem hearAll_append (t : LineTerminal) (first others : List Effect) :
    t.hearAll (first ++ others) = (t.hearAll first).hearAll others :=
  List.foldl_append

theorem send_eq (takes : t.refuses = false) (c : EditorCommand) :
    t.send c = .ok { t with commands := t.commands ++ [c] } :=
  if_neg (ne_true_of_eq_false takes)

theorem send_of_refuses (refuses : t.refuses = true) (c : EditorCommand) :
    t.send c = .error .closed :=
  if_pos refuses

theorem readLine_of_reading (unclosed : t.closed = false) (reading : t.reading = true)
    (prompt : String) : t.readLine prompt = .ok t := by
  rw [readLine, if_neg (ne_true_of_eq_false unclosed), if_pos reading]

theorem readLine_eq (unclosed : t.closed = false) (takes : t.refuses = false) (prompt : String) :
    t.readLine prompt = .ok (t.hear (.read prompt)) := by
  rw [readLine, hear, if_neg (ne_true_of_eq_false unclosed), send_eq takes]
  split <;> rfl

/-- A terminal stays in use behind an effect. -/
theorem usable_hear (t : LineTerminal) (e : Effect) :
    (t.hear e).closed = t.closed ∧ (t.hear e).refuses = t.refuses := by
  cases e with
  | read prompt =>
    rw [hear]
    split <;> exact ⟨rfl, rfl⟩
  | _ => exact ⟨rfl, rfl⟩

theorem orderly_hear (orderly : t.Orderly) (e : Effect) : (t.hear e).Orderly := by
  cases e with
  | dispatch g line => exact orderly
  | reset g => exact orderly
  | write text =>
    constructor
    case unclosed => exact orderly.unclosed
    case one =>
      rw [outstanding, hear, List.countP_append]
      exact orderly.one
    case plain => exact orderly.plain
    case serving => simpa [hear] using orderly.serving
    case reported => exact orderly.reported
    case left => exact orderly.left
  | read prompt =>
    cases reading : t.reading with
    | true =>
      rw [hear, reading, if_pos rfl]
      exact orderly
    | false =>
      -- Nothing was outstanding before, so that the new read is the only one.
      have reads := orderly.one
      rw [outstanding, reading, Bool.toNat_false] at reads
      rw [hear, reading, if_neg Bool.false_ne_true]
      constructor
      case unclosed => exact orderly.unclosed
      case one =>
        show List.countP _ (t.commands ++ [.read prompt]) + List.countP _ t.events = 1
        rw [List.countP_append]
        show _ + 1 + _ = 1
        omega
      case plain => exact orderly.plain
      case serving => simpa using orderly.serving
      case reported => exact orderly.reported
      case left => exact orderly.left

theorem orderly_hearAll (effects : List Effect) (orderly : t.Orderly) :
    (t.hearAll effects).Orderly := by
  induction effects generalizing t with
  | nil => exact orderly
  | cons e effects ih => exact ih (orderly_hear orderly e)

/-- Effects that ask for no line leave the read as it is. -/
theorem reading_hearAll {effects : List Effect} (quiet : ∀ e ∈ effects, e.isRead = false)
    (t : LineTerminal) : (t.hearAll effects).reading = t.reading := by
  induction effects generalizing t with
  | nil => rfl
  | cons e effects ih =>
    have same : (t.hear e).reading = t.reading := by
      cases e with
      | read prompt => cases quiet _ List.mem_cons_self
      | _ => rfl
    exact (ih (fun e member => quiet e (List.mem_cons_of_mem _ member)) (t.hear e)).trans same

/-- A read is outstanding behind effects that ask for a line last. -/
theorem reading_of_asked (t : LineTerminal) (others : List Effect) (prompt : String) :
    (t.hearAll (others ++ [.read prompt])).reading = true := by
  rw [hearAll_append]
  show ((t.hearAll others).hear (.read prompt)).reading = true
  rw [hear]
  split
  · assumption
  · rfl

end LineTerminal

/-! ## Reactions -/

namespace LiveSession

variable {σ : Type} {s : LiveSession LineTerminal σ}

theorem performAll_heard (effects : List Effect) (goes : s.ending = none)
    (unclosed : s.terminal.closed = false) (takes : s.terminal.refuses = false) :
    (s.performAll effects).terminal = s.terminal.hearAll effects ∧
      (s.performAll effects).ending = none := by
  induction effects generalizing s with
  | nil => exact ⟨rfl, goes⟩
  | cons e effects ih =>
    have heard : (s.perform e).terminal = s.terminal.hear e ∧ (s.perform e).ending = none := by
      cases e with
      | dispatch g line => exact ⟨rfl, goes⟩
      | reset g => exact ⟨rfl, goes⟩
      | write text =>
        have shown : Terminal.writeLine s.terminal text = .ok (s.terminal.hear (.write text)) :=
          LineTerminal.send_eq takes (.write text)
        rw [perform, shown]
        exact ⟨rfl, goes⟩
      | read prompt =>
        have armed : Terminal.readLine s.terminal prompt = .ok (s.terminal.hear (.read prompt)) :=
          LineTerminal.readLine_eq unclosed takes prompt
        rw [perform, armed]
        exact ⟨rfl, goes⟩
    obtain ⟨terminal, ending⟩ := heard
    have usable := s.terminal.usable_hear e
    rw [← terminal] at usable
    obtain ⟨others, still⟩ := ih ending (usable.1.trans unclosed) (usable.2.trans takes)
    rw [performAll, goes]
    refine ⟨others.trans ?_, still⟩
    rw [terminal]
    rfl

/-- The effects of a reaction while the queue takes commands. -/
theorem react_heard {r : Reaction} (goes : r.ending = none)
    (unclosed : s.terminal.closed = false) (takes : s.terminal.refuses = false) :
    (s.react r).terminal = s.terminal.hearAll r.effects ∧ (s.react r).ending = none :=
  performAll_heard (s := { s with session := r.session, ending := r.ending }) r.effects goes
    unclosed takes

/-- With a read outstanding, a terminal does not learn of effects that show nothing. -/
theorem performAll_unheard {effects : List Effect} (goes : s.ending = none)
    (unclosed : s.terminal.closed = false) (reading : s.terminal.reading = true)
    (silent : ∀ text, .write text ∉ effects) :
    (s.performAll effects).terminal = s.terminal ∧ (s.performAll effects).ending = none := by
  induction effects generalizing s with
  | nil => exact ⟨rfl, goes⟩
  | cons e effects ih =>
    have rest := fun text member => silent text (List.mem_cons_of_mem e member)
    rw [performAll, goes]
    cases e with
    | dispatch g line => exact ih (s := s.send (.eval g line)) goes unclosed reading rest
    | reset g => exact ih (s := s.send (.reset g)) goes unclosed reading rest
    | write text => exact absurd List.mem_cons_self (silent text)
    | read prompt =>
      -- The line is asked for already, so that not even a queue that is gone is addressed.
      have ignored : Terminal.readLine s.terminal prompt = .ok s.terminal :=
        LineTerminal.readLine_of_reading unclosed reading prompt
      have same : s.perform (.read prompt) = s := by rw [perform, ignored]
      rw [same]
      exact ih goes unclosed reading rest

/-- A reaction that shows nothing while a read is outstanding, whether the queue takes commands or
not. -/
theorem react_unheard {r : Reaction} (goes : r.ending = none)
    (unclosed : s.terminal.closed = false) (reading : s.terminal.reading = true)
    (silent : ∀ text, .write text ∉ r.effects) :
    (s.react r).terminal = s.terminal ∧ (s.react r).ending = none :=
  performAll_unheard (s := { s with session := r.session, ending := r.ending }) goes unclosed
    reading silent

/-- A reaction that begins with a line of output when the queue is gone. -/
theorem react_refused {r : Reaction} {text : String} {rest : List Effect} (goes : r.ending = none)
    (refuses : s.terminal.refuses = true) (shows : r.effects = .write text :: rest) :
    (s.react r).ending = some (.terminalFailed .closed) := by
  have refused : Terminal.writeLine s.terminal text = .error .closed :=
    LineTerminal.send_of_refuses refuses (.write text)
  rw [react, goes, shows, performAll, perform]
  simp only [Option.isSome_none, Bool.false_eq_true, if_false, refused]
  cases rest <;> rfl

theorem events_performAll (effects : List Effect) (s : LiveSession LineTerminal σ) :
    (s.performAll effects).terminal.events = s.terminal.events := by
  induction effects generalizing s with
  | nil => rfl
  | cons e effects ih =>
    have one : (s.perform e).terminal.events = s.terminal.events := by
      cases e with
      | dispatch g line => rfl
      | reset g => rfl
      | write text =>
        rw [perform]
        split
        · rename_i shown
          exact LineTerminal.events_send shown
        · rfl
      | read prompt =>
        rw [perform]
        split
        · rename_i armed
          exact LineTerminal.events_readLine armed
        · rfl
    rw [performAll]
    split
    · rfl
    · exact (ih (s.perform e)).trans one

/-- A reaction does not touch what the terminal reports. -/
theorem events_react (s : LiveSession LineTerminal σ) (r : Reaction) :
    (s.react r).terminal.events = s.terminal.events :=
  events_performAll r.effects { s with session := r.session, ending := r.ending }

end LiveSession

end LispRepl

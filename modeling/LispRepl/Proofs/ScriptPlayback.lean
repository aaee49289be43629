import LispRepl.Proofs.SessionRun
import Mathlib.Data.List.Induction

/-!
# Playing a script

A session asks its terminal for an event and may give up waiting before there is one, at any time
and as often as it likes. What it was given in answer to all its calls makes up a log, and the log
alone says which steps of the script were played, whether a read is outstanding, and which prompts
had to be shown. A scripted terminal plays its script step by step whatever the calls are: a pause is
the only step that is taken without being delivered.

- `ScriptedTerminal.Call`, `ScriptedTerminal.serve`: the calls of a terminal and their answers.
- `delivered`, `outstanding`, `isDisposed`, `armedPrompts`: what a log says.
- `ScriptedTerminal.Tracks`, `ScriptedTerminal.tracks_serveAll`: the terminal goes with the log of its
  calls.
- `ScriptedTerminal.script_played_in_order`: what a terminal delivers and shows.
-/

set_option autoImplicit false

namespace LispRepl

/-- The steps of a script that can be delivered. -/
def withoutPauses (script : List ScriptStep) : List ScriptStep :=
  script.filter (· != .pause)

theorem withoutPauses_dropWhile (script : List ScriptStep) :
    withoutPauses (script.dropWhile (· == .pause)) = withoutPauses script := by
  induction script with
  | nil => rfl
  | cons step script ih => cases step <;> simp_all [withoutPauses]

namespace ScriptedTerminal

/-! ## Calls and their log -/

/-- What a terminal is asked to do. -/
inductive Call where
  | read (prompt : String)
  | write (text : String)
  /-- To give an event if it is there, the wait being given up otherwise. -/
  | poll
  /-- To give the next event. -/
  | await
  | dispose
deriving DecidableEq

/-- What comes of a call. -/
inductive Answer where
  | done
  | refused (error : TerminalError)
  | event (event : TerminalEvent)
  /-- There is no event yet. -/
  | nothing
deriving DecidableEq

/-- The answer to a call for an event. -/
def Answer.ofEvent? : Option TerminalEvent → Answer
  | some e => .event e
  | none => .nothing

/-- The terminal answers a call. -/
def serve (t : ScriptedTerminal) : Call → Answer × ScriptedTerminal
  | .read prompt =>
    match t.readLine prompt with
    | .ok next => (.done, next)
    | .error e => (.refused e, t)
  | .write text => (.done, t.writeLine text)
  | .poll => (.ofEvent? t.poll.1, t.poll.2)
  | .await => (.ofEvent? t.await.1, t.await.2)
  | .dispose => (.done, t.dispose)

/-- A call that was answered. -/
structure Served where
  call : Call
  answer : Answer
deriving DecidableEq

/-- The terminal behind some calls. -/
def serveAll (t : ScriptedTerminal) (calls : List Call) : ScriptedTerminal :=
  calls.foldl (fun t c => (t.serve c).2) t

/-- The calls with their answers. -/
def log (t : ScriptedTerminal) : List Call → List Served
  | [] => []
  | c :: calls => ⟨c, (t.serve c).1⟩ :: (t.serve c).2.log calls

end ScriptedTerminal

open ScriptedTerminal

/-- The step of the script that an answer delivers. -/
def ScriptedTerminal.Served.step? (s : Served) : Option ScriptStep :=
  match s.answer with
  | .event (.line line) => some (.line line)
  | .event (.interrupt signal) => some (.interrupt signal)
  | _ => none

/-- The steps of the script that were delivered. -/
def delivered (log : List Served) : List ScriptStep :=
  log.filterMap Served.step?

/-- The terminal has been disposed. -/
def isDisposed (log : List Served) : Bool :=
  log.any fun s => s.call == .dispose

/-- A read was asked for and not refused. -/
def ScriptedTerminal.Served.asks (s : Served) : Bool :=
  match s with
  | ⟨.read _, .done⟩ => true
  | _ => false

/-- A read is outstanding behind a call: it was asked for, or it was outstanding before, and the call
neither delivered the step that ends it nor disposed the terminal. -/
def ScriptedTerminal.Served.leaves (before : Bool) (s : Served) : Bool :=
  s.asks || (before && s.step?.isNone && s.call != .dispose)

/-- A read was asked for and no line or interrupt has been delivered since. -/
def outstanding (log : List Served) : Bool :=
  log.foldl Served.leaves false

/-- The prompt that a call has to show behind a log: that of a read that is asked for while none is
outstanding, before the terminal is disposed. -/
def promptOf (log : List Served) : Call → List String
  | .read prompt => if isDisposed log || outstanding log then [] else [prompt]
  | _ => []

/-- The prompts that the calls of a log had to show, behind an earlier one. -/
def armedPrompts (earlier : List Served) : List Served → List String
  | [] => []
  | s :: log => promptOf earlier s.call ++ armedPrompts (earlier ++ [s]) log

section Log

variable (log : List Served) (s : Served)

theorem delivered_append (log others : List Served) :
    delivered (log ++ others) = delivered log ++ delivered others :=
  List.filterMap_append

theorem delivered_snoc : delivered (log ++ [s]) = delivered log ++ s.step?.toList := by
  rw [delivered_append]
  cases step : s.step? <;> simp [delivered, step]

theorem isDisposed_snoc : isDisposed (log ++ [s]) = (isDisposed log || s.call == .dispose) := by
  simp [isDisposed]

theorem outstanding_snoc : outstanding (log ++ [s]) = s.leaves (outstanding log) := by
  rw [outstanding, List.foldl_append]
  rfl

theorem armedPrompts_snoc (earlier : List Served) :
    armedPrompts earlier (log ++ [s]) =
      armedPrompts earlier log ++ promptOf (earlier ++ log) s.call := by
  induction log generalizing earlier with
  | nil => simp [armedPrompts]
  | cons first log ih => simp [armedPrompts, ih]

variable {log}

theorem of_asks {s : Served} (asks : s.asks = true) : ∃ prompt, s = ⟨.read prompt, .done⟩ := by
  unfold Served.asks at asks
  split at asks
  · exact ⟨_, rfl⟩
  · cases asks

/-- An outstanding read was asked for behind the last line or interrupt. -/
theorem asked_of_outstanding (waits : outstanding log = true) :
    ∃ earlier prompt later, log = earlier ++ ⟨.read prompt, .done⟩ :: later ∧
      delivered later = [] := by
  induction log using List.reverseRecOn with
  | nil => cases waits
  | append_singleton log s ih =>
    rw [outstanding_snoc, Served.leaves] at waits
    -- The last call asked for it, or left the one that was asked for before.
    cases asks : s.asks with
    | true =>
      obtain ⟨prompt, rfl⟩ := of_asks asks
      exact ⟨log, prompt, [], rfl, rfl⟩
    | false =>
      rw [asks, Bool.false_or, Bool.and_eq_true, Bool.and_eq_true, Option.isNone_iff_eq_none] at waits
      obtain ⟨earlier, prompt, later, rfl, quiet⟩ := ih waits.1.1
      refine ⟨earlier, prompt, later ++ [s], ?_, ?_⟩
      · rw [List.append_assoc, List.cons_append]
      · rw [delivered_snoc, quiet, waits.1.2]
        rfl

end Log

namespace ScriptedTerminal

variable {script : List ScriptStep} {log : List Served} {t next : ScriptedTerminal}

theorem log_snoc (calls : List Call) (c : Call) (t : ScriptedTerminal) :
    t.log (calls ++ [c]) = t.log calls ++ [⟨c, ((t.serveAll calls).serve c).1⟩] := by
  induction calls generalizing t with
  | nil => rfl
  | cons first calls ih => exact congrArg (_ :: ·) (ih (t.serve first).2)

theorem serveAll_snoc (calls : List Call) (c : Call) (t : ScriptedTerminal) :
    t.serveAll (calls ++ [c]) = ((t.serveAll calls).serve c).2 :=
  List.foldl_append

/-! ## The terminal and the log -/

/-- The terminal goes with the log of its calls. -/
structure Tracks (script : List ScriptStep) (log : List Served) (t : ScriptedTerminal) : Prop where
  disposed : t.disposed = isDisposed log
  armed : t.armed = outstanding log
  /-- What was not delivered is still to come, unless the terminal has been disposed. -/
  played : isDisposed log = false →
    delivered log ++ withoutPauses t.script = withoutPauses script
  cleared : isDisposed log = true → t.script = [] ∧ t.armed = false
  inOrder : delivered log <+: withoutPauses script
  prompts : t.prompts = armedPrompts [] log

theorem tracks_new (script : List ScriptStep) : (new script).Tracks script [] where
  disposed := rfl
  armed := rfl
  played := fun _ => rfl
  cleared := nofun
  inOrder := List.nil_prefix
  prompts := rfl

/-- A call that does not dispose the terminal keeps it with the log if it takes off the script what it
delivers, arms the read that is asked for, and shows the prompt. -/
theorem Tracks.snoc (tracks : t.Tracks script log) {s : Served} (stays : s.call ≠ .dispose)
    (disposed : next.disposed = t.disposed) (asks : t.disposed = true → s.asks = false)
    (armed : next.armed = s.leaves t.armed)
    (taken : s.step?.toList ++ withoutPauses next.script = withoutPauses t.script)
    (spent : t.script = [] → next.script = [])
    (prompts : next.prompts = t.prompts ++ promptOf log s.call) :
    next.Tracks script (log ++ [s]) := by
  have same : isDisposed (log ++ [s]) = isDisposed log := by
    rw [isDisposed_snoc, beq_eq_false_iff_ne.2 stays, Bool.or_false]
  refine ⟨?_, ?_, fun usable => ?_, fun gone => ?_, ?_, ?_⟩
  · rw [disposed, tracks.disposed, same]
  · rw [armed, tracks.armed, outstanding_snoc]
  · rw [same] at usable
    rw [delivered_snoc, List.append_assoc, taken, tracks.played usable]
  · rw [same] at gone
    obtain ⟨empty, unarmed⟩ := tracks.cleared gone
    rw [armed, Served.leaves, asks (tracks.disposed.trans gone), unarmed]
    exact ⟨spent empty, rfl⟩
  · cases gone : isDisposed log with
    | false =>
      rw [delivered_snoc]
      have played := tracks.played gone
      rw [← taken, ← List.append_assoc] at played
      exact ⟨_, played⟩
    | true =>
      -- Nothing is left of the script that could be delivered.
      rw [(tracks.cleared gone).1] at taken
      rw [delivered_snoc, (List.append_eq_nil_iff.1 taken).1, List.append_nil]
      exact tracks.inOrder
  · rw [prompts, tracks.prompts, armedPrompts_snoc, List.nil_append]

theorem serve_read (t : ScriptedTerminal) (prompt : String) :
    t.serve (.read prompt) =
      if t.disposed then (.refused .closed, t) else (.done, t.arm prompt) := by
  cases gone : t.disposed with
  | true =>
    rw [serve, readLine, gone]
    rfl
  | false =>
    rw [serve, readLine_eq gone]
    rfl

theorem Tracks.read (tracks : t.Tracks script log) (prompt : String) :
    (t.serve (.read prompt)).2.Tracks script
      (log ++ [⟨.read prompt, (t.serve (.read prompt)).1⟩]) := by
  have stays : Call.read prompt ≠ .dispose := by
    intro same
    cases same
  rw [serve_read]
  cases gone : t.disposed with
  | true =>
    -- A read that is refused leaves the terminal as it is, and has no prompt to show.
    rw [if_pos rfl]
    refine tracks.snoc stays rfl (fun _ => rfl) ?_ rfl id ?_
    · cases t.armed <;> rfl
    · rw [promptOf, ← tracks.disposed, gone, Bool.true_or, if_pos rfl, List.append_nil]
  | false =>
    have kept : (t.arm prompt).script = t.script := by
      rw [arm]
      split <;> rfl
    rw [if_neg Bool.false_ne_true]
    refine tracks.snoc stays (t.disposed_arm prompt) ?_ (t.armed_arm prompt) ?_ kept.trans ?_
    · intro closed
      cases gone.symm.trans closed
    · exact congrArg withoutPauses kept
    · rw [promptOf, ← tracks.disposed, ← tracks.armed, gone, Bool.false_or]
      cases armed : t.armed with
      | true => rw [arm_of_armed armed, if_pos rfl, List.append_nil]
      | false => rw [prompts_arm armed, if_neg Bool.false_ne_true]

theorem Tracks.polled (tracks : t.Tracks script log) {c : Call} (asked : c = .poll ∨ c = .await)
    {e : Option TerminalEvent} (polled : Polled t e next) :
    next.Tracks script (log ++ [⟨c, .ofEvent? e⟩]) := by
  obtain ⟨prompts, disposed⟩ := poll_keeps polled
  have call : c ≠ .dispose ∧ ∀ answer, (⟨c, answer⟩ : Served).asks = false := by
    rcases asked with rfl | rfl <;> exact ⟨nofun, fun _ => rfl⟩
  have silent : promptOf log c = [] := by
    rcases asked with rfl | rfl <;> rfl
  refine tracks.snoc call.1 disposed (fun _ => call.2 _) ?_ ?_ ?_ ?_
  · rw [Served.leaves, call.2, bne_iff_ne.2 call.1, Bool.and_true, Bool.false_or]
    cases polled <;> simp_all [record, Served.step?, Answer.ofEvent?]
  · cases polled <;> simp_all [record, Served.step?, Answer.ofEvent?, withoutPauses]
  · cases polled <;> simp_all [record]
  · rw [prompts, silent, List.append_nil]

/-- Dropping the pauses that are next delivers nothing. -/
theorem Tracks.skipPauses (tracks : t.Tracks script log) : t.skipPauses.Tracks script log where
  disposed := tracks.disposed
  armed := tracks.armed
  played := by
    rw [ScriptedTerminal.skipPauses, withoutPauses_dropWhile]
    exact tracks.played
  cleared := by
    intro gone
    obtain ⟨empty, unarmed⟩ := tracks.cleared gone
    refine ⟨?_, unarmed⟩
    rw [ScriptedTerminal.skipPauses, empty]
    rfl
  inOrder := tracks.inOrder
  prompts := tracks.prompts

theorem Tracks.serve (tracks : t.Tracks script log) (c : Call) :
    (t.serve c).2.Tracks script (log ++ [⟨c, (t.serve c).1⟩]) := by
  cases c with
  | read prompt => exact tracks.read prompt
  | write text =>
    refine tracks.snoc nofun rfl (fun _ => rfl) ?_ rfl id ?_
    · show t.armed = _
      cases t.armed <;> rfl
    · exact (t.prompts_writeLine text).trans (List.append_nil _).symm
  | poll => exact tracks.polled (.inl rfl) t.polled
  | await => exact tracks.skipPauses.polled (.inr rfl) t.skipPauses.polled
  | dispose =>
    have gone : isDisposed (log ++ [⟨.dispose, .done⟩]) = true := by
      rw [isDisposed_snoc, beq_self_eq_true, Bool.or_true]
    refine ⟨gone.symm, ?_, fun usable => ?_, fun _ => ⟨rfl, rfl⟩, ?_, ?_⟩
    · show false = _
      rw [outstanding_snoc]
      exact (Bool.and_false _).symm
    · cases gone.symm.trans usable
    · rw [delivered_snoc]
      exact (List.append_nil _).symm ▸ tracks.inOrder
    · rw [armedPrompts_snoc]
      exact tracks.prompts.trans (List.append_nil _).symm

theorem tracks_serveAll (script : List ScriptStep) (calls : List Call) :
    ((new script).serveAll calls).Tracks script ((new script).log calls) := by
  induction calls using List.reverseRecOn with
  | nil => exact tracks_new script
  | append_singleton calls c ih =>
    rw [log_snoc, serveAll_snoc]
    exact ih.serve c

/-! ## What is delivered -/

/-- An event is that of the terminal or of the terminal behind its pauses. -/
theorem Tracks.polled_of_event (tracks : t.Tracks script log) {c : Call} {e : TerminalEvent}
    (answer : (t.serve c).1 = .event e) :
    ∃ u next, Tracks script log u ∧ Polled u (some e) next := by
  have same {found : Option TerminalEvent} (answer : Answer.ofEvent? found = .event e) :
      found = some e := by
    cases found with
    | none => cases answer
    | some found =>
      cases answer
      rfl
  cases c with
  | read prompt =>
    rw [serve_read] at answer
    split at answer <;> cases answer
  | write text => cases answer
  | poll =>
    have found := t.polled
    rw [same answer] at found
    exact ⟨t, _, tracks, found⟩
  | await =>
    have found := t.skipPauses.polled
    rw [show t.skipPauses.poll.1 = _ from same answer] at found
    exact ⟨t.skipPauses, _, tracks.skipPauses, found⟩
  | dispose => cases answer

/-- An armed terminal has an event for one who waits. -/
theorem exists_await (armed : t.armed = true) : ∃ e, t.await.1 = some e := by
  have found := t.skipPauses.polled
  generalize behind : t.skipPauses = u at found
  rw [await, behind]
  have still : u.armed = true := behind ▸ armed
  generalize u.poll.1 = e, u.poll.2 = next at found
  cases found with
  | pause script =>
    -- No pause is left in front.
    rw [← behind] at script
    have kept := List.head?_dropWhile_not (· == .pause) t.script
    rw [show t.script.dropWhile (· == .pause) = _ from script] at kept
    cases kept
  | interrupt => exact ⟨_, rfl⟩
  | line => exact ⟨_, rfl⟩
  | closed => exact ⟨_, rfl⟩
  | idle unarmed => cases still.symm.trans unarmed

/-- What a scripted terminal does after any calls, and at any further one. The lines and interrupts
that it has delivered are the first of its script in their order, and unless it has been disposed,
the others are still to come. A line is delivered only behind a read that was asked for since the
last delivery, and the end only behind all of the script while a read is outstanding. Each read that
was asked for before disposal, while none was outstanding, has shown its prompt, and no other has.
After disposal nothing is delivered and every read is refused; before, one who waits while a read is
outstanding gets an event. -/
theorem script_played_in_order (script : List ScriptStep) (calls : List Call) (c : Call) :
    let log := (new script).log calls
    let t := (new script).serveAll calls
    delivered log <+: withoutPauses script ∧
    (isDisposed log = false → delivered log ++ withoutPauses t.script = withoutPauses script) ∧
    (∀ line, (t.serve c).1 = .event (.line line) → ∃ earlier prompt later,
      log = earlier ++ ⟨.read prompt, .done⟩ :: later ∧ delivered later = []) ∧
    ((t.serve c).1 = .event .closed →
      outstanding log = true ∧ delivered log = withoutPauses script) ∧
    t.prompts = armedPrompts [] log ∧
    (∀ prompt, (t.serve (.read prompt)).1 = if isDisposed log then .refused .closed else .done) ∧
    (isDisposed log = true → ∀ e, (t.serve c).1 ≠ .event e) ∧
    (outstanding log = true → ∃ e, (t.serve .await).1 = .event e) := by
  intro log t
  have tracks : t.Tracks script log := tracks_serveAll script calls
  refine ⟨tracks.inOrder, tracks.played, fun line answer => ?_, fun answer => ?_, tracks.prompts,
    fun prompt => ?_, fun gone e answer => ?_, fun waits => ?_⟩
  · obtain ⟨u, next, tracks, polled⟩ := tracks.polled_of_event answer
    exact asked_of_outstanding (tracks.armed.symm.trans (armed_of_line polled))
  · obtain ⟨u, next, tracks, polled⟩ := tracks.polled_of_event answer
    cases polled with
    | closed spent armed =>
      have usable : isDisposed log = false := by
        cases gone : isDisposed log with
        | false => rfl
        | true => cases armed.symm.trans (tracks.cleared gone).2
      have played := tracks.played usable
      rw [spent] at played
      exact ⟨tracks.armed.symm.trans armed, (List.append_nil _).symm.trans played⟩
  · rw [serve_read, tracks.disposed]
    split <;> rfl
  · obtain ⟨u, next, tracks, polled⟩ := tracks.polled_of_event answer
    obtain ⟨empty, unarmed⟩ := tracks.cleared gone
    cases polled with
    | interrupt script => cases empty.symm.trans script
    | line script => cases empty.symm.trans script
    | closed _ armed => cases armed.symm.trans unarmed
  · obtain ⟨e, found⟩ := exists_await (tracks.armed.trans waits)
    exact ⟨e, congrArg Answer.ofEvent? found⟩

/-- A wait is given up at a pause that stands before the line, the next one gets the line, and the
one behind a further read gets the end. Once disposed, the terminal gives nothing. -/
theorem script_played_in_order_when_dropped :
    ∃ line : InputLine,
      let script := [.pause, .line line]
      let calls := [.read "> ", .poll]
      let more := calls ++ [.await, .read "> "]
      (((new script).serveAll calls).serve .await).1 = .event (.line line) ∧
      (∃ earlier prompt later, (new script).log calls = earlier ++ ⟨.read prompt, .done⟩ :: later ∧
        delivered later = []) ∧
      (((new script).serveAll more).serve .await).1 = .event .closed ∧
      delivered ((new script).log more) = withoutPauses script ∧
      isDisposed ((new script).log (more ++ [.dispose])) = true ∧
      ∀ e, (((new script).serveAll (more ++ [.dispose])).serve .await).1 ≠ .event e := by
  refine ⟨⟨"1"⟩, rfl, ?_, rfl, ?_, rfl, ?_⟩
  · exact (script_played_in_order [.pause, .line ⟨"1"⟩] [.read "> ", .poll] .await).2.2.1 _ rfl
  · exact ((script_played_in_order [.pause, .line ⟨"1"⟩] [.read "> ", .poll, .await, .read "> "]
      .await).2.2.2.1 rfl).2
  · exact (script_played_in_order [.pause, .line ⟨"1"⟩]
      [.read "> ", .poll, .await, .read "> ", .dispose] .await).2.2.2.2.2.2.1 rfl

end ScriptedTerminal

end LispRepl

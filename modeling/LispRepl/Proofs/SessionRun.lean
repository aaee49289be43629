import LispRepl.Proofs.BridgeTransition
import LispRepl.Session.Live
import LispRepl.Terminal.Scripted
import Mathlib.Logic.Relation

/-!
# Runs of a session

A run of a live session over a scripted terminal is a sequence of moves, each of which is one turn
of the session's loop or something the worker does meanwhile. What the worker does is a relation on
its link, so that a run may have a worker that answers as it should, one that answers anything, or
one that stops at any time.

- `LiveSession.Move`, `LiveSession.Reached`: one move, and what some moves lead to.
- `ScriptedTerminal.see`: what one effect does to a terminal that is not disposed.
- `LiveSession.performAll_eq`: carrying out effects shows them to the terminal in order, sends the
  commands among them, and changes nothing else.
- `ScriptedTerminal.armed_seeAll`, `ScriptedTerminal.prompts_seeAll`: what effects that ask for a
  line last leave on the terminal.
-/

set_option autoImplicit false

namespace LispRepl

/-! ## Effects on a scripted terminal -/

namespace ScriptedTerminal

/-- Arms a read with a prompt, unless one is armed. -/
def arm (t : ScriptedTerminal) (prompt : String) : ScriptedTerminal :=
  if t.armed then t else { t with armed := true }.record (.prompt prompt)

theorem readLine_eq {t : ScriptedTerminal} (usable : t.disposed = false) (prompt : String) :
    t.readLine prompt = .ok (t.arm prompt) := by
  rw [readLine, arm, usable]
  cases t.armed <;> rfl

/-- What the terminal makes of an effect, where it is not disposed. -/
def see (t : ScriptedTerminal) : Effect → ScriptedTerminal
  | .dispatch _ _ => t
  | .reset _ => t
  | .write text => t.writeLine text
  | .read prompt => t.arm prompt

/-- What the terminal makes of effects in order. -/
def seeAll (t : ScriptedTerminal) (effects : List Effect) : ScriptedTerminal :=
  effects.foldl see t

theorem disposed_arm (t : ScriptedTerminal) (prompt : String) :
    (t.arm prompt).disposed = t.disposed := by
  rw [arm]
  split <;> rfl

theorem disposed_see (t : ScriptedTerminal) (e : Effect) : (t.see e).disposed = t.disposed := by
  cases e with
  | read prompt => exact t.disposed_arm prompt
  | _ => rfl

theorem disposed_seeAll (effects : List Effect) (t : ScriptedTerminal) :
    (t.seeAll effects).disposed = t.disposed := by
  induction effects generalizing t with
  | nil => rfl
  | cons e effects ih => exact (ih (t.see e)).trans (t.disposed_see e)

/-- Output is no prompt. -/
theorem prompts_writeLine (t : ScriptedTerminal) (text : String) :
    (t.writeLine text).prompts = t.prompts := by
  simp [prompts, writeLine, record]

theorem prompts_arm {t : ScriptedTerminal} (unarmed : t.armed = false) (prompt : String) :
    (t.arm prompt).prompts = t.prompts ++ [prompt] := by
  simp [arm, unarmed, prompts, record]

theorem armed_arm (t : ScriptedTerminal) (prompt : String) : (t.arm prompt).armed = true := by
  rw [arm]
  split
  · assumption
  · rfl

theorem arm_of_armed {t : ScriptedTerminal} (armed : t.armed = true) (prompt : String) :
    t.arm prompt = t := by
  rw [arm, if_pos armed]

theorem see_of_not_read (t : ScriptedTerminal) {e : Effect} (quiet : e.isRead = false) :
    (t.see e).armed = t.armed ∧ (t.see e).prompts = t.prompts := by
  cases e with
  | read prompt => cases quiet
  | write text => exact ⟨rfl, t.prompts_writeLine text⟩
  | dispatch generation line => exact ⟨rfl, rfl⟩
  | reset generation => exact ⟨rfl, rfl⟩

/-- Effects that ask for no line leave the read and the prompts as they are. -/
theorem seeAll_of_quiet {effects : List Effect} (quiet : ∀ e ∈ effects, e.isRead = false)
    (t : ScriptedTerminal) :
    (t.seeAll effects).armed = t.armed ∧ (t.seeAll effects).prompts = t.prompts := by
  induction effects generalizing t with
  | nil => exact ⟨rfl, rfl⟩
  | cons e effects ih =>
    have first := t.see_of_not_read (quiet e List.mem_cons_self)
    have others := ih (fun e he => quiet e (List.mem_cons_of_mem _ he)) (t.see e)
    exact ⟨others.1.trans first.1, others.2.trans first.2⟩

theorem seeAll_append (t : ScriptedTerminal) (first others : List Effect) :
    t.seeAll (first ++ others) = (t.seeAll first).seeAll others :=
  List.foldl_append

/-- A terminal without a read that sees effects of which the last alone asks for a line has a read
armed with the prompt of that one. -/
theorem seeAll_of_unarmed {t : ScriptedTerminal} (unarmed : t.armed = false)
    {others : List Effect} (quiet : ∀ e ∈ others, e.isRead = false) (prompt : String) :
    (t.seeAll (others ++ [.read prompt])).armed = true ∧
      (t.seeAll (others ++ [.read prompt])).prompts = t.prompts ++ [prompt] := by
  have before := t.seeAll_of_quiet quiet
  rw [seeAll_append]
  refine ⟨armed_arm _ prompt, ?_⟩
  have added := prompts_arm (before.1.trans unarmed) prompt
  rwa [before.2] at added

/-- A terminal with a read keeps it, and the prompt it was armed with. -/
theorem seeAll_of_armed {t : ScriptedTerminal} (armed : t.armed = true)
    {others : List Effect} (quiet : ∀ e ∈ others, e.isRead = false) (prompt : String) :
    (t.seeAll (others ++ [.read prompt])).armed = true ∧
      (t.seeAll (others ++ [.read prompt])).prompts = t.prompts := by
  have before := t.seeAll_of_quiet quiet
  rw [seeAll_append]
  have same := arm_of_armed (before.1.trans armed) prompt
  exact ⟨armed_arm _ prompt, (congrArg prompts same).trans before.2⟩

/-! ## Events of a scripted terminal -/

/-- What asking a terminal for an event once can come to. -/
inductive Polled (t : ScriptedTerminal) : Option TerminalEvent → ScriptedTerminal → Prop where
  | pause {rest : List ScriptStep} : t.script = .pause :: rest →
    Polled t none { t with script := rest }
  | interrupt {signal : String} {rest : List ScriptStep} : t.script = .interrupt signal :: rest →
    Polled t (some (.interrupt signal))
      ({ t with script := rest, armed := false }.record (.event (.interrupt signal)))
  | line {line : InputLine} {rest : List ScriptStep} : t.script = .line line :: rest →
    t.armed = true →
    Polled t (some (.line line))
      ({ t with script := rest, armed := false }.record (.event (.line line)))
  | closed : t.script = [] → t.armed = true →
    Polled t (some .closed) (t.record (.event .closed))
  /-- Nothing comes until a read is armed. -/
  | idle : t.armed = false → Polled t none t

theorem polled (t : ScriptedTerminal) : Polled t t.poll.1 t.poll.2 := by
  rw [poll]
  cases script : t.script with
  | nil =>
    cases armed : t.armed with
    | true => exact .closed script armed
    | false => exact .idle armed
  | cons step rest =>
    cases step with
    | pause => exact .pause script
    | interrupt signal => exact .interrupt script
    | line line =>
      cases armed : t.armed with
      | true => exact .line script armed
      | false => exact .idle armed

variable {t next : ScriptedTerminal}

/-- Asking for an event adds no prompt and does not dispose the terminal. -/
theorem poll_keeps {e : Option TerminalEvent} (step : Polled t e next) :
    next.prompts = t.prompts ∧ next.disposed = t.disposed := by
  cases step <;> simp [prompts, record]

/-- A line or an interrupt ends the read; no event leaves it as it is. -/
theorem poll_armed {e : Option TerminalEvent} (step : Polled t e next) (goes : e ≠ some .closed) :
    next.armed = (e.isNone && t.armed) := by
  cases step with
  | closed => exact absurd rfl goes
  | _ => rfl

/-- A line is delivered to an armed read only. -/
theorem armed_of_line {line : InputLine} (step : Polled t (some (.line line)) next) :
    t.armed = true := by
  cases step
  assumption

end ScriptedTerminal

/-! ## Moves -/

namespace LiveSession

variable {σ : Type}

/-- One move of a live session over a scripted terminal: a turn of its loop, for which the session
must not have ended, or something the worker does. -/
inductive Move (behaves : Link σ → Link σ → Prop) (spawn : Nat → Option σ) :
    LiveSession ScriptedTerminal σ → LiveSession ScriptedTerminal σ → Prop where
  | worker {s : LiveSession ScriptedTerminal σ} {l m : Link σ} :
    s.link = some l → behaves l m → Move behaves spawn s { s with link := some m }
  /-- The terminal is asked and has no event yet. -/
  | pause {s : LiveSession ScriptedTerminal σ} {t : ScriptedTerminal} :
    s.ending = none → s.terminal.poll = (none, t) →
    Move behaves spawn s { s with terminal := t }
  | event {s : LiveSession ScriptedTerminal σ} {e : TerminalEvent} {t : ScriptedTerminal} :
    s.ending = none → s.terminal.poll = (some e, t) →
    Move behaves spawn s ({ s with terminal := t }.onEvent e)
  | deliver {s : LiveSession ScriptedTerminal σ} :
    s.ending = none → Move behaves spawn s s.deliver
  | loss {s : LiveSession ScriptedTerminal σ} {l : Link σ} :
    s.ending = none → s.link = some l → l.isLost = true →
    Move behaves spawn s (s.noticeLoss spawn)

/-- The session after some moves from its start. -/
def Reached (behaves : Link σ → Link σ → Prop) (spawn : Nat → Option σ) (prompts : Prompts)
    (maxRestarts : Nat) (script : List ScriptStep) (s : LiveSession ScriptedTerminal σ) : Prop :=
  Relation.ReflTransGen (Move behaves spawn)
    (start spawn (Session.new prompts maxRestarts) (.new script)) s

/-- Carrying out effects shows them to the terminal, and neither ends the session nor changes what
it knows. -/
theorem performAll_eq (effects : List Effect) {s : LiveSession ScriptedTerminal σ}
    (goes : s.ending = none) (usable : s.terminal.disposed = false) :
    (s.performAll effects).session = s.session ∧
      (s.performAll effects).terminal = s.terminal.seeAll effects ∧
      (s.performAll effects).ending = none := by
  induction effects generalizing s with
  | nil => exact ⟨rfl, rfl, goes⟩
  | cons e effects ih =>
    -- A terminal that is not disposed refuses nothing, and commands do not reach it.
    have seen : (s.perform e).session = s.session ∧ (s.perform e).terminal = s.terminal.see e ∧
        (s.perform e).ending = none := by
      cases e with
      | read prompt =>
        have armed : Terminal.readLine s.terminal prompt = .ok (s.terminal.arm prompt) :=
          ScriptedTerminal.readLine_eq usable prompt
        rw [perform, armed]
        exact ⟨rfl, rfl, goes⟩
      | _ => exact ⟨rfl, rfl, goes⟩
    obtain ⟨session, terminal, ending⟩ := seen
    have still : (s.perform e).terminal.disposed = false := by
      rw [terminal, s.terminal.disposed_see e, usable]
    have others := ih ending still
    rw [session, terminal] at others
    rw [performAll, goes]
    exact others

end LiveSession

end LispRepl

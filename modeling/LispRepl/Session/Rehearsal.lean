import LispRepl.Session.Live
import LispRepl.Terminal.Line
import LispRepl.Terminal.Scripted

/-!
# Rehearsals

A rehearsal is one run of a live session among many: the worker is never late, so that all its
responses are delivered and every loss is noticed before the terminal's next event, except where
the script asks for an interrupt that comes first.

- `Cue`: what a script asks for next.
- `LiveSession.rehearse`: the run of a live session over a scripted terminal.
- `LiveSession.runPiped`: the run of a live session over a line terminal with its input given.
-/

set_option autoImplicit false

namespace LispRepl

/-- What a script asks for next. -/
inductive Cue where
  /-- A line, once a read is armed. -/
  | line (line : InputLine)
  /-- An interrupt, once a read is armed. -/
  | interrupt (signal : String)
  /-- An interrupt right behind the cue before, ahead of everything the worker may answer. -/
  | interruptInFlight (signal : String)
  /-- Nothing, once this many workers have been started. -/
  | awaitSpawns (count : Nat)
  /-- Nothing but time. -/
  | pause
deriving DecidableEq

namespace LiveSession

variable {σ : Type} [Service σ]

/-- The terminal plays one step and delivers the event it comes to, if it does. -/
def play (s : LiveSession ScriptedTerminal σ) (step : List ScriptStep) :
    LiveSession ScriptedTerminal σ :=
  match { s.terminal with script := step }.poll with
  | (some e, terminal) => { s with terminal }.onEvent e
  | (none, terminal) => { s with terminal }

/-- The live session follows a cue, as far as it can. -/
def follow (spawn : Nat → Option σ) (s : LiveSession ScriptedTerminal σ) :
    Cue → LiveSession ScriptedTerminal σ
  | .interruptInFlight signal => s.play [.interrupt signal]
  | .line line =>
    let s := s.settle spawn
    if s.ending.isSome then s else s.play [.line line]
  | .interrupt signal =>
    let s := s.settle spawn
    if s.ending.isSome then s else s.play [.interrupt signal]
  | .awaitSpawns _ => s.settle spawn
  | .pause => s

/-- The run of a script; the terminal is closed behind it. -/
def rehearse (spawn : Nat → Option σ) (s : LiveSession ScriptedTerminal σ) :
    List Cue → LiveSession ScriptedTerminal σ
  | [] =>
    let s := s.settle spawn
    if s.ending.isSome then s else s.play []
  | cue :: cues =>
    if s.ending.isSome then s else (s.follow spawn cue).rehearse spawn cues

/-- The run over a terminal that has its input, event by event, for a bounded number of events. -/
def runEvents (spawn : Nat → Option σ) :
    Nat → LiveSession PipedTerminal σ → LiveSession PipedTerminal σ
  | 0, s => s
  | events + 1, s =>
    let s := s.settle spawn
    if s.ending.isSome then s
    else match s.terminal.nextEvent with
    | (none, _) => s
    | (some e, terminal) => runEvents spawn events ({ s with terminal }.onEvent e)

/-- The run over a terminal that has its input. Each line is an event, and so is the end. -/
def runPiped (spawn : Nat → Option σ) (s : LiveSession PipedTerminal σ) :
    LiveSession PipedTerminal σ :=
  s.runEvents spawn (s.terminal.input.length + 2)

end LiveSession

end LispRepl

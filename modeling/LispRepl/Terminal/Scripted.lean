import LispRepl.Terminal

/-!
# Scripted terminals

A scripted terminal plays a fixed sequence of events. A line is delivered only once a read is
armed, as by a user who waits for the prompt; an interrupt is delivered as soon as it is next,
armed or not; a pause holds back what follows it once and changes nothing else. When the script is
over, an armed terminal is closed. Every delivered line or interrupt disarms it. After disposal it
arms no more and has nothing to deliver.

A transcript records, in order, the prompts that armed a read, the output and the events.

- `ScriptStep`, `Entry`, `ScriptedTerminal`: the script, the transcript, the terminal.
- `ScriptedTerminal.poll`: what asking for an event once gives.
- `ScriptedTerminal.await`: what waiting for an event gives.
-/

set_option autoImplicit false

namespace LispRepl

/-- A step of a script. -/
inductive ScriptStep where
  | line (line : InputLine)
  | interrupt (signal : String)
  | pause
deriving DecidableEq

/-- An entry of a transcript. -/
inductive Entry where
  /-- A read was armed with this prompt. -/
  | prompt (text : String)
  | output (text : String)
  | event (event : TerminalEvent)
deriving DecidableEq

/-- A terminal that plays a script. -/
structure ScriptedTerminal where
  script : List ScriptStep
  armed : Bool
  disposed : Bool
  transcript : List Entry
deriving DecidableEq

namespace ScriptedTerminal

/-- The terminal before anything is asked of it. -/
def new (script : List ScriptStep) : ScriptedTerminal :=
  ⟨script, false, false, []⟩

/-- Adds an entry to the transcript. -/
def record (t : ScriptedTerminal) (e : Entry) : ScriptedTerminal :=
  { t with transcript := t.transcript ++ [e] }

/-- The prompts that armed a read. -/
def prompts (t : ScriptedTerminal) : List String :=
  t.transcript.filterMap fun
    | .prompt text => some text
    | _ => none

/-- The output so far. -/
def output (t : ScriptedTerminal) : List String :=
  t.transcript.filterMap fun
    | .output text => some text
    | _ => none

/-- Arms a read, unless one is armed. -/
def readLine (t : ScriptedTerminal) (prompt : String) : Except TerminalError ScriptedTerminal :=
  if t.disposed then .error .closed
  else if t.armed then .ok t
  else .ok ({ t with armed := true }.record (.prompt prompt))

/-- Shows a line of output. -/
def writeLine (t : ScriptedTerminal) (text : String) : ScriptedTerminal :=
  t.record (.output text)

/-- Asks for an event once: gives it if it is there, and drops a pause that is next. -/
def poll (t : ScriptedTerminal) : Option TerminalEvent × ScriptedTerminal :=
  match t.script with
  | .pause :: rest => (none, { t with script := rest })
  | .interrupt signal :: rest =>
    (some (.interrupt signal),
      { t with script := rest, armed := false }.record (.event (.interrupt signal)))
  | .line line :: rest =>
    if t.armed then
      (some (.line line),
        { t with script := rest, armed := false }.record (.event (.line line)))
    else (none, t)
  | [] => if t.armed then (some .closed, t.record (.event .closed)) else (none, t)

/-- The terminal with the pauses that are next dropped. -/
def skipPauses (t : ScriptedTerminal) : ScriptedTerminal :=
  { t with script := t.script.dropWhile (· == .pause) }

/-- Waits for an event; none where nothing will come until a read is armed. -/
def await (t : ScriptedTerminal) : Option TerminalEvent × ScriptedTerminal :=
  t.skipPauses.poll

/-- Ends the terminal. -/
def dispose (t : ScriptedTerminal) : ScriptedTerminal :=
  { t with script := [], armed := false, disposed := true }

end ScriptedTerminal

instance : Terminal ScriptedTerminal where
  readLine := ScriptedTerminal.readLine
  writeLine t text := .ok (t.writeLine text)

end LispRepl

import LispRepl.Terminal
import LispRepl.Text.Lines
import LispRepl.Text.Utf8

/-!
# Line terminals

A line terminal has an editor that takes commands from a queue: to read a line after a prompt, to
write a line, or to stop. Output goes through the same queue as prompts, so that it keeps its
place among them. What the editor reads goes back through a queue of events, together with the
interrupts that come while no line is being edited; only an event of the first kind ends the read
that is outstanding. At the end of its input, and when it fails to read, the editor reports that
the terminal is closed and stops. Its queue goes on taking commands until the editor, which has
other things to put in order first, lets go of it; nobody carries these out.

- `EditorCommand`, `Delivered`, `LineTerminal`: the queues and the state.
- `LineTerminal.readLine`, `writeLine`, `nextEvent`, `dispose`: what a session does.
- `LineTerminal.edit`: what the editor does with its next command.
- `LineTerminal.leave`: the end of the queue of commands.
- `LineTerminal.signal`: an interrupt from outside.
- `PipedTerminal`: a line terminal whose input is given beforehand.
-/

set_option autoImplicit false

namespace LispRepl

/-- What the editor is asked to do. -/
inductive EditorCommand where
  | read (prompt : String)
  | write (text : String)
  | shutdown
deriving DecidableEq

/-- How the reading of one line ended. -/
inductive ReadResult where
  | line (line : InputLine)
  | interrupted
  /-- The input is over, or cannot be read. -/
  | ended
deriving DecidableEq

/-- The event that a line read is delivered as. -/
def ReadResult.event : ReadResult → TerminalEvent
  | .line read => .line read
  | .interrupted => .interrupt "SIGINT"
  | .ended => .closed

/-- An event on its way to the session, and whether it ends the outstanding read. -/
structure Delivered where
  event : TerminalEvent
  endsRead : Bool
deriving DecidableEq

/-- The state of a line terminal. -/
structure LineTerminal where
  commands : List EditorCommand
  events : List Delivered
  /-- A read is outstanding. -/
  reading : Bool
  closed : Bool
  /-- The editor carries out no more commands. -/
  stopped : Bool
  /-- The queue takes no more commands. -/
  refuses : Bool
  /-- Prompts are shown, without a line end. -/
  showsPrompts : Bool
  /-- What has been shown. -/
  shown : String
deriving DecidableEq

namespace LineTerminal

/-- The terminal before anything is asked of it. -/
def new (showsPrompts : Bool) : LineTerminal :=
  ⟨[], [], false, false, false, false, showsPrompts, ""⟩

/-- Queues a command, whether it will be carried out or not, unless the queue is gone. -/
def send (t : LineTerminal) (c : EditorCommand) : Except TerminalError LineTerminal :=
  if t.refuses then .error .closed else .ok { t with commands := t.commands ++ [c] }

/-- Asks for a line, unless one is outstanding. -/
def readLine (t : LineTerminal) (prompt : String) : Except TerminalError LineTerminal :=
  if t.closed then .error .closed
  else if t.reading then .ok t
  else (t.send (.read prompt)).map fun t => { t with reading := true }

/-- Asks for a line of output. -/
def writeLine (t : LineTerminal) (text : String) : Except TerminalError LineTerminal :=
  t.send (.write text)

/-- Takes the next event, if there is one. -/
def nextEvent (t : LineTerminal) : Option TerminalEvent × LineTerminal :=
  match t.events with
  | [] => (none, t)
  | d :: rest =>
    (some d.event,
      { t with
        events := rest
        reading := t.reading && !d.endsRead
        closed := t.closed || d.event == .closed })

/-- An interrupt while no line is being edited. -/
def signal (t : LineTerminal) : LineTerminal :=
  { t with events := t.events ++ [⟨.interrupt "SIGINT", false⟩] }

/-- The editor takes its next command; `result` is how reading a line ends if the command is to
read one. -/
def edit (t : LineTerminal) (result : ReadResult) : LineTerminal :=
  if t.stopped then t
  else match t.commands with
  | [] => t
  | .read prompt :: rest =>
    { t with
      commands := rest
      events := t.events ++ [⟨result.event, true⟩]
      stopped := result == .ended
      shown := if t.showsPrompts then t.shown ++ prompt else t.shown }
  | .write text :: rest => { t with commands := rest, shown := t.shown ++ text ++ "\n" }
  | .shutdown :: rest => { t with commands := rest, stopped := true }

/-- An editor that has stopped lets go of its queue, with the commands that are left in it. -/
def leave (t : LineTerminal) : LineTerminal :=
  if t.stopped then { t with commands := [], refuses := true } else t

/-- Tells the editor to stop and closes the terminal. -/
def dispose (t : LineTerminal) : LineTerminal :=
  { t with commands := t.commands ++ [.shutdown], closed := true }

end LineTerminal

instance : Terminal LineTerminal where
  readLine := LineTerminal.readLine
  writeLine := LineTerminal.writeLine

/-- How reading a line ends that has these bytes: a line that is no text cannot be read. -/
def ReadResult.ofBytes (bytes : List UInt8) : ReadResult :=
  match Text.decode? bytes with
  | some cs => .line ⟨String.ofList cs⟩
  | none => .ended

/-- A line terminal whose editor is never late, with what it will read. -/
structure PipedTerminal where
  terminal : LineTerminal
  input : List ReadResult

namespace PipedTerminal

/-- The terminal that reads these bytes. -/
def new (showsPrompts : Bool) (input : List UInt8) : PipedTerminal :=
  ⟨.new showsPrompts, (Text.splitLines input).map ReadResult.ofBytes⟩

/-- The editor takes its next command, reading from the input, and leaves as soon as it has stopped;
the end follows the input. -/
def edit (t : PipedTerminal) : PipedTerminal :=
  let terminal := (t.terminal.edit (t.input.head?.getD .ended)).leave
  match t.terminal.commands with
  | .read _ :: _ => ⟨terminal, t.input.tail⟩
  | _ => ⟨terminal, t.input⟩

/-- The editor takes as many commands as are queued. -/
def settle (t : PipedTerminal) : PipedTerminal :=
  t.terminal.commands.foldl (fun t _ => t.edit) t

/-- Does something to the terminal, and lets the editor follow. -/
def act (t : PipedTerminal) (f : LineTerminal → LineTerminal) : PipedTerminal :=
  settle { t with terminal := f t.terminal }

/-- Arms a read. -/
def readLine (t : PipedTerminal) (prompt : String) : Except TerminalError PipedTerminal :=
  (t.terminal.readLine prompt).map fun terminal => settle { t with terminal }

/-- Shows a line of output. -/
def writeLine (t : PipedTerminal) (text : String) : Except TerminalError PipedTerminal :=
  (t.terminal.writeLine text).map fun terminal => settle { t with terminal }

/-- Takes the next event, if there is one. -/
def nextEvent (t : PipedTerminal) : Option TerminalEvent × PipedTerminal :=
  let (event, terminal) := t.terminal.nextEvent
  (event, { t with terminal })

end PipedTerminal

instance : Terminal PipedTerminal where
  readLine := PipedTerminal.readLine
  writeLine := PipedTerminal.writeLine

end LispRepl

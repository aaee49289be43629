import LispRepl.Program

/-!
# The command

Reads what a run needs, performs the run and shows what it leaves. Commands that come as lines are
answered line by line, and so are the lines of a user at a screen.
-/

set_option autoImplicit false

namespace LispRepl

/-- The bytes up to the next line feed, which is one of them; none at the end of the input. -/
partial def readPiece (input : IO.FS.Stream) (acc : ByteArray) : IO (Option (List UInt8)) := do
  let bytes ← input.read 1
  match bytes.toList with
  | [] => return if acc.isEmpty then none else some acc.toList
  | b :: _ =>
    let acc := acc.push b
    if b = 10 then return some acc.toList else readPiece input acc

/-- The whole of the input. -/
partial def readAll (input : IO.FS.Stream) (acc : ByteArray) : IO (List UInt8) := do
  let bytes ← input.read 65536
  if bytes.isEmpty then return acc.toList else readAll input (acc ++ bytes)

/-- What a path leads to. -/
def readPath (path : String) : IO FileContent := do
  try
    return .bytes (← IO.FS.readBinFile path).toList
  catch
    | .inappropriateType _ code _ => return if code = 21 then .directory else .behindFile
    | _ => return .missing

/-- Shows what a run leaves. -/
def leave (exit : Exit) : IO UInt32 := do
  (← IO.getStdout).putStr exit.output
  (← IO.getStderr).putStr exit.diagnostics
  return exit.code.toUInt32

/-- Answers commands as they come. -/
partial def serveStream (input output : IO.FS.Stream) (worker : LispWorker) : IO Performed := do
  match ← readPiece input ByteArray.empty with
  | none => return .shows []
  | some piece =>
    match Text.decode? ((Text.splitLines piece).head?.getD []) with
    | none => return .fails "Worker I/O failed" [ReadFault.notText.message]
    | some cs =>
      let (responses, worker) := worker.serveLine (String.ofList cs)
      output.putStr (linesText (responses.map Response.encode))
      output.flush
      match worker with
      | some worker => serveStream input output worker
      | none => return .shows []

/-- Converses with a user at a screen; `shown` lines of output have been shown. -/
partial def converse (input output : IO.FS.Stream) (spawn : Nat → Option LispWorker)
    (s : LiveSession ScriptedTerminal LispWorker) (shown : Nat) : IO Performed := do
  let s := s.settle spawn
  output.putStr (linesText (s.terminal.output.drop shown))
  let shown := s.terminal.output.length
  match s.ending with
  | some .left => return .shows []
  | some ending => return .fails "REPL session failed" [ending.message]
  | none =>
    output.putStr (s.terminal.prompts.getLast?.getD "")
    output.flush
    match ← readPiece input ByteArray.empty with
    | none => converse input output spawn (s.play []) shown
    | some piece => converse input output spawn (s.play [.line (.ofBytes piece)]) shown

/-- A session with a user at a screen. -/
def converseWith (config : Config) : IO Performed := do
  let output ← IO.getStdout
  output.putStrLn (Program.title ++ " - type :help for assistance, Ctrl-D to exit")
  let spawn : Nat → Option LispWorker := fun _ => some (LispWorker.new config.session.maxEvalDepth)
  let session := Session.new config.terminal.prompts config.session.maxRestarts
  converse (← IO.getStdin) output spawn
    (LiveSession.start spawn session (ScriptedTerminal.new [])) 0

/-- The variables of the environment that matter. -/
def environmentNames : List String :=
  ["XDG_CONFIG_HOME", "HOME", "APPDATA", "LISP_SESSION_LOG"]

/-- The value under a name. -/
def lookUp {α : Type} (entries : List (String × α)) (name : String) : Option α :=
  (entries.find? fun e => e.1 == name).map Prod.snd

end LispRepl

open LispRepl in
/-- The command. -/
def main (arguments : List String) : IO UInt32 := do
  let command := CommandLine.ofArguments arguments
  let environment ← environmentNames.filterMapM fun name =>
    return (← IO.getEnv name).map fun value => (name, value)
  let input ← IO.getStdin
  match command with
  | .options o =>
    let files ← (o.paths (lookUp environment)).mapM fun path => return (path, ← readPath path)
    let found (bytes : List UInt8) : Surroundings :=
      ⟨lookUp environment, fun path => (lookUp files path).getD .missing, bytes⟩
    match o.config (found []) with
    | .error _ => leave (o.run (found []))
    | .ok config =>
      match o.task with
      | .worker maxDepth =>
        leave (o.exit (← serveStream input (← IO.getStdout) (LispWorker.new maxDepth)))
      | .repl =>
        if ← input.isTty then leave (o.exit (← converseWith config))
        else leave (o.run (found (← readAll input ByteArray.empty)))
      | _ => leave (o.run (found []))
  | c => leave (c.run ⟨lookUp environment, fun _ => .missing, []⟩)

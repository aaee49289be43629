import LispRepl.CommandLine
import LispRepl.Config
import LispRepl.Session.Rehearsal
import LispRepl.SourceFile
import LispRepl.Worker.Lisp
import LispRepl.Worker.Stdio

/-!
# The program

A run of the program, as a function of what the program finds: its arguments, the environment, the
files and the whole of its input, where the input comes from no screen.

The service of a worker needs no configuration. Every other task reads it first, even the one that
tells the version. A run that fails shows nothing but a report of the causes, and its code is one.

- `Surroundings`, `Exit`: what a run finds and what it leaves.
- `Failure.report`: the wording of a failed run.
- `CommandLine.run`: the run.
-/

set_option autoImplicit false

namespace LispRepl

namespace Program

/-- The name of the program. -/
def name : String := "lisp-session"

/-- The version of the program. -/
def version : String := "0.1.0"

/-- The name and the version. -/
def title : String := name ++ " " ++ version

/-- The system that the program runs on. -/
def host : String := "linux"

/-- What is shown where help is asked for. -/
def helpLines : List String :=
  [name, "",
   "Usage: lisp-session [OPTIONS] [COMMAND]", "",
   "Commands:",
   "  repl     Start the interactive REPL (default)",
   "  eval     Evaluate code from the command line",
   "  run      Evaluate a source file",
   "  version  Print version information",
   "  help     Print this message or the help of the given subcommand(s)", "",
   "Options:",
   "  -v, --verbose            Enable verbose output (debug logging)",
   "      --log-level <LEVEL>  Log level: debug, info, warn or error",
   "      --config <PATH>      Config file to use instead of the user config",
   "      --isolation <MODE>   Where the evaluator runs: thread or process",
   "  -h, --help               Print help",
   "  -V, --version            Print version"]

/-- What is shown where the arguments are wrong. -/
def misuseLines : List String :=
  ["error: invalid arguments", "", "Usage: lisp-session [OPTIONS] [COMMAND]", "",
   "For more information, try '--help'."]

end Program

/-- Lines as a text, each with its line feed. -/
def linesText (lines : List String) : String :=
  String.join (lines.map fun l => l ++ "\n")

/-- What a run finds. -/
structure Surroundings where
  /-- The variables of the environment. -/
  environment : String → Option String
  /-- What each path leads to. -/
  file : String → FileContent
  /-- The whole of the input. -/
  input : List UInt8

/-- What a run leaves: its code and the texts shown and reported. -/
structure Exit where
  code : Nat
  output : String
  diagnostics : String
deriving DecidableEq

/-! ## Failure -/

/-- Why a run fails: what could not be done, and the causes, of which each comes from the next. -/
structure Failure where
  summary : String
  causes : List String
deriving DecidableEq

namespace Failure

/-- A text whose lines but the first are indented. -/
def indented (margin : List Char) (s : String) : String :=
  String.ofList (s.toList.flatMap fun c => if c = '\n' then c :: margin else [c])

/-- Causes with their numbers. -/
def numbered : Nat → List String → String
  | _, [] => ""
  | n, cause :: causes =>
    "\n    " ++ Text.natText n ++ ": " ++ indented (List.replicate 7 ' ') cause ++
      numbered (n + 1) causes

/-- The report of a failure: the causes follow, numbered if there are several. -/
def report (f : Failure) : String :=
  "Error: " ++ f.summary ++
    (match f.causes with
    | [] => ""
    | [cause] => "\n\nCaused by:\n    " ++ indented (List.replicate 4 ' ') cause
    | causes => "\n\nCaused by:" ++ numbered 0 causes) ++ "\n"

end Failure

/-- The causes of a missing configuration, where the file is at `path`. -/
def Config.ConfigError.causes (path : String) : Config.ConfigError → List String
  | .unreadable fault => ["cannot read " ++ path ++ ": " ++ fault.message, fault.message]
  | .invalid => ["invalid config " ++ path]

/-- The wording of how a session ended, where it failed. -/
def Ending.message : Ending → String
  | .left => ""
  | .workerLost losses => workerLostMessage losses
  | .workerFailed => "evaluation worker could not be started"
  | .terminalFailed error => error.message
  | .bridgeFailed error => error.message

/-! ## Tasks -/

/-- What a task shows, and why it fails if it does. -/
structure Performed where
  output : String
  failure : Option Failure
deriving DecidableEq

namespace Performed

/-- A task that shows some lines and does not fail. -/
def shows (lines : List String) : Performed := ⟨linesText lines, none⟩

/-- A task that shows nothing and fails. -/
def fails (summary : String) (causes : List String) : Performed := ⟨"", some ⟨summary, causes⟩⟩

/-- A text on a line of its own; the empty text is not shown. -/
def ofText (s : String) : Performed :=
  if s = "" then .shows [] else .shows [s]

/-- The evaluation of some code. -/
def eval (limit : Nat) (code : String) : Performed :=
  match evalSource limit code with
  | .ok text => .ofText text
  | .error e => .fails "Failed to evaluate code" [e.message]

/-- The evaluation of a file. -/
def run (limit : Nat) (path : String) (file : FileContent) : Performed :=
  match runFile limit path file with
  | .ok text => .ofText text
  | .error e => .fails ("Failed to run: " ++ path) e.chain

/-- The service of commands that come as lines. -/
def serve (limit : Nat) (input : List UInt8) : Performed :=
  match (LispWorker.new limit).serve input with
  | (lines, .finished) => .shows lines
  | (lines, .notText) =>
    ⟨linesText lines, some ⟨"Worker I/O failed", [ReadFault.notText.message]⟩⟩

/-- The lines of an input that need not be a text. -/
def inputLines (input : List UInt8) : List InputLine :=
  (Text.splitFeeds input).map fun piece => .ofBytes piece.1

/-- A session over the lines of an input, its workers given. -/
def sessionOver {σ : Type} [Service σ] (worker : σ) (config : Config) (input : List UInt8) :
    Performed :=
  let spawn : Nat → Option σ := fun _ => some worker
  let session := Session.new config.terminal.prompts config.session.maxRestarts
  let s := (LiveSession.start spawn session (ScriptedTerminal.new [])).rehearse spawn
    ((inputLines input).map Cue.line)
  let output := linesText s.terminal.output
  match s.ending with
  | none | some .left => ⟨output, none⟩
  | some ending => ⟨output, some ⟨"REPL session failed", [ending.message]⟩⟩

/-- A session over an input. The worker is reached by lines where it is isolated in a process. -/
def repl (isolation : Isolation) (config : Config) (input : List UInt8) : Performed :=
  match isolation with
  | .thread => sessionOver (LispWorker.new config.session.maxEvalDepth) config input
  | .process =>
    sessionOver (LineWorker.mk (LispWorker.new config.session.maxEvalDepth)) config input

end Performed

/-! ## The run -/

namespace Options

/-- The task needs the configuration. -/
def needsConfig (o : Options) : Bool :=
  match o.task with
  | .worker _ => false
  | _ => true

/-- The path of the configuration file, if there is one to read. -/
def configPath (o : Options) (environment : String → Option String) : Option String :=
  if o.needsConfig then o.configFile.or (Config.path environment) else none

/-- The paths of the files that a run reads. -/
def paths (o : Options) (environment : String → Option String) : List String :=
  (o.configPath environment).toList ++
    match o.task with
    | .run file => [file]
    | _ => []

/-- The configuration, or why there is none. -/
def config (o : Options) (s : Surroundings) : Except Failure Config :=
  match o.configPath s.environment with
  | none => .ok .standard
  | some path =>
    (Config.ofFile (s.file path)).mapError fun e =>
      ⟨"Failed to load configuration", e.causes path⟩

/-- Performs the task. -/
def perform (o : Options) (config : Config) (s : Surroundings) : Performed :=
  match o.task with
  | .repl => .repl (o.isolation.getD config.session.isolation) config s.input
  | .eval code => .eval config.session.maxEvalDepth code
  | .run file => .run config.session.maxEvalDepth file (s.file file)
  | .worker maxDepth => .serve maxDepth s.input
  | .version => .shows [Program.title]

/-- How much the program says about itself; asking it to say much counts before a named level. -/
def level (o : Options) (config : Config) (s : Surroundings) : LogLevel :=
  LogLevel.resolve (if o.verbose then some .debug else o.logLevel)
    (s.environment "LISP_SESSION_LOG") config.logLevel

/-- What is said about the program where it is asked to say much. -/
def preamble (o : Options) : String :=
  if o.verbose then
    linesText [Program.name ++ " version: " ++ Program.version, "Host: " ++ Program.host]
  else ""

/-- What a task leaves. -/
def exit (o : Options) (p : Performed) : Exit :=
  match p.failure with
  | none => ⟨0, p.output, o.preamble⟩
  | some f => ⟨1, p.output, o.preamble ++ f.report⟩

/-- The run with these options. -/
def run (o : Options) (s : Surroundings) : Exit :=
  match o.config s with
  | .error f => ⟨1, "", f.report⟩
  | .ok config => o.exit (o.perform config s)

end Options

/-- The run that the arguments ask for. -/
def CommandLine.run (c : CommandLine) (s : Surroundings) : Exit :=
  match c with
  | .options o => o.run s
  | .help => ⟨0, linesText Program.helpLines, ""⟩
  | .version => ⟨0, linesText [Program.title], ""⟩
  | .misuse => ⟨2, "", linesText Program.misuseLines⟩

end LispRepl

import LispRepl.Bridge
import LispRepl.Eval
import LispRepl.FileContent
import LispRepl.Isolation
import LispRepl.LogLevel
import LispRepl.Toml.Document

/-!
# Configuration

The configuration is a TOML document of three tables. Every key has a standard value, and keys
that are not known are ignored. A table may also be given as an array of its values in order, and
a date stands for a table without known keys. One of several words may also be given as a table
whose only key is the word, with an empty value.

- `Config`: what can be configured.
- `Config.ofToml?`: the configuration of a document.
- `Config.ofFile`: the configuration of a file, which may be missing.
- `Config.path`: where the file is looked for.
-/

set_option autoImplicit false

namespace LispRepl

/-- What can be configured about the terminal. -/
structure TerminalConfig where
  prompts : Prompts
  viMode : Bool
  historyFile : Option String
  historySize : Nat
  colors : Bool
deriving DecidableEq

/-- What can be configured about the session and its worker. -/
structure SessionConfig where
  isolation : Isolation
  maxRestarts : Nat
  maxEvalDepth : Nat
deriving DecidableEq

/-- The configuration. -/
structure Config where
  terminal : TerminalConfig
  session : SessionConfig
  logLevel : LogLevel
deriving DecidableEq

namespace Config

/-- The configuration where nothing is configured. -/
def standard : Config where
  terminal := ⟨.standard, false, none, 1000, true⟩
  session := ⟨.thread, 3, defaultMaxDepth⟩
  logLevel := .warn

/-! ## From a document -/

/-- A value that has no part. -/
def isVoid : Toml → Bool
  | .array [] => true
  | .table _ [] => true
  | .tables [] => true
  | _ => false

/-- The word that a value stands for: a string, or the only key of a table, with an empty
value. -/
def toWord? : Toml → Option String
  | .string s => some s
  | .table _ [(word, v)] => if isVoid v then some word else none
  | _ => none

/-- A text. -/
def toText? : Toml → Option String
  | .string s => some s
  | _ => none

/-- A truth value. -/
def toBool? : Toml → Option Bool
  | .bool b => some b
  | _ => none

/-- A number from zero up to a bound. -/
def toCount? (bound : Nat) : Toml → Option Nat
  | .integer n => if 0 ≤ n ∧ n ≤ bound then some n.toNat else none
  | _ => none

/-- The one of some things that a value names. -/
def toNamed? {α : Type} (name : α → String) (all : List α) (v : Toml) : Option α := do
  let word ← toWord? v
  all.find? fun a => name a == word

/-- The parts of a table: by key, or in order for an array. -/
inductive Parts where
  | keyed (entries : Toml.Entries)
  | ordered (items : List Toml)

/-- The parts of a value that is a table, an array, or a date, which has none that is known. -/
def parts? : Toml → Option Parts
  | .table _ entries => some (.keyed entries)
  | .date => some (.keyed [])
  | .array items => some (.ordered items)
  | .tables items => some (.ordered items)
  | _ => none

/-- The part under a key, which comes at a place. -/
def Parts.at (p : Parts) (key : String) (place : Nat) : Option Toml :=
  match p with
  | .keyed entries => Toml.entry? key entries
  | .ordered items => items[place]?

/-- The value of a part; the standard value where it is missing. -/
def Parts.read? {α : Type} (p : Parts) (key : String) (place : Nat) (read : Toml → Option α)
    (standard : α) : Option α :=
  match p.at key place with
  | none => some standard
  | some v => read v

/-- The configuration of the terminal. -/
def terminal? (v : Toml) : Option TerminalConfig := do
  let p ← parts? v
  let s := standard.terminal
  let primary ← p.read? "prompt" 0 toText? s.prompts.primary
  let continuation ← p.read? "continuation_prompt" 1 toText? s.prompts.continuation
  let viMode ← p.read? "vi_mode" 2 toBool? s.viMode
  let historyFile ← p.read? "history_file" 3 (fun v => (toText? v).map some) s.historyFile
  let historySize ← p.read? "history_size" 4 (toCount? (UInt64.size - 1)) s.historySize
  let colors ← p.read? "colors" 5 toBool? s.colors
  return ⟨⟨primary, continuation⟩, viMode, historyFile, historySize, colors⟩

/-- The configuration of the session. -/
def session? (v : Toml) : Option SessionConfig := do
  let p ← parts? v
  let s := standard.session
  let isolation ← p.read? "isolation" 0 (toNamed? Isolation.name [.thread, .process]) s.isolation
  let maxRestarts ← p.read? "max_restarts" 1 (toCount? (UInt32.size - 1)) s.maxRestarts
  let maxEvalDepth ← p.read? "max_eval_depth" 2 (toCount? (UInt64.size - 1)) s.maxEvalDepth
  return ⟨isolation, maxRestarts, maxEvalDepth⟩

/-- The configured log level. -/
def logLevel? (v : Toml) : Option LogLevel := do
  let p ← parts? v
  p.read? "level" 0 (toNamed? LogLevel.name [.debug, .info, .warn, .error]) standard.logLevel

/-- The configuration of a document. -/
def ofToml? (entries : Toml.Entries) : Option Config := do
  let p := Parts.keyed entries
  let terminal ← p.read? "repl" 0 terminal? standard.terminal
  let session ← p.read? "session" 1 session? standard.session
  let logLevel ← p.read? "log" 2 logLevel? standard.logLevel
  return ⟨terminal, session, logLevel⟩

/-! ## From a file -/

/-- Why there is no configuration. -/
inductive ConfigError where
  /-- The file cannot be read as a text. -/
  | unreadable (fault : ReadFault)
  /-- The text is no document, or one that does not configure this program. -/
  | invalid
deriving DecidableEq

/-- The configuration of a file; the standard one where it is missing. -/
def ofFile (file : FileContent) : Except ConfigError Config :=
  if !file.present then .ok standard
  else match file.text with
  | .error fault => .error (.unreadable fault)
  | .ok text =>
    match (Toml.document? text).bind ofToml? with
    | some config => .ok config
    | none => .error .invalid

/-! ## Where the file is -/

/-- A path behind another; nothing stands between them if the first is empty or ends in a slash. -/
def joinPath (base rest : String) : String :=
  if base = "" ∨ base.toList.getLast? = some '/' then base ++ rest else base ++ "/" ++ rest

/-- The name of the directory for the program's configuration. -/
def directoryName : String := "lisp-session"

/-- The path of the configuration file: in the directory for configurations if one is named, else
in the home directory, else in the directory for the data of programs. -/
def path (environment : String → Option String) : Option String :=
  let directory :=
    match environment "XDG_CONFIG_HOME" with
    | some base => some (joinPath base directoryName)
    | none =>
      match environment "HOME" with
      | some home => some (joinPath (joinPath home ".config") directoryName)
      | none => (environment "APPDATA").map fun base => joinPath base directoryName
  directory.map fun d => joinPath d "config.toml"

end Config

end LispRepl

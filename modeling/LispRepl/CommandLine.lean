import LispRepl.Eval
import LispRepl.Isolation
import LispRepl.LogLevel

/-!
# The command line

The arguments are options and the name of a task, its heading, with its own arguments. The options
that do not belong to a task may stand before the heading or behind it, each once in either place;
behind it they count more. An option's value follows as the next argument or behind an equals sign,
and may begin with a dash only in the second place. Two dashes end the options. Arguments are read
in order, and the first that is wrong, or that asks for help or the version, decides.

- `Task`, `Options`: what to do.
- `CommandLine`: what the arguments come to.
- `CommandLine.ofArguments`: reading them.
-/

set_option autoImplicit false

namespace LispRepl

/-- What the program is run for. -/
inductive Task where
  | repl
  | eval (code : String)
  | run (file : String)
  /-- Serve commands as lines. -/
  | worker (maxDepth : Nat)
  | version
deriving DecidableEq

/-- What the arguments ask for. -/
structure Options where
  verbose : Bool
  logLevel : Option LogLevel
  configFile : Option String
  isolation : Option Isolation
  task : Task
deriving DecidableEq

/-- What the arguments come to. -/
inductive CommandLine where
  | options (options : Options)
  | help
  | version
  /-- The arguments are wrong. -/
  | misuse
deriving DecidableEq

namespace CommandLine

/-- The word that the arguments stand behind: the name of a task, a call for help, or none yet. -/
inductive Heading where
  | unnamed
  | help
  | repl
  | eval
  | run
  | worker
  | version
deriving DecidableEq

/-- The heading of a word. -/
def heading? (s : String) : Option Heading :=
  if s = "help" then some .help
  else if s = "repl" then some .repl
  else if s = "eval" then some .eval
  else if s = "run" then some .run
  else if s = "worker" then some .worker
  else if s = "version" then some .version
  else none

/-- The options that take a value. -/
inductive ValueOption where
  | logLevel
  | config
  | isolation
  | maxDepth
deriving DecidableEq

/-- The option of a name behind a heading. -/
def valueOption? (heading : Heading) (s : String) : Option ValueOption :=
  if s = "log-level" then some .logLevel
  else if s = "config" then some .config
  else if s = "isolation" then some .isolation
  else if s = "max-depth" ∧ heading = .worker then some .maxDepth
  else none

/-- What has been given in one place, before the heading or behind it. -/
structure Given where
  verbose : Bool
  logLevel : Option LogLevel
  config : Option String
  isolation : Option Isolation
  maxDepth : Option Nat
  operand : Option String
deriving DecidableEq

/-- Nothing has been given. -/
def Given.nothing : Given := ⟨false, none, none, none, none, none⟩

/-- A number of levels: digits, a plus sign before them if one likes. -/
def depth? (s : String) : Option Nat := do
  let digits :=
    match s.toList with
    | '+' :: cs => cs
    | cs => cs
  let n ← Text.readDigits? digits
  if n < UInt64.size then some n else none

/-- Sets an option, which may not have been given in this place. -/
def Given.set? (g : Given) (option : ValueOption) (value : String) : Option Given :=
  match option with
  | .logLevel =>
    if g.logLevel.isSome then none
    else (LogLevel.ofName value).toOption.map fun v => { g with logLevel := some v }
  | .config =>
    if g.config.isSome ∨ value = "" then none else some { g with config := some value }
  | .isolation =>
    if g.isolation.isSome then none
    else (Isolation.ofName value).toOption.map fun v => { g with isolation := some v }
  | .maxDepth =>
    if g.maxDepth.isSome then none
    else (depth? value).map fun v => { g with maxDepth := some v }

/-- Asks for verbosity, which may be done once in this place. -/
def Given.setVerbose? (g : Given) : Option Given :=
  if g.verbose then none else some { g with verbose := true }

/-- A word is the operand of a heading that has one: code, the path of a file, or what help is
asked on. -/
def Heading.takes (heading : Heading) (word : String) : Bool :=
  match heading with
  | .eval => true
  | .run => word ≠ ""
  | .help => (heading? word).isSome
  | _ => false

/-- Takes an operand, of which there is one at most. -/
def Given.setOperand? (g : Given) (heading : Heading) (word : String) : Option Given :=
  if heading.takes word ∧ g.operand = none then some { g with operand := some word } else none

/-! ## The arguments one by one -/

/-- What has been read. -/
structure Progress where
  /-- What was given before the heading. -/
  before : Given
  heading : Heading
  /-- What has been given behind the heading. -/
  given : Given
  /-- Two dashes have ended the options. -/
  ended : Bool
  /-- The option whose value comes next. -/
  awaiting : Option ValueOption
deriving DecidableEq

/-- Nothing has been read. -/
def Progress.start : Progress := ⟨.nothing, .unnamed, .nothing, false, none⟩

/-- Goes on with what has been given; where nothing sound has been, the arguments are wrong. -/
def Progress.give (p : Progress) : Option Given → Except CommandLine Progress
  | some g => .ok { p with given := g, awaiting := none }
  | none => .error .misuse

/-- The letters of a cluster of short options. -/
def Progress.letters : Progress → List Char → Except CommandLine Progress
  | p, [] => .ok p
  | p, c :: cs =>
    if c = 'h' then .error .help
    else if c = 'V' ∧ p.heading = .unnamed then .error .version
    else if c = 'v' then
      match p.give p.given.setVerbose? with
      | .ok p => p.letters cs
      | .error result => .error result
    else .error .misuse

/-- A long option that takes no value. -/
def Progress.flag (p : Progress) (name : String) : Except CommandLine Progress :=
  if name = "help" then .error .help
  else if name = "version" ∧ p.heading = .unnamed then .error .version
  else if name = "verbose" then p.give p.given.setVerbose?
  else .error .misuse

/-- The name of a long option, and the value behind an equals sign if there is one. -/
def longParts (cs : List Char) : String × Option String :=
  let name := cs.takeWhile (· ≠ '=')
  (String.ofList name,
    match cs.drop name.length with
    | _ :: value => some (String.ofList value)
    | [] => none)

/-- A long option. -/
def Progress.long (p : Progress) (name : String) (value : Option String) :
    Except CommandLine Progress :=
  match valueOption? p.heading name, value with
  | some option, some value => p.give (p.given.set? option value)
  | some option, none => .ok { p with awaiting := some option }
  | none, none => p.flag name
  | none, some _ => .error .misuse

/-- A word that is no option: it is the heading, or an operand. -/
def Progress.word (p : Progress) (word : String) : Except CommandLine Progress :=
  if p.heading = .unnamed ∧ !p.ended then
    match heading? word with
    | some heading => .ok { p with before := p.given, heading, given := .nothing }
    | none => .error .misuse
  else p.give (p.given.setOperand? p.heading word)

/-- The characters of an argument are not those of an option. -/
def isPlain : List Char → Bool
  | '-' :: _ :: _ => false
  | _ => true

/-- Reads an argument. Behind a call for help, there are no options. -/
def Progress.read (p : Progress) (argument : String) : Except CommandLine Progress :=
  match p.awaiting with
  | some option =>
    if isPlain argument.toList then p.give (p.given.set? option argument) else .error .misuse
  | none =>
    if p.ended ∨ p.heading = .help ∨ isPlain argument.toList then p.word argument
    else match argument.toList with
    | ['-', '-'] => .ok { p with ended := true }
    | '-' :: '-' :: cs => p.long (longParts cs).1 (longParts cs).2
    | cs => p.letters (cs.drop 1)

/-- The task with its options, of which those behind the heading count more. -/
def Progress.finish (p : Progress) (task : Task) : CommandLine :=
  .options
    { verbose := p.before.verbose || p.given.verbose
      logLevel := p.given.logLevel.or p.before.logLevel
      configFile := p.given.config.or p.before.config
      isolation := p.given.isolation.or p.before.isolation
      task }

/-- What the arguments come to where they end. -/
def Progress.conclude (p : Progress) : CommandLine :=
  match p.awaiting, p.heading, p.given.operand with
  | some _, _, _ => .misuse
  | none, .unnamed, _ | none, .repl, _ => p.finish .repl
  | none, .help, _ => .help
  | none, .version, _ => p.finish .version
  | none, .worker, _ => p.finish (.worker (p.given.maxDepth.getD defaultMaxDepth))
  | none, .eval, some code => p.finish (.eval code)
  | none, .run, some file => p.finish (.run file)
  | none, .eval, none | none, .run, none => .misuse

/-- What the arguments come to. -/
def ofArguments (arguments : List String) : CommandLine :=
  match arguments.foldlM Progress.read Progress.start with
  | .ok p => p.conclude
  | .error result => result

end CommandLine

end LispRepl

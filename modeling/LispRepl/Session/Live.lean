import LispRepl.Session
import LispRepl.Worker

/-!
# A session with its terminal and worker

Commands reach the worker through a queue and responses come back through another, so that the
worker may be behind the session. A worker that has stopped takes no more commands; once its last
response has been delivered, the session learns of the loss.

The live session moves in small steps, each a function: an event of the terminal, a command taken
by the worker, a response delivered, a loss noticed. Any order of such moves is a run.

- `Link`, `LiveSession`: the worker with its queues, and the whole.
- `LiveSession.start`: the live session with its first worker, a read armed.
- `LiveSession.onEvent`, `LiveSession.work`, `LiveSession.deliver`, `LiveSession.noticeLoss`: the
  moves.
- `LiveSession.settle`: moves of the worker and its queues until nothing is left to do.
-/

set_option autoImplicit false

namespace LispRepl

/-- A worker and what is on its way to it and back. -/
structure Link (σ : Type) where
  commands : List Command
  /-- None once the worker has stopped. -/
  service : Option σ
  responses : List Response

namespace Link

variable {σ : Type}

/-- A worker that nothing has been sent to. -/
def new (service : σ) : Link σ := ⟨[], some service, []⟩

/-- Sends a command; one for a worker that has stopped is lost. -/
def send (l : Link σ) (c : Command) : Link σ :=
  match l.service with
  | some _ => { l with commands := l.commands ++ [c] }
  | none => l

/-- The worker takes the next command. The commands behind it are lost if it stops. -/
def work [Service σ] (l : Link σ) : Link σ :=
  match l.service, l.commands with
  | some service, c :: rest =>
    match Service.handle service c with
    | (responses, some service) => ⟨rest, some service, l.responses ++ responses⟩
    | (responses, none) => ⟨[], none, l.responses ++ responses⟩
  | _, _ => l

/-- The worker has stopped and everything it said has been delivered. -/
def isLost (l : Link σ) : Bool :=
  l.service.isNone && l.responses.isEmpty

end Link

/-- A session, its terminal, its worker unless it gave up, how many workers were started, and how
the session ended if it has. -/
structure LiveSession (τ σ : Type) where
  session : Session
  terminal : τ
  link : Option (Link σ)
  spawned : Nat
  ending : Option Ending

namespace LiveSession

variable {τ σ : Type} [Terminal τ] [Service σ]

/-- The live session sends a command. -/
def send (s : LiveSession τ σ) (c : Command) : LiveSession τ σ :=
  { s with link := s.link.map fun l => l.send c }

/-- Carries out one effect; a refusal of the terminal ends the session. -/
def perform (s : LiveSession τ σ) : Effect → LiveSession τ σ
  | .dispatch generation line => s.send (.eval generation line)
  | .reset generation => s.send (.reset generation)
  | .write text =>
    match Terminal.writeLine s.terminal text with
    | .ok terminal => { s with terminal }
    | .error e => { s with ending := some (.terminalFailed e) }
  | .read prompt =>
    match Terminal.readLine s.terminal prompt with
    | .ok terminal => { s with terminal }
    | .error e => { s with ending := some (.terminalFailed e) }

/-- Carries out effects in order, as long as the session goes on. -/
def performAll (s : LiveSession τ σ) : List Effect → LiveSession τ σ
  | [] => s
  | e :: es => if s.ending.isSome then s else (s.perform e).performAll es

/-- Takes a reaction of the session and carries out its effects. -/
def react (s : LiveSession τ σ) (r : Reaction) : LiveSession τ σ :=
  { s with session := r.session, ending := r.ending }.performAll r.effects

/-- The live session with its first worker and a read armed, or ended if no worker can be
started. -/
def start (spawn : Nat → Option σ) (session : Session) (terminal : τ) : LiveSession τ σ :=
  match spawn 0 with
  | none => ⟨session, terminal, none, 1, some .workerFailed⟩
  | some service =>
    LiveSession.performAll ⟨session, terminal, some (.new service), 1, none⟩ session.begin

/-- An event of the terminal arrives. -/
def onEvent (s : LiveSession τ σ) (e : TerminalEvent) : LiveSession τ σ :=
  s.react (s.session.onTerminal e)

/-- The worker takes its next command. -/
def work (s : LiveSession τ σ) : LiveSession τ σ :=
  { s with link := s.link.map Link.work }

/-- The next response is delivered. -/
def deliver (s : LiveSession τ σ) : LiveSession τ σ :=
  match s.link with
  | some l =>
    match l.responses with
    | r :: rest =>
      { s with link := some { l with responses := rest } }.react (s.session.onResponse r)
    | [] => s
  | none => s

/-- The loss of the worker is noticed, and another is started if it may be. -/
def noticeLoss (spawn : Nat → Option σ) (s : LiveSession τ σ) : LiveSession τ σ :=
  if s.session.mayRestart then
    match spawn s.spawned with
    | some service =>
      { s with link := some (.new service), spawned := s.spawned + 1 }.react
        (s.session.onLoss true)
    | none =>
      { s with link := none, spawned := s.spawned + 1 }.react (s.session.onLoss false)
  else { s with link := none }.react (s.session.onLoss false)

/-- Delivers as many responses as are waiting, as long as the session goes on. -/
def deliverAll (s : LiveSession τ σ) : List Response → LiveSession τ σ
  | [] => s
  | _ :: rest => if s.ending.isSome then s else s.deliver.deliverAll rest

/-- Lets the worker and its queues move, a bounded number of rounds: in each, the responses are
delivered and then a command is taken or a loss noticed. -/
def settleRounds (spawn : Nat → Option σ) : Nat → LiveSession τ σ → LiveSession τ σ
  | 0, s => s
  | rounds + 1, s =>
    let s := s.deliverAll ((s.link.map Link.responses).getD [])
    if s.ending.isSome then s
    else match s.link with
    | none => s
    | some l =>
      if l.isLost then settleRounds spawn rounds (s.noticeLoss spawn)
      else if l.commands.isEmpty then s
      else settleRounds spawn rounds s.work

/-- Lets the worker and its queues move until nothing is left to do. Each queued command takes a
round, and so does a reset for input that turns out to be out of step; each worker that may still
be lost takes one round to be replaced and one for the reset it is sent. -/
def settle (spawn : Nat → Option σ) (s : LiveSession τ σ) : LiveSession τ σ :=
  let queued := ((s.link.map Link.commands).getD []).length
  s.settleRounds spawn (queued + 2 * (s.session.maxRestarts - s.session.losses) + 4)

end LiveSession

end LispRepl

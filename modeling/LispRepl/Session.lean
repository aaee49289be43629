import LispRepl.Bridge
import LispRepl.MetaCommand
import LispRepl.Text.Decimal

/-!
# The session

A session joins a terminal, the bridge and a worker. Between expressions it answers meta commands
itself; every other line goes to the bridge, whose effects it carries out. When the worker is
lost it starts another, a bounded number of times. A loss that comes while a continuation line is
being entered is told only when that line arrives, because the prompt on screen cannot be taken
back; the line is dropped then, and an interrupt in its place does no more than that either.

Each reaction is a function of the session's state: it gives the state after it, what is to be
done, and whether the session goes on.

- `Session`: the state.
- `Reaction`: what an event comes to.
- `Session.onTerminal`, `Session.onResponse`, `Session.onLoss`: the reactions.
- `Session.begin`: what a session does first.
-/

set_option autoImplicit false

namespace LispRepl

/-- How a session ends. -/
inductive Ending where
  /-- The terminal is closed, or the user wants to leave. -/
  | left
  /-- The worker was lost too often. -/
  | workerLost (losses : Nat)
  /-- No worker could be started. -/
  | workerFailed
  | terminalFailed (error : TerminalError)
  | bridgeFailed (error : BridgeError)
deriving DecidableEq

/-- The wording of the loss of too many workers. -/
def workerLostMessage (losses : Nat) : String :=
  "evaluation worker lost " ++ Text.natText losses ++ " time(s); giving up"

/-- The reason given for a lost worker. -/
def exitReason : String := "worker exited"

/-- The state of a session, its terminal and worker apart. -/
structure Session where
  bridge : Bridge
  /-- How many workers were lost. -/
  losses : Nat
  /-- How many of them may be replaced. -/
  maxRestarts : Nat
  /-- The reason of a loss that has not been told. -/
  untold : Option String
deriving DecidableEq

/-- What an event comes to: the session after it, what is to be done in order, and how the session
ends if it does. -/
structure Reaction where
  session : Session
  effects : List Effect
  ending : Option Ending
deriving DecidableEq

namespace Session

/-- The session before any event. -/
def new (prompts : Prompts) (maxRestarts : Nat) : Session :=
  ⟨.new prompts, 0, maxRestarts, none⟩

/-- A session arms a read before anything else. -/
def begin (s : Session) : List Effect :=
  [.read s.bridge.prompt]

/-- Hands an event to the bridge. -/
def feed (s : Session) (e : BridgeEvent) : Reaction :=
  match s.bridge.step e with
  | .ok (bridge, effects) => ⟨{ s with bridge }, effects, none⟩
  | .error error => ⟨s, [], some (.bridgeFailed error)⟩

/-- Tells a loss. -/
def tell (s : Session) (reason : String) : Reaction :=
  { s with untold := none }.feed (.lost reason)

/-- The answer to a meta command. -/
def onCommand (s : Session) : MetaCommand → Reaction
  | .exit => ⟨s, [], some .left⟩
  | .clear => s.feed (.interrupt "clear")
  | .output lines => ⟨s, lines.map Effect.write ++ [.read s.bridge.prompt], none⟩

/-- The answer to a line, where every loss has been told. -/
def onLine (s : Session) (line : InputLine) : Reaction :=
  match if s.bridge.isIdle then MetaCommand.ofLine? line.text else none with
  | some c => s.onCommand c
  | none => s.feed (.line line)

/-- The answer to an event of the terminal. -/
def onTerminal (s : Session) (e : TerminalEvent) : Reaction :=
  match e, s.untold with
  | .closed, _ => ⟨s, [], some .left⟩
  | .line _, some reason => s.tell reason
  | .interrupt _, some reason => s.tell reason
  | .line line, none => s.onLine line
  | .interrupt signal, none => s.feed (.interrupt signal)

/-- The answer to a response. -/
def onResponse (s : Session) (r : Response) : Reaction :=
  s.feed (.response r)

/-- The session with one more loss counted. -/
def countLoss (s : Session) : Session :=
  { s with losses := s.losses + 1 }

/-- A worker that is lost may be replaced. -/
def mayRestart (s : Session) : Bool :=
  s.losses < s.maxRestarts

/-- The answer to the loss of a worker in whose place another was started: the loss is told unless
a continuation line is being entered. -/
def onReplaced (s : Session) : Reaction :=
  if s.bridge.isEvaluating || s.bridge.isIdle then s.feed (.lost exitReason)
  else ⟨{ s with untold := some exitReason }, [], none⟩

/-- The answer to the loss of a worker; `restarted` tells whether another could be started, if it
may be. -/
def onLoss (s : Session) (restarted : Bool) : Reaction :=
  if !s.mayRestart then ⟨s.countLoss, [], some (.workerLost (s.losses + 1))⟩
  else if !restarted then ⟨s.countLoss, [], some .workerFailed⟩
  else s.countLoss.onReplaced

end Session

end LispRepl

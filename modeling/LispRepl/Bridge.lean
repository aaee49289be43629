import LispRepl.Message
import LispRepl.Terminal

/-!
# The session bridge

The bridge decides which prompt to show and when to talk to the evaluator. It holds the lines of
the expression that is being entered and takes one event at a time, to each of which it answers
with effects for the session to carry out in order; it does nothing by itself.

While it awaits a line, a line is sent to the evaluator and the bridge waits for the answer. An
answer that the input is incomplete asks for a further line with the continuation prompt; a
complete answer is shown and the input begins anew. An interrupt, the loss of the evaluator, and an
answer that contradicts what the bridge knows all give up the input and raise the generation, by
which a late answer is recognised and dropped.

- `Prompts`, `Phase`, `Bridge`: the state.
- `BridgeEvent`, `Effect`: what comes in and what goes out.
- `Bridge.step`: the answer to one event.
- `Outcome.render`: how an outcome is shown.
-/

set_option autoImplicit false

namespace LispRepl

/-- The texts shown before a line. -/
structure Prompts where
  primary : String
  /-- Shown while an expression is incomplete. -/
  continuation : String
deriving DecidableEq

/-- The prompts where none are given. -/
def Prompts.standard : Prompts := ⟨"> ", ". "⟩

/-- What the bridge waits for. -/
inductive Phase where
  | awaiting
  | evaluating (generation : Generation)
deriving DecidableEq

/-- The state of the bridge. -/
structure Bridge where
  phase : Phase
  generation : Generation
  /-- The lines of the expression so far, each with its line feed. -/
  pending : String
  pendingLines : Nat
  /-- The evaluator has said that the expression is incomplete. -/
  awaitingMore : Bool
  prompts : Prompts
deriving DecidableEq

/-- What the bridge is told. -/
inductive BridgeEvent where
  | line (line : InputLine)
  | response (response : Response)
  | interrupt (signal : String)
  | lost (reason : String)
deriving DecidableEq

/-- What the session has to do. -/
inductive Effect where
  | dispatch (generation : Generation) (line : String)
  | reset (generation : Generation)
  | write (text : String)
  | read (prompt : String)
deriving DecidableEq

/-- Why the bridge refuses an event. -/
inductive BridgeError where
  | busy
deriving DecidableEq

/-- The wording of a refusal. -/
def BridgeError.message : BridgeError → String
  | .busy => "a line arrived while an evaluation is in flight"

/-- What is shown when the evaluator contradicts the bridge. -/
def desyncMessage : String := "Error: evaluator out of sync; input discarded"

/-- What is shown when the evaluator is lost. -/
def lostMessage (reason : String) : String := "Error: evaluator lost: " ++ reason

/-- How an outcome is shown; an empty success is not. -/
def Outcome.render : Outcome → Option String
  | .success text => if text = "" then none else some text
  | .failure text => some ("Error: " ++ text)

namespace Bridge

/-- The bridge before any event. -/
def new (prompts : Prompts) : Bridge :=
  ⟨.awaiting, 0, "", 0, false, prompts⟩

/-- An evaluation is going on. -/
def isEvaluating (b : Bridge) : Bool :=
  match b.phase with
  | .awaiting => false
  | .evaluating _ => true

/-- A line is awaited and no expression has been begun. -/
def isIdle (b : Bridge) : Bool :=
  !b.isEvaluating && b.pending == ""

/-- The prompt for the next line. -/
def prompt (b : Bridge) : String :=
  if b.awaitingMore then b.prompts.continuation else b.prompts.primary

/-- The bridge with no input. -/
def clear (b : Bridge) : Bridge :=
  { b with phase := .awaiting, pending := "", pendingLines := 0, awaitingMore := false }

/-- The bridge with its input given up. -/
def abandon (b : Bridge) : Bridge :=
  { b.clear with generation := b.generation + 1 }

/-- The bridge with one more line, waiting for the answer to it. -/
def accept (b : Bridge) (line : String) : Bridge :=
  { b with
    phase := .evaluating b.generation
    pending := b.pending ++ line ++ "\n"
    pendingLines := b.pendingLines + 1 }

/-- The bridge waiting for a further line of its expression. -/
def awaitMore (b : Bridge) : Bridge :=
  { b with phase := .awaiting, awaitingMore := true }

/-- Gives up the input because the evaluator contradicts it. -/
def resync (b : Bridge) : Bridge × List Effect :=
  (b.abandon, [.reset b.abandon.generation, .write desyncMessage, .read b.abandon.prompt])

/-- The answer to a line: a blank line outside an expression is skipped, any other is sent. -/
def onLine (b : Bridge) (line : InputLine) : Except BridgeError (Bridge × List Effect) :=
  if b.isEvaluating then .error .busy
  else if b.pending = "" ∧ line.isBlank then .ok (b, [.read b.prompt])
  else .ok (b.accept line.text, [.dispatch b.generation line.text])

/-- The answer to a response to the request that is going on. -/
def onCurrent (b : Bridge) (r : Response) : Bridge × List Effect :=
  if !r.complete then
    if r.bufferedLines ≠ b.pendingLines then b.resync
    else (b.awaitMore, [.read b.awaitMore.prompt])
  else match r.outcome with
  | none => b.resync
  | some outcome =>
    if r.resetBuffer then
      (b.clear, (outcome.render.map Effect.write).toList ++ [.read b.clear.prompt])
    else b.resync

/-- The answer to a response: one that is not awaited, or is older than the request that is going
on, is dropped. -/
def onResponse (b : Bridge) (r : Response) : Bridge × List Effect :=
  match b.phase with
  | .awaiting => (b, [])
  | .evaluating generation =>
    if r.generation < generation then (b, [])
    else if generation < r.generation then b.resync
    else b.onCurrent r

/-- The answer to an interrupt. -/
def onInterrupt (b : Bridge) : Bridge × List Effect :=
  (b.abandon, [.reset b.abandon.generation, .read b.abandon.prompt])

/-- The answer to the loss of the evaluator. -/
def onLost (b : Bridge) (reason : String) : Bridge × List Effect :=
  (b.abandon,
    [.write (lostMessage reason), .reset b.abandon.generation, .read b.abandon.prompt])

/-- The answer to one event: the state after it and the effects in order. A refused event leaves
the state as it was. -/
def step (b : Bridge) : BridgeEvent → Except BridgeError (Bridge × List Effect)
  | .line line => b.onLine line
  | .response r => .ok (b.onResponse r)
  | .interrupt _ => .ok b.onInterrupt
  | .lost reason => .ok (b.onLost reason)

end Bridge

end LispRepl

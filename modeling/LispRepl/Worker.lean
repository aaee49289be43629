import LispRepl.Message
import LispRepl.Text.Decimal

/-!
# The evaluation worker

A worker holds a backend, which collects lines and evaluates them, and answers each line it is
sent. It keeps the generation it was last told; a request of another generation finds the lines
of the old one forgotten, so that a lost reset does no harm. After an evaluation, and after a line
that the backend rejects, the lines are forgotten too.

A call of the backend may crash. A crash during an evaluation is caught and answered as a failure;
any other ends the worker.

- `Backend`: what a worker needs of a backend.
- `Worker`: the worker and its counts.
- `Worker.handle`: its answer to one command.
- `Service`: anything that takes commands and may stop, such as a worker.
-/

set_option autoImplicit false

namespace LispRepl

/-- How a call to evaluate ended. -/
inductive Evaluated where
  | value (text : String)
  | error (text : String)
  /-- The call crashed, with a message if there was one. -/
  | crash (message : Option String)
deriving DecidableEq

/-- What a worker needs of a backend. A call that has no result crashed. -/
class Backend (β : Type) where
  /-- Adds a line and says whether the lines are complete, or why they are rejected. -/
  pushLine : β → String → Option (Except String Bool × β)
  /-- The number of lines held. -/
  bufferedLines : β → Option Nat
  /-- Evaluates the lines held. -/
  eval : β → Evaluated × β
  /-- Forgets the lines held. -/
  reset : β → Option β

/-- A worker: its backend, the generation it was last told, and how many evaluations and failures
there were. -/
structure Worker (β : Type) where
  backend : β
  generation : Generation
  evalCount : Nat
  errorCount : Nat

/-- What comes of a command. -/
inductive WorkerStep where
  | reply (response : Response)
  | proceed
  | stop
deriving DecidableEq

/-- The outcome that a call to evaluate is answered with. -/
def Evaluated.outcome : Evaluated → Outcome
  | .value text => .success text
  | .error text => .failure text
  | .crash message => .failure ("evaluator panicked: " ++ message.getD "unknown panic")

/-- The call gave no value. -/
def Evaluated.failed : Evaluated → Bool
  | .value _ => false
  | _ => true

namespace Worker

variable {β : Type} [Backend β]

/-- The worker with a fresh backend. -/
def new (backend : β) : Worker β :=
  ⟨backend, 0, 0, 0⟩

/-- The worker in another generation has forgotten its lines. -/
def adopt (w : Worker β) (generation : Generation) : Option (Worker β) :=
  if generation = w.generation then some w
  else do
    let backend ← Backend.reset w.backend
    return { w with backend, generation }

/-- Evaluates the lines, which are complete, and forgets them. -/
def evalLines (w : Worker β) : Option (Response × Worker β) := do
  let (result, backend) := Backend.eval w.backend
  let backend ← Backend.reset backend
  return (.finished w.generation result.outcome,
    { w with
      backend
      evalCount := w.evalCount + 1
      errorCount := w.errorCount + result.failed.toNat })

/-- The answer to a line of the worker's generation. -/
def evalLine (w : Worker β) (line : String) : Option (Response × Worker β) := do
  match ← Backend.pushLine w.backend line with
  | (.error text, backend) =>
    let backend ← Backend.reset backend
    return (.finished w.generation (.failure text),
      { w with backend, errorCount := w.errorCount + 1 })
  | (.ok false, backend) =>
    let lines ← Backend.bufferedLines backend
    return (.incomplete w.generation lines, { w with backend })
  | (.ok true, backend) => evalLines { w with backend }

/-- The answer to one command; none where the worker crashes. -/
def handle (w : Worker β) : Command → Option (WorkerStep × Worker β)
  | .eval generation line => do
    let w ← w.adopt generation
    let (response, w) ← w.evalLine line
    return (.reply response, w)
  | .reset generation => do
    let backend ← Backend.reset w.backend
    return (.proceed, { w with backend, generation })
  | .shutdown => some (.stop, w)

end Worker

/-- Something that takes commands one at a time: it answers each with some responses, and is
itself again afterwards or has stopped. -/
class Service (σ : Type) where
  handle : σ → Command → List Response × Option σ

/-- A worker answers with at most one response; it stops when it is told to or crashes. -/
instance {β : Type} [Backend β] : Service (Worker β) where
  handle w c :=
    match w.handle c with
    | some (.reply r, w) => ([r], some w)
    | some (.proceed, w) => ([], some w)
    | some (.stop, _) => ([], none)
    | none => ([], none)

end LispRepl

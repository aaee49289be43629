import LispRepl.Text.Lines
import LispRepl.Text.Utf8
import LispRepl.Wire.Codec
import LispRepl.Worker.Lisp

/-!
# A worker that speaks lines

A worker in a process of its own reads commands as lines and writes each response as a line. Blank
lines and lines that are no command are skipped. It ends at a shutdown or at the end of its input,
and fails where the input is no text.

- `Worker.serveLine`: the effect of one line.
- `Worker.serve`: the effect of a whole input.
- `LineWorker`: such a worker as seen by a session.
-/

set_option autoImplicit false

namespace LispRepl

/-- How the service of an input ended. -/
inductive Served where
  | finished
  /-- The input is no text. -/
  | notText
deriving DecidableEq

namespace Worker

variable {β : Type} [Backend β]

/-- The effect of one line: the responses it is answered with, and the worker unless it stops. -/
def serveLine (w : Worker β) (line : String) : List Response × Option (Worker β) :=
  if Text.isBlankText line then ([], some w)
  else match Command.decode? line with
  | none => ([], some w)
  | some c => Service.handle w c

/-- The lines written for the lines of an input. -/
def serveLines (w : Worker β) : List (List UInt8) → List String × Served
  | [] => ([], .finished)
  | bytes :: rest =>
    match Text.decode? bytes with
    | none => ([], .notText)
    | some cs =>
      match w.serveLine (String.ofList cs) with
      | (responses, none) => (responses.map Response.encode, .finished)
      | (responses, some w) =>
        let (more, ended) := w.serveLines rest
        (responses.map Response.encode ++ more, ended)

/-- The lines written for an input. -/
def serve (w : Worker β) (input : List UInt8) : List String × Served :=
  w.serveLines (Text.splitLines input)

end Worker

/-- A worker reached by lines alone. -/
structure LineWorker (β : Type) where
  worker : Worker β

/-- Commands reach the worker as lines, and so do its responses the session. -/
instance {β : Type} [Backend β] : Service (LineWorker β) where
  handle w c :=
    let (responses, worker) := w.worker.serveLine c.encode
    (responses.filterMap fun r => Response.decode? r.encode, worker.map LineWorker.mk)

end LispRepl

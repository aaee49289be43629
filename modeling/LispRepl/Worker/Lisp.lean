import LispRepl.Eval
import LispRepl.Reader
import LispRepl.Worker

/-!
# The Lisp backend

Lines are collected by a reader and evaluated against a store that lasts as long as the backend.
One limit bounds the nesting of data and of evaluation. No call crashes.

- `LispBackend`: a reader and a store.
- `LispBackend.new`: the backend with nothing defined but the builtin procedures.
-/

set_option autoImplicit false

namespace LispRepl

/-- The lines held and the bindings made so far. -/
structure LispBackend where
  reader : Reader
  store : Store

namespace LispBackend

/-- The backend with this limit on nesting. -/
def new (limit : Nat) : LispBackend :=
  ⟨.new limit, .initial⟩

/-- Adds a line. -/
def pushLine (b : LispBackend) (line : String) : Except LispError Bool × LispBackend :=
  ((b.reader.pushLine line).1, { b with reader := (b.reader.pushLine line).2 })

/-- Evaluates expressions and gives the text of the last value. -/
def run (b : LispBackend) (es : List Value) : Except LispError String × LispBackend :=
  match evalSequence b.reader.limit es b.store with
  | (.ok v, store) => (.ok v.text, { b with store })
  | (.error e, store) => (.error e, { b with store })

/-- Evaluates the lines held, which are forgotten. -/
def eval (b : LispBackend) : Except LispError String × LispBackend :=
  match b.reader.take with
  | (.error e, reader) => (.error e, { b with reader })
  | (.ok es, reader) => run { b with reader } es

/-- Forgets the lines held; the bindings stay. -/
def reset (b : LispBackend) : LispBackend :=
  { b with reader := b.reader.clear }

end LispBackend

instance : Backend LispBackend where
  pushLine b line := some ((b.pushLine line).1.mapError LispError.message, (b.pushLine line).2)
  bufferedLines b := some b.reader.lines
  eval b :=
    match b.eval with
    | (.ok text, b) => (.value text, b)
    | (.error e, b) => (.error e.message, b)
  reset b := some b.reset

/-- The worker that evaluates Lisp. -/
abbrev LispWorker := Worker LispBackend

/-- The Lisp worker before any command, with this limit on nesting. -/
def LispWorker.new (limit : Nat) : LispWorker :=
  Worker.new (LispBackend.new limit)

end LispRepl

/-!
# Messages between a session and its evaluator

A session sends commands to the evaluator and gets responses. Each request carries the generation
of the session's input it belongs to, and its response carries the same one, so that an answer to
input that was given up can be told from a current one. Generations are machine words and wrap.

- `Command`: what a session asks for.
- `Outcome`, `Response`: what the evaluator answers to a line.
- `Response.finished`, `Response.incomplete`: the two shapes of an honest answer.
-/

set_option autoImplicit false

namespace LispRepl

/-- The number of a stretch of input that is kept or given up as a whole. -/
abbrev Generation := UInt64

/-- What a session asks of the evaluator. -/
inductive Command where
  /-- Add a line to the input, and evaluate the input once it is complete. -/
  | eval (generation : Generation) (line : String)
  /-- Forget the input; the generation is the one that comes next. -/
  | reset (generation : Generation)
  | shutdown
deriving DecidableEq

/-- How an evaluation ended. -/
inductive Outcome where
  /-- The text of the value, empty where there is nothing to show. -/
  | success (text : String)
  /-- The wording of the error. -/
  | failure (text : String)
deriving DecidableEq

/-- The answer to a line. -/
structure Response where
  generation : Generation
  /-- The input was complete, so that it was evaluated or rejected. -/
  complete : Bool
  outcome : Option Outcome
  /-- The evaluator has forgotten the input. -/
  resetBuffer : Bool
  /-- How many lines the evaluator still holds. -/
  bufferedLines : Nat
deriving DecidableEq

namespace Response

/-- The answer to a line that ended the input. -/
def finished (generation : Generation) (outcome : Outcome) : Response :=
  ⟨generation, true, some outcome, true, 0⟩

/-- The answer to a line that leaves the input incomplete. -/
def incomplete (generation : Generation) (bufferedLines : Nat) : Response :=
  ⟨generation, false, none, false, bufferedLines⟩

end Response

end LispRepl

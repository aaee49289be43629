import LispRepl.Worker.Lisp

/-!
# Runs of the Lisp worker

No call of the Lisp backend crashes, so the Lisp worker answers every command: `answer` is its
`Worker.handle` without the option. The answer to a line is decided by the verdict on the text of
the lines held and the new one, and there is one lemma for each verdict.

A run over a list of commands gives the responses in order. Commands carry tags of any type, and a
response has the tag of the command that it answers.

- `LispWorker.answer`, `LispWorker.handle_eq_answer`: the worker as a total function.
- `LispWorker.handle_of_rejected`, `LispWorker.handle_of_incomplete`,
  `LispWorker.handle_of_complete`: the three answers to a line.
- `LispWorker.answer_eval_cases`: what they have in common.
- `LispWorker.answerAll`, `LispWorker.replies`: the run over a list of commands.
-/

set_option autoImplicit false

namespace LispRepl

/-- The response of a step, if it has one. -/
def WorkerStep.reply? : WorkerStep → Option Response
  | .reply r => some r
  | .proceed | .stop => none

namespace LispBackend

/-- The evaluation of a text against a store, with the store that it leaves. -/
def evaluate (limit : Nat) (source : String) (store : Store) : Evaluated × Store :=
  match readSource limit source with
  | .error e => (.error e.message, store)
  | .ok es =>
    match evalSequence limit es store with
    | (.ok v, next) => (.value v.text, next)
    | (.error e, next) => (.error e.message, next)

theorem evaluate_value {limit : Nat} {source : String} {store next : Store} {es : List Value}
    {v : Value} (readable : readSource limit source = .ok es)
    (h : evalSequence limit es store = (.ok v, next)) :
    evaluate limit source store = (.value v.text, next) := by
  simp only [evaluate, readable, h]

theorem evaluate_error {limit : Nat} {source : String} {store next : Store} {es : List Value}
    {e : LispError} (readable : readSource limit source = .ok es)
    (h : evalSequence limit es store = (.error e, next)) :
    evaluate limit source store = (.error e.message, next) := by
  simp only [evaluate, readable, h]

theorem backend_eval (b : LispBackend) :
    Backend.eval b =
      ((evaluate b.reader.limit b.reader.source b.store).1,
        ⟨b.reader.clear, (evaluate b.reader.limit b.reader.source b.store).2⟩) := by
  obtain ⟨⟨limit, source, lines, complete⟩, store⟩ := b
  simp only [Backend.eval, eval, Reader.take, evaluate]
  cases readSource limit source with
  | error e => rfl
  | ok es =>
    simp only [run, Reader.clear, Reader.new]
    rcases evalSequence limit es store with ⟨_ | v, next⟩ <;> rfl

end LispBackend

namespace LispWorker

/-- The reader that a line of this generation is pushed to. -/
def readerFor (w : LispWorker) (generation : Generation) : Reader :=
  if generation = w.generation then w.backend.reader else w.backend.reader.clear

@[simp] theorem readerFor_limit (w : LispWorker) (generation : Generation) :
    (w.readerFor generation).limit = w.backend.reader.limit := by
  rw [readerFor]
  split <;> rfl

@[simp] theorem readerFor_generation (w : LispWorker) :
    w.readerFor w.generation = w.backend.reader := by
  simp [readerFor]

/-- The text that is judged when a line of this generation arrives. -/
def sourceWith (w : LispWorker) (generation : Generation) (line : String) : String :=
  (w.readerFor generation).source ++ line ++ "\n"

/-- The answer to a command. -/
def answer (w : LispWorker) (c : Command) : WorkerStep × LispWorker :=
  (w.handle c).getD (.stop, w)

/-- A worker in another generation gets the reader that lines of that generation are pushed to. -/
theorem adopt_eq (w : LispWorker) (generation : Generation) :
    w.adopt generation =
      some { w with
        backend := ⟨w.readerFor generation, w.backend.store⟩
        generation := generation } := by
  rw [Worker.adopt, readerFor]
  by_cases h : generation = w.generation
  · subst h
    simp
  · simp only [if_neg h]
    rfl

section Answers

variable (w : LispWorker) (generation : Generation) (line : String)

/-- A line that is rejected is answered with the wording of the error, and the lines held are
forgotten. -/
theorem handle_of_rejected {e : LispError}
    (h : verdict w.backend.reader.limit (w.sourceWith generation line) = .error e) :
    w.handle (.eval generation line) =
      some (.reply (.finished generation (.failure e.message)),
        ⟨⟨w.backend.reader.clear, w.backend.store⟩, generation, w.evalCount,
          w.errorCount + 1⟩) := by
  simp only [Worker.handle, adopt_eq, Option.bind_eq_bind, Option.bind_some, Worker.evalLine,
    Backend.pushLine, LispBackend.pushLine, Reader.pushLine, readerFor_limit]
  rw [sourceWith] at h
  have worded : (Except.error e : Except LispError Bool).mapError LispError.message =
      .error e.message := rfl
  rw [h]
  simp [Backend.reset, LispBackend.reset, worded, Reader.clear]

/-- A line that leaves the text incomplete is answered with the number of lines held. -/
theorem handle_of_incomplete
    (h : verdict w.backend.reader.limit (w.sourceWith generation line) = .ok false) :
    w.handle (.eval generation line) =
      some (.reply (.incomplete generation ((w.readerFor generation).lines + 1)),
        ⟨⟨⟨w.backend.reader.limit, w.sourceWith generation line,
            (w.readerFor generation).lines + 1, false⟩, w.backend.store⟩,
          generation, w.evalCount, w.errorCount⟩) := by
  simp only [Worker.handle, adopt_eq, Option.bind_eq_bind, Option.bind_some, Worker.evalLine,
    Backend.pushLine, LispBackend.pushLine, Reader.pushLine, readerFor_limit]
  rw [sourceWith] at h ⊢
  rw [h]
  rfl

/-- A line that completes the text is answered with the outcome of its evaluation, and the lines
are forgotten. -/
theorem handle_of_complete
    (h : verdict w.backend.reader.limit (w.sourceWith generation line) = .ok true) :
    let result := LispBackend.evaluate w.backend.reader.limit (w.sourceWith generation line)
      w.backend.store
    w.handle (.eval generation line) =
      some (.reply (.finished generation result.1.outcome),
        ⟨⟨w.backend.reader.clear, result.2⟩, generation, w.evalCount + 1,
          w.errorCount + result.1.failed.toNat⟩) := by
  simp only [Worker.handle, adopt_eq, Option.bind_eq_bind, Option.bind_some, Worker.evalLine,
    Backend.pushLine, LispBackend.pushLine, Reader.pushLine, readerFor_limit]
  rw [sourceWith] at h ⊢
  have worded : (Except.ok true : Except LispError Bool).mapError LispError.message = .ok true := rfl
  rw [h]
  simp [Worker.evalLines, LispBackend.backend_eval, Backend.reset, LispBackend.reset, worded,
    Reader.clear, Reader.new]

end Answers

/-- The Lisp worker never crashes. -/
theorem handle_eq_answer (w : LispWorker) (c : Command) : w.handle c = some (w.answer c) := by
  -- The verdict on the text decides which answer there is, and there is one for each.
  suffices h : (w.handle c).isSome by
    obtain ⟨result, hr⟩ := Option.isSome_iff_exists.1 h
    simp [answer, hr]
  cases c with
  | eval generation line =>
    cases hv : verdict w.backend.reader.limit (w.sourceWith generation line) with
    | error e => simp [handle_of_rejected w generation line hv]
    | ok complete =>
      cases complete with
      | false => simp [handle_of_incomplete w generation line hv]
      | true => simp [handle_of_complete w generation line hv]
  | reset generation => rfl
  | shutdown => rfl

theorem answer_eq_of_handle {w next : LispWorker} {c : Command} {step : WorkerStep}
    (h : w.handle c = some (step, next)) : w.answer c = (step, next) := by
  simp [answer, h]

@[simp] theorem answer_reset (w : LispWorker) (generation : Generation) :
    w.answer (.reset generation) =
      (.proceed, { w with backend := w.backend.reset, generation := generation }) := rfl

/-- A line is answered in its own generation: it is either held with the lines before it, or the
lines are forgotten. -/
theorem answer_eval_cases (w : LispWorker) (generation : Generation) (line : String) :
    (∃ next : LispWorker,
      w.answer (.eval generation line) =
        (.reply (.incomplete generation ((w.readerFor generation).lines + 1)), next) ∧
      next.generation = generation ∧
      next.backend.reader.source = w.sourceWith generation line ∧
      next.backend.reader.lines = (w.readerFor generation).lines + 1) ∨
    (∃ (outcome : Outcome) (next : LispWorker),
      w.answer (.eval generation line) = (.reply (.finished generation outcome), next) ∧
      next.generation = generation ∧
      next.backend.reader = w.backend.reader.clear) := by
  cases hv : verdict w.backend.reader.limit (w.sourceWith generation line) with
  | error e =>
    exact .inr ⟨_, _, answer_eq_of_handle (handle_of_rejected w generation line hv), rfl, rfl⟩
  | ok complete =>
    cases complete with
    | false =>
      exact .inl ⟨_, answer_eq_of_handle (handle_of_incomplete w generation line hv), rfl, rfl, rfl⟩
    | true =>
      exact .inr ⟨_, _, answer_eq_of_handle (handle_of_complete w generation line hv), rfl, rfl⟩

/-! ## Runs -/

section Runs

variable {ι : Type}

/-- The responses to a list of tagged commands, each with the tag of its command, and the worker
afterwards. -/
def answerAll (w : LispWorker) : List (ι × Command) → List (ι × Response) × LispWorker
  | [] => ([], w)
  | (tag, c) :: rest =>
    let (step, next) := w.answer c
    let (responses, last) := answerAll next rest
    ((step.reply?.map (tag, ·)).toList ++ responses, last)

@[simp] theorem answerAll_nil (w : LispWorker) : w.answerAll ([] : List (ι × Command)) = ([], w) :=
  rfl

theorem answerAll_cons (w : LispWorker) (tag : ι) (c : Command) (rest : List (ι × Command)) :
    w.answerAll ((tag, c) :: rest) =
      (((w.answer c).1.reply?.map (tag, ·)).toList ++ ((w.answer c).2.answerAll rest).1,
        ((w.answer c).2.answerAll rest).2) := rfl

/-- A run over two lists is a run over the first and then one over the second. -/
theorem answerAll_append (w : LispWorker) (first second : List (ι × Command)) :
    w.answerAll (first ++ second) =
      ((w.answerAll first).1 ++ ((w.answerAll first).2.answerAll second).1,
        ((w.answerAll first).2.answerAll second).2) := by
  induction first generalizing w with
  | nil => rfl
  | cons head rest ih =>
    obtain ⟨tag, c⟩ := head
    simp only [List.cons_append, answerAll_cons, ih, List.append_assoc]

end Runs

/-- The replies to commands, each with the command that it answers, and the worker afterwards. -/
def replies (w : LispWorker) (cs : List Command) : List (Command × Response) × LispWorker :=
  w.answerAll (cs.map fun c => (c, c))

theorem replies_cons (w : LispWorker) (c : Command) (cs : List Command) :
    w.replies (c :: cs) =
      (((w.answer c).1.reply?.map (c, ·)).toList ++ ((w.answer c).2.replies cs).1,
        ((w.answer c).2.replies cs).2) := rfl

theorem replies_append (w : LispWorker) (first second : List Command) :
    w.replies (first ++ second) =
      ((w.replies first).1 ++ ((w.replies first).2.replies second).1,
        ((w.replies first).2.replies second).2) := by
  rw [replies, List.map_append, answerAll_append]
  rfl

end LispWorker

end LispRepl

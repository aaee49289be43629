import LispRepl.Proofs.LineReading
import LispRepl.Proofs.WorkerRun

/-!
# Line by line and all at once

A text that can be read is evaluated to the same end whether it is given to a worker line by line
or evaluated as a whole. The worker cuts it into chunks, each of the lines up to a complete reply,
and the chunks hold the expressions of the whole text in order; the bindings made by one chunk are
there for the next. A chunk without an expression has an empty reply, which the whole text knows
nothing of, so that only the other chunks have a say in the text of the result.

- `evalBody_append`: a sequence of expressions in two parts.
- `chunks`, `shownTexts`: the lines of each complete reply, and the texts of those replies that have
  an expression behind them.
- `Agrees`: what the replies have to do with the result of the whole text.
- `LispWorker.agrees_run`: a run of the worker agrees, from any lines held.
- `LispWorker.lines_agree_with_source`: a run from a fresh worker.
-/

set_option autoImplicit false

namespace LispRepl

/-! ## Sequences of expressions -/

theorem evalBody_cons (ev : Evaluation) (scope : ScopeId) (last e : Value) (es : List Value)
    (store : Store) :
    evalBody ev scope last (e :: es) store =
      match ev e scope store with
      | (.ok v, next) => evalBody ev scope v es next
      | (.error e, next) => (.error e, next) := by
  change Eval.andThen (ev e scope) (fun v => evalBody ev scope v es) store = _
  rw [Eval.andThen]
  rcases ev e scope store with ⟨fault | v, next⟩ <;> rfl

theorem evalBody_append (ev : Evaluation) (scope : ScopeId) (last : Value)
    (first second : List Value) (store : Store) :
    evalBody ev scope last (first ++ second) store =
      match evalBody ev scope last first store with
      | (.ok v, next) => evalBody ev scope v second next
      | (.error e, next) => (.error e, next) := by
  induction first generalizing last store with
  | nil => rfl
  | cons e first ih =>
    rw [List.cons_append, evalBody_cons, evalBody_cons]
    rcases ev e scope store with ⟨fault | v, next⟩
    · rfl
    · exact ih v next

theorem evalSource_of_readable {limit : Nat} {source : String} {es : List Value}
    (readable : readSource limit source = .ok es) :
    evalSource limit source = (evalSequence limit es Store.initial).1.map Value.text := by
  rw [evalSource, readable]
  change ((evalSequence limit es Store.initial).1 >>= fun v => .ok v.text) = _
  cases (evalSequence limit es Store.initial).1 <;> rfl

/-! ## Replies and their chunks -/

namespace Response

/-- The outcome is a failure. -/
def failed (r : Response) : Bool :=
  match r.outcome with
  | some (.failure _) => true
  | _ => false

/-- The text of the outcome. -/
def text (r : Response) : String :=
  match r.outcome with
  | some (.success text) => text
  | some (.failure text) => text
  | none => ""

end Response

/-- The complete replies, each with the lines from behind the last complete reply before it;
`held` are the lines before the first. -/
def chunks (held : List String) : List (String × Response) → List (List String × Response)
  | [] => []
  | (line, r) :: rest =>
    if r.complete then (held ++ [line], r) :: chunks [] rest else chunks (held ++ [line]) rest

/-- The lines hold an expression. -/
def holdsExpression (limit : Nat) (lines : List String) : Bool :=
  match readSource limit (sourceText lines) with
  | .ok (_ :: _) => true
  | _ => false

/-- The texts of the complete replies whose lines hold an expression. -/
def shownTexts (limit : Nat) (held : List String) (replies : List (String × Response)) :
    List String :=
  ((chunks held replies).filter fun c => holdsExpression limit c.1).map fun c => c.2.text

/-- What the replies to lines, behind lines already held, have to do with the result of evaluating
all of them at once, where `last` is the value before them: there is no failure, the last reply is
complete, the last text shown is that of the value, and the stores are the same; or the first
failure is that of the result. -/
def Agrees (limit : Nat) (held : List String) (last : Value) (replies : List (String × Response))
    (store : Store) : Except LispError Value × Store → Prop
  | (.ok v, final) =>
    (∀ a ∈ replies, a.2.failed = false) ∧
      (replies.getLast?.map fun a => a.2.complete).getD held.isEmpty = true ∧
      (shownTexts limit held replies).getLast?.getD last.text = v.text ∧ store = final
  | (.error e, _) =>
    (replies.find? fun a => a.2.failed).map (fun a => a.2.outcome) =
      some (some (.failure e.message))

section Agreement

variable {limit : Nat} {held : List String} {last v : Value} {line : String} {r : Response}
variable {replies : List (String × Response)} {store : Store}
variable {result : Except LispError Value × Store}

theorem complete_cons (line : String) (r : Response) (replies : List (String × Response))
    (first : Bool) :
    (((line, r) :: replies).getLast?.map fun a => a.2.complete).getD first =
      (replies.getLast?.map fun a => a.2.complete).getD r.complete := by
  rw [List.getLast?_cons]
  cases replies.getLast? <;> rfl

/-- A reply that the input is incomplete adds a line to those held. -/
theorem agrees_incomplete (incomplete : r.complete = false) (silent : r.outcome = none)
    (h : Agrees limit (held ++ [line]) last replies store result) :
    Agrees limit held last ((line, r) :: replies) store result := by
  have unfailed : r.failed = false := by rw [Response.failed, silent]
  have chunk : chunks held ((line, r) :: replies) = chunks (held ++ [line]) replies := by
    rw [chunks, incomplete]
    rfl
  obtain ⟨fault | v, final⟩ := result
  · rw [Agrees, List.find?_cons_of_neg (by simp [unfailed])]
    exact h
  · obtain ⟨failures, complete, shown, same⟩ := h
    refine ⟨List.forall_mem_cons.2 ⟨unfailed, failures⟩, ?_, ?_, same⟩
    · rw [complete_cons, incomplete]
      rwa [List.isEmpty_eq_false_iff.2 (by simp)] at complete
    · rw [shownTexts, chunk]
      exact shown

/-- A complete reply ends a chunk, which has a say in the text if it holds an expression. -/
theorem agrees_complete {next : Value} (complete : r.complete = true) (unfailed : r.failed = false)
    (shows : next.text = if holdsExpression limit (held ++ [line]) then r.text else last.text)
    (h : Agrees limit [] next replies store result) :
    Agrees limit held last ((line, r) :: replies) store result := by
  have chunk : chunks held ((line, r) :: replies) =
      (held ++ [line], r) :: chunks [] replies := by
    rw [chunks, complete]
    rfl
  obtain ⟨fault | v, final⟩ := result
  · rw [Agrees, List.find?_cons_of_neg (by simp [unfailed])]
    exact h
  · obtain ⟨failures, ends, shown, same⟩ := h
    refine ⟨List.forall_mem_cons.2 ⟨unfailed, failures⟩, ?_, ?_, same⟩
    · rwa [complete_cons, complete]
    · rw [shows] at shown
      rw [shownTexts, chunk, List.filter_cons]
      cases holds : holdsExpression limit (held ++ [line]) with
      | false =>
        rw [holds] at shown
        exact shown
      | true =>
        rw [holds] at shown
        simp only [if_true, List.map_cons, List.getLast?_cons, Option.getD_some]
        exact shown

theorem agrees_failure {e : LispError} {final : Store}
    (outcome : r.outcome = some (.failure e.message)) :
    Agrees limit held last ((line, r) :: replies) store (.error e, final) := by
  have failed : r.failed = true := by rw [Response.failed, outcome]
  rw [Agrees, List.find?_cons, failed]
  exact congrArg Option.some outcome

end Agreement

/-! ## Runs of the worker -/

namespace LispWorker

/-- The requests for lines of the first generation. -/
def requestsFor (lines : List String) : List (String × Command) :=
  lines.map fun line => (line, .eval 0 line)

/-- What the worker holds between two requests: the lines since its last complete reply, which are
no whole expressions. -/
structure Holds (limit : Nat) (held : List String) (w : LispWorker) : Prop where
  generation : w.generation = 0
  limit_eq : w.backend.reader.limit = limit
  source : w.backend.reader.source = sourceText held
  begun : held = [] ∨ verdict limit (sourceText held) = .ok false

variable {limit : Nat} {held : List String} {w : LispWorker}

theorem holds_new (limit : Nat) : Holds limit [] (LispWorker.new limit) :=
  ⟨rfl, rfl, rfl, Or.inl rfl⟩

theorem holds_cleared (holds : Holds limit held w) (store : Store) (evals errors : Nat) :
    Holds limit [] ⟨⟨w.backend.reader.clear, store⟩, 0, evals, errors⟩ :=
  ⟨rfl, holds.limit_eq, rfl, Or.inl rfl⟩

theorem Holds.sourceWith (holds : Holds limit held w) (line : String) :
    w.sourceWith 0 line = sourceText (held ++ [line]) := by
  rw [LispWorker.sourceWith, ← holds.generation, readerFor_generation, holds.source,
    sourceText_snoc]

/-- Readable lines behind those held agree with the evaluation of all of them. -/
theorem agrees_run (lines : List String) {es : List Value} (last : Value)
    (holds : Holds limit held w)
    (readable : readSource limit (sourceText (held ++ lines)) = .ok es) :
    Agrees limit held last (w.answerAll (requestsFor lines)).1
      (w.answerAll (requestsFor lines)).2.backend.store
      (evalBody (eval limit (limit + 1)) Store.globalId last es w.backend.store) := by
  induction lines generalizing held w es last with
  | nil =>
    rw [List.append_nil] at readable
    -- Lines still held at the end would be readable and incomplete at once.
    rcases holds.begun with rfl | incomplete
    · have none : readSource limit (sourceText []) = .ok [] := rfl
      rw [none] at readable
      cases readable
      exact ⟨(fun a member => by cases member), rfl, rfl, rfl⟩
    · rw [verdict_of_readSource readable] at incomplete
      cases incomplete
  | cons line lines ih =>
    have text : sourceText (held ++ line :: lines) =
        sourceText held ++ line ++ "\n" ++ sourceText lines := by
      rw [sourceText_append, sourceText]
      simp [String.append_assoc]
    have request : requestsFor (line :: lines) = (line, .eval 0 line) :: requestsFor lines := rfl
    rw [request, answerAll_cons]
    have cut := readable
    rw [text] at cut
    have here := holds.sourceWith line
    -- No line is rejected: up to it, the text is incomplete or made of whole expressions.
    rcases readSource_append cut with incomplete | ⟨complete, before, after, first, second, rfl⟩
    · rw [← sourceText_snoc, ← here, ← holds.limit_eq] at incomplete
      rw [answer_eq_of_handle (handle_of_incomplete w 0 line incomplete)]
      rw [holds.limit_eq, here] at incomplete
      apply agrees_incomplete rfl rfl
      refine ih last ⟨rfl, holds.limit_eq, here, Or.inr incomplete⟩ ?_
      rwa [List.append_assoc]
    · rw [← sourceText_snoc] at complete first
      rw [← here, ← holds.limit_eq] at complete
      have chunk := first
      rw [← here, ← holds.limit_eq] at chunk
      have behind (last : Value) (store : Store) (evals errors : Nat) := ih last
        (holds_cleared holds store evals errors) second
      rw [answer_eq_of_handle (handle_of_complete w 0 line complete), evalBody_append]
      cases before with
      | nil =>
        -- The worker shows an empty text, and the whole text keeps the value before.
        have none : holdsExpression limit (held ++ [line]) = false := by
          rw [holdsExpression, first]
        have blank : evalSequence w.backend.reader.limit [] w.backend.store =
            (.ok .unspecified, w.backend.store) := rfl
        rw [LispBackend.evaluate_value chunk blank]
        refine agrees_complete rfl rfl ?_ (behind last _ _ _)
        rw [none]
        rfl
      | cons e es =>
        have some : holdsExpression limit (held ++ [line]) = true := by
          rw [holdsExpression, first]
        -- The value before does not matter, because there is an expression.
        have same : evalBody (eval limit (limit + 1)) Store.globalId last (e :: es)
            w.backend.store = evalSequence w.backend.reader.limit (e :: es) w.backend.store := by
          rw [holds.limit_eq]
          rfl
        rw [same]
        rcases result : evalSequence w.backend.reader.limit (e :: es) w.backend.store with
          ⟨fault | v, next⟩
        · rw [LispBackend.evaluate_error chunk result]
          exact agrees_failure rfl
        · rw [LispBackend.evaluate_value chunk result]
          refine agrees_complete rfl rfl ?_ (behind v next _ _)
          rw [some]
          rfl

theorem replied_once (w : LispWorker) (lines : List String) :
    (w.answerAll (requestsFor lines)).1.map Prod.fst = lines := by
  induction lines generalizing w with
  | nil => rfl
  | cons line lines ih =>
    have request : requestsFor (line :: lines) = (line, .eval 0 line) :: requestsFor lines := rfl
    rw [request, answerAll_cons]
    rcases answer_eval_cases w 0 line with ⟨next, answer, -⟩ | ⟨outcome, next, answer, -⟩
    · rw [answer]
      exact congrArg (line :: ·) (ih next)
    · rw [answer]
      exact congrArg (line :: ·) (ih next)

/-- A readable text that is given to a fresh worker line by line, as requests of one generation.
Every line has one reply. Where the text as a whole has a value, no reply is a failure, the last
one is complete, the text of the value is that of the last complete reply whose lines hold an
expression, and the same bindings are left; where it has an error, the first failure is its
wording. -/
theorem lines_agree_with_source (limit : Nat) (lines : List String) (es : List Value)
    (readable : readSource limit (sourceText lines) = .ok es) :
    let run := (LispWorker.new limit).answerAll (requestsFor lines)
    run.1.map Prod.fst = lines ∧
      (∀ text, evalSource limit (sourceText lines) = .ok text →
        (∀ a ∈ run.1, a.2.failed = false) ∧
          (∀ a, run.1.getLast? = some a → a.2.complete = true) ∧
          (shownTexts limit [] run.1).getLast?.getD "" = text ∧
          run.2.backend.store = (evalSequence limit es Store.initial).2) ∧
      (∀ e, evalSource limit (sourceText lines) = .error e →
        (run.1.find? fun a => a.2.failed).map (fun a => a.2.outcome) =
          some (some (.failure e.message))) := by
  intro run
  have agrees := agrees_run lines .unspecified (holds_new limit) readable
  change Agrees limit [] .unspecified run.1 run.2.backend.store
    (evalSequence limit es Store.initial) at agrees
  rw [evalSource_of_readable readable]
  generalize evalSequence limit es Store.initial = result at agrees ⊢
  obtain ⟨fault | v, final⟩ := result
  · refine ⟨replied_once _ lines, (fun text value => by cases value), fun e same => ?_⟩
    cases same
    exact agrees
  · refine ⟨replied_once _ lines, fun text value => ?_, (fun e same => by cases same)⟩
    cases value
    obtain ⟨failures, complete, shown, same⟩ := agrees
    refine ⟨failures, fun a last => ?_, shown, same⟩
    rw [last] at complete
    exact complete

/-- The case of a definition and a quoted list, each over two lines, and two lines without an
expression. -/
theorem lines_agree_with_source_definition :
    let lines := ["(define x", "'c) ; once", "", "'(a", "b)", "; end"]
    let run := (LispWorker.new 8).answerAll (requestsFor lines)
    evalSource 8 (sourceText lines) = .ok "(a b)" ∧ run.1.map Prod.fst = lines ∧
      (∀ a ∈ run.1, a.2.failed = false) ∧
      (shownTexts 8 [] run.1).getLast?.getD "" = "(a b)" := by
  have readable : readSource 8 (sourceText ["(define x", "'c) ; once", "", "'(a", "b)", "; end"]) =
      .ok [.list [.symbol "define", .symbol "x", .list [.symbol "quote", .symbol "c"]],
        .list [.symbol "quote", .list [.symbol "a", .symbol "b"]]] := by rfl
  intro lines run
  have value : evalSource 8 (sourceText lines) = .ok "(a b)" := by
    rw [evalSource_of_readable readable]
    rfl
  obtain ⟨once, whole, -⟩ := lines_agree_with_source 8 lines _ readable
  obtain ⟨failures, -, shown, -⟩ := whole "(a b)" value
  exact ⟨value, once, failures, shown⟩

end LispWorker

end LispRepl

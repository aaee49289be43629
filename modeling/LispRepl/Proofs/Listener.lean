import LispRepl.MetaCommand
import LispRepl.Proofs.BridgeTransition
import LispRepl.Proofs.WorkerRun
import LispRepl.Terminal.Scripted
import Mathlib.Data.List.Basic

/-!
# A sequential session

A listener is a session without queues: it takes the lines of a script in order and is done with
each before it takes the next. While it holds no partial expression it obeys meta commands and
ignores blank lines. Every other line is pushed into its one reader, and once the lines held are
complete they are evaluated against its one store; what comes of them is shown, and the next line
is asked for.

The bridge and the Lisp worker between them do the same to a line: with the worker in the bridge's
generation and both holding what the listener holds, the worker's answer makes the bridge show what
the listener shows and ask with the same prompt, and again all three hold the same.

- `Listener`, `Listener.push`, `Listener.take`: the listener and its answer to a line.
- `Listener.Turn`, `Listener.turns`, `Listener.transcript`: what it does with the lines of a script.
- `Listener.Hears`: the bridge and the worker hold what the listener holds.
- `Listener.due_of_push`: they do with a line what the listener does.
-/

set_option autoImplicit false

namespace LispRepl

/-- The text of an entry of output. -/
def Entry.output? : Entry → Option String
  | .output text => some text
  | _ => none

/-- The text of a prompt. -/
def Entry.prompt? : Entry → Option String
  | .prompt text => some text
  | _ => none

/-- The lines of a partial expression, and the bindings made so far. -/
structure Listener where
  reader : Reader
  store : Store

namespace Listener

/-- The listener before any line, with this limit on nesting. -/
def new (limit : Nat) : Listener :=
  ⟨.new limit, .initial⟩

/-- Evaluates the lines held, which are forgotten. -/
def evaluate (l : Listener) : Outcome × Listener :=
  match l.reader.take with
  | (.error e, reader) => (.failure e.message, ⟨reader, l.store⟩)
  | (.ok es, reader) =>
    match evalSequence reader.limit es l.store with
    | (.ok v, store) => (.success v.text, ⟨reader, store⟩)
    | (.error e, store) => (.failure e.message, ⟨reader, store⟩)

/-- Pushes a line. An expression that is still incomplete has no outcome; behind an error nothing
is held. -/
def push (l : Listener) (line : String) : Option Outcome × Listener :=
  match l.reader.pushLine line with
  | (.error e, reader) => (some (.failure e.message), ⟨reader.clear, l.store⟩)
  | (.ok false, reader) => (none, ⟨reader, l.store⟩)
  | (.ok true, reader) =>
    (some (evaluate ⟨reader, l.store⟩).1, (evaluate ⟨reader, l.store⟩).2)

/-- The prompt for the next line. -/
def prompt (l : Listener) (prompts : Prompts) : String :=
  if l.reader.isEmpty then prompts.primary else prompts.continuation

/-- What is shown for a line, and the listener behind it; none where the line leaves the session. -/
def take (l : Listener) (line : InputLine) : Option (List String × Listener) :=
  match if l.reader.isEmpty then MetaCommand.ofLine? line.text else none with
  | some .exit => none
  | some .clear => some ([], l)
  | some (.output lines) => some (lines, l)
  | none =>
    if l.reader.isEmpty && line.isBlank then some ([], l)
    else some (((l.push line.text).1.bind Outcome.render).toList, (l.push line.text).2)

/-- A line that was taken. -/
structure Turn where
  line : InputLine
  shown : List String
  /-- The prompt for the next line; none behind a line that leaves the session. -/
  asked : Option String

/-- The turns of a listener with the lines of a script. -/
def turns (prompts : Prompts) : Listener → List InputLine → List Turn
  | _, [] => []
  | l, line :: rest =>
    match l.take line with
    | none => [⟨line, [], none⟩]
    | some (shown, next) => ⟨line, shown, some (next.prompt prompts)⟩ :: turns prompts next rest

/-- What is on the terminal of a turn. -/
def Turn.entries (t : Turn) : List Entry :=
  .event (.line t.line) :: (t.shown.map .output ++ (t.asked.map .prompt).toList)

/-- What is on the terminal of a listener behind its first prompt: its turns and, unless a line
leaves the session, the end of the script. -/
def transcript (prompts : Prompts) (l : Listener) (lines : List InputLine) : List Entry :=
  (l.turns prompts lines).flatMap Turn.entries ++
    if (l.turns prompts lines).all fun t => t.asked.isSome then [.event .closed] else []

variable {prompts : Prompts} {l next : Listener} {line : InputLine} {rest : List InputLine}

/-- A line that is no command, or comes while a partial expression is held. -/
theorem take_of_plain (plain : l.reader.isEmpty = true → MetaCommand.ofLine? line.text = none) :
    l.take line =
      if l.reader.isEmpty && line.isBlank then some ([], l)
      else some (((l.push line.text).1.bind Outcome.render).toList, (l.push line.text).2) := by
  cases empty : l.reader.isEmpty with
  | false => simp [take, empty]
  | true => simp [take, empty, plain empty]

theorem transcript_of_left (left : l.take line = none) :
    l.transcript prompts (line :: rest) = [.event (.line line)] := by
  simp [transcript, turns, left, Turn.entries]

theorem transcript_of_take {shown : List String} (taken : l.take line = some (shown, next)) :
    l.transcript prompts (line :: rest) =
      .event (.line line) ::
        (shown.map .output ++ .prompt (next.prompt prompts) :: next.transcript prompts rest) := by
  simp [transcript, turns, taken, Turn.entries]

/-- The output of a turn is what it shows. -/
theorem Turn.output_entries (t : Turn) : t.entries.filterMap Entry.output? = t.shown := by
  have prompted : (t.asked.map Entry.prompt).toList.filterMap Entry.output? = [] := by
    cases t.asked <;> rfl
  have echoed : t.shown.filterMap (Entry.output? ∘ Entry.output) = t.shown := List.filterMap_some
  rw [entries, List.filterMap_cons_none rfl, List.filterMap_append, List.filterMap_map, prompted,
    echoed, List.append_nil]

/-- The prompts of a turn are the one that it asks with, if it asks. -/
theorem Turn.prompts_entries (t : Turn) :
    t.entries.filterMap Entry.prompt? = t.asked.toList := by
  have prompted : (t.asked.map Entry.prompt).toList.filterMap Entry.prompt? = t.asked.toList := by
    cases t.asked <;> rfl
  have silent : t.shown.filterMap (Entry.prompt? ∘ Entry.output) = [] :=
    List.filterMap_eq_nil_iff.2 fun _ _ => rfl
  rw [entries, List.filterMap_cons_none rfl, List.filterMap_append, List.filterMap_map, prompted,
    silent, List.nil_append]

/-- The output and the prompts on a terminal with the transcript of a listener are those of the
turns. -/
theorem shown_of_transcript {t : ScriptedTerminal} {lines : List InputLine}
    (same : t.transcript = .prompt prompts.primary :: l.transcript prompts lines) :
    t.output = (l.turns prompts lines).flatMap Turn.shown ∧
      t.prompts = prompts.primary :: (l.turns prompts lines).filterMap Turn.asked := by
  have output : t.output = t.transcript.filterMap Entry.output? := rfl
  have asked : t.prompts = t.transcript.filterMap Entry.prompt? := rfl
  rw [output, asked, same, transcript]
  generalize l.turns prompts lines = turns
  constructor
  · have closing : (if turns.all fun t => t.asked.isSome then [Entry.event .closed] else []).filterMap
        Entry.output? = [] := by split <;> rfl
    rw [List.filterMap_cons_none rfl, List.filterMap_append, closing, List.append_nil,
      List.filterMap_flatMap, funext Turn.output_entries]
  · have closing : (if turns.all fun t => t.asked.isSome then [Entry.event .closed] else []).filterMap
        Entry.prompt? = [] := by split <;> rfl
    have first : Entry.prompt? (.prompt prompts.primary) = some prompts.primary := rfl
    rw [List.filterMap_cons_some first, List.filterMap_append, closing, List.append_nil,
      List.filterMap_flatMap, List.filterMap_eq_flatMap_toList, funext Turn.prompts_entries]

end Listener

/-! ## What is held -/

/-- A reader between two lines is empty, or it holds a text that is not complete. -/
inductive Reader.Between (limit : Nat) : Reader → Prop where
  | empty : Between limit (.new limit)
  | held {source : String} {lines : Nat} : source ≠ "" →
    Between limit ⟨limit, source, lines + 1, false⟩

theorem Reader.Between.limited {limit : Nat} {r : Reader} (between : r.Between limit) :
    r.limit = limit := by
  cases between <;> rfl

namespace Listener

/-- The worker is in the bridge's generation, and both hold what the listener holds. -/
structure Hears (limit : Nat) (l : Listener) (b : Bridge) (w : LispWorker) : Prop where
  between : l.reader.Between limit
  pending : b.pending = l.reader.source
  lines : b.pendingLines = l.reader.lines
  generation : w.generation = b.generation
  backend : w.backend = ⟨l.reader, l.store⟩

variable {limit : Nat} {l : Listener} {b : Bridge} {w : LispWorker}

theorem isEmpty_eq (between : l.reader.Between limit) :
    l.reader.isEmpty = (l.reader.source == "") := by
  obtain ⟨reader, store⟩ := l
  cases between with
  | empty => rfl
  | held begun => exact (beq_eq_false_iff_ne.2 begun).symm

theorem Hears.isIdle (hears : l.Hears limit b w) (awaiting : b.isEvaluating = false) :
    b.isIdle = l.reader.isEmpty := by
  rw [Bridge.isIdle, awaiting, hears.pending, isEmpty_eq hears.between]
  rfl

/-- The bridge and the listener ask with the same prompt. -/
theorem Hears.prompt (hears : l.Hears limit b w) (tidy : b.Tidy)
    (awaiting : b.isEvaluating = false) : b.prompt = l.prompt b.prompts := by
  have more := tidy.more awaiting
  rw [hears.pending] at more
  rw [Bridge.prompt, Listener.prompt, isEmpty_eq hears.between]
  by_cases begun : l.reader.source = ""
  · have primary : b.awaitingMore = false := by
      rw [← Bool.not_eq_true, more]
      exact not_not_intro begun
    rw [primary, begun]
    rfl
  · rw [more.2 begun, beq_eq_false_iff_ne.2 begun]
    rfl

theorem hears_new (limit : Nat) (prompts : Prompts) :
    (new limit).Hears limit (.new prompts) (.new limit) :=
  ⟨.empty, rfl, rfl, rfl, rfl⟩

/-- A listener without a partial expression is not concerned when the input is given up. -/
theorem hears_abandon (hears : l.Hears limit b w) (empty : l.reader.isEmpty = true) :
    l.Hears limit b.abandon (w.answer (.reset b.abandon.generation)).2 := by
  obtain ⟨reader, store⟩ := l
  -- An empty reader is the new one, and the reset of the worker makes a new one.
  have new : reader = .new limit := by
    cases hears.between with
    | empty => rfl
    | held => cases empty
  subst new
  refine ⟨.empty, rfl, rfl, rfl, ?_⟩
  rw [LispWorker.answer_reset, hears.backend]
  rfl

/-! ## A line -/

/-- What a response that is on its way leads to: the bridge shows this and asks for a line, and
then holds what the listener holds. -/
structure Due (limit : Nat) (l : Listener) (b : Bridge) (w : LispWorker) (r : Response)
    (shown : List String) (next : Bridge) : Prop where
  step : b.onResponse r = (next, shown.map Effect.write ++ [.read next.prompt])
  awaiting : next.phase = .awaiting
  prompts : next.prompts = b.prompts
  hears : l.Hears limit next w

/-- A line that ends the input leaves nothing held, and what came of it is shown. -/
theorem due_finished {after : LispWorker} {store : Store} (line : String) (outcome : Outcome)
    (generation : after.generation = b.generation) (backend : after.backend = ⟨.new limit, store⟩) :
    Due limit ⟨.new limit, store⟩ (b.accept line) after (.finished b.generation outcome)
      outcome.render.toList (b.accept line).clear := by
  refine ⟨?_, rfl, rfl, .empty, rfl, rfl, generation, backend⟩
  simp [Bridge.onResponse, Bridge.onCurrent, Bridge.accept, Response.finished, UInt64.lt_irrefl,
    Option.toList_map]

/-- A line that leaves the input incomplete is held behind the others. -/
theorem due_incomplete (hears : l.Hears limit b w) {after : LispWorker} (line : String)
    (generation : after.generation = b.generation)
    (backend : after.backend =
      ⟨⟨limit, l.reader.source ++ line ++ "\n", l.reader.lines + 1, false⟩, l.store⟩) :
    Due limit ⟨⟨limit, l.reader.source ++ line ++ "\n", l.reader.lines + 1, false⟩, l.store⟩
      (b.accept line) after (.incomplete b.generation (l.reader.lines + 1)) []
      (b.accept line).awaitMore := by
  have begun : l.reader.source ++ line ++ "\n" ≠ "" :=
    hears.pending ▸ Bridge.accept_pending_ne b line
  refine ⟨?_, rfl, rfl, .held begun, ?_, ?_, generation, backend⟩
  · simp [Bridge.onResponse, Bridge.onCurrent, Bridge.accept, Response.incomplete,
      UInt64.lt_irrefl, hears.lines]
  · rw [← hears.pending]
    rfl
  · rw [← hears.lines]
    rfl

/-- The listener evaluates as the backend does. -/
theorem evaluate_eq (reader : Reader) (store : Store) :
    evaluate ⟨reader, store⟩ =
      ((LispBackend.evaluate reader.limit reader.source store).1.outcome,
        ⟨reader.clear, (LispBackend.evaluate reader.limit reader.source store).2⟩) := by
  simp only [evaluate, Reader.take, LispBackend.evaluate]
  cases readSource reader.limit reader.source with
  | error e => rfl
  | ok es =>
    have limited : reader.clear.limit = reader.limit := rfl
    simp only [limited]
    rcases evalSequence reader.limit es store with ⟨_ | v, next⟩ <;> rfl

/-- The answer of the worker to a line makes the bridge do what the listener does. -/
theorem due_of_push (hears : l.Hears limit b w) (line : String) :
    ∃ r after next, w.answer (.eval b.generation line) = (.reply r, after) ∧
      Due limit (l.push line).2 (b.accept line) after r
        ((l.push line).1.bind Outcome.render).toList next := by
  have limited := hears.between.limited
  have cleared : l.reader.clear = .new limit := congrArg Reader.new limited
  have reader : w.readerFor b.generation = l.reader := by
    rw [← hears.generation, LispWorker.readerFor_generation, hears.backend]
  have source : w.sourceWith b.generation line = l.reader.source ++ line ++ "\n" := by
    rw [LispWorker.sourceWith, reader]
  have held : w.backend.reader = l.reader := by rw [hears.backend]
  -- The worker judges the very text that the listener holds behind the line.
  cases judged : verdict w.backend.reader.limit (w.sourceWith b.generation line) with
  | error e =>
    have answer := LispWorker.handle_of_rejected w b.generation line judged
    have same := judged
    rw [held, limited, source] at same
    have pushed : l.push line = (some (.failure e.message), ⟨.new limit, l.store⟩) := by
      simp [push, Reader.pushLine, limited, same, cleared]
    refine ⟨_, _, (b.accept line).clear, LispWorker.answer_eq_of_handle answer, ?_⟩
    rw [pushed]
    refine due_finished line _ rfl ?_
    rw [held, cleared, hears.backend]
  | ok complete =>
    have same := judged
    rw [held, limited, source] at same
    cases complete with
    | false =>
      have answer := LispWorker.handle_of_incomplete w b.generation line judged
      have pushed : l.push line =
          (none, ⟨⟨limit, l.reader.source ++ line ++ "\n", l.reader.lines + 1, false⟩,
            l.store⟩) := by
        simp [push, Reader.pushLine, same, limited]
      rw [reader] at answer
      refine ⟨_, _, (b.accept line).awaitMore, LispWorker.answer_eq_of_handle answer, ?_⟩
      rw [pushed]
      refine due_incomplete hears line rfl ?_
      rw [held, limited, source, hears.backend]
    | true =>
      have answer := LispWorker.handle_of_complete w b.generation line judged
      have pushed : l.push line =
          (some (LispBackend.evaluate limit (l.reader.source ++ line ++ "\n") l.store).1.outcome,
            ⟨.new limit,
              (LispBackend.evaluate limit (l.reader.source ++ line ++ "\n") l.store).2⟩) := by
        simp [push, Reader.pushLine, same, limited, evaluate_eq, Reader.clear]
      rw [held, limited, source, hears.backend] at answer
      refine ⟨_, _, (b.accept line).clear, LispWorker.answer_eq_of_handle answer, ?_⟩
      rw [pushed]
      refine due_finished line _ rfl ?_
      rw [cleared]

end Listener

end LispRepl

import LispRepl.Proofs.Exchange
import LispRepl.Proofs.NameProvenance
import LispRepl.Proofs.NumberText

/-!
# The bridge and the Lisp worker never contradict each other

The bridge gives up its input when a response contradicts what it knows, and says so with
`desyncMessage`. Along a run of an exchange no response ever does (`Synced`), and the message does
not come from an evaluation either: the text of a value begins with a capital E only if the value
is a symbol, whose name is a word and holds no space, and no error is worded like the message.

- `text_ne_desyncMessage`, `message_ne_desync`: what evaluation shows is not the message.
- `Exchange.Worded`: every name on either side is a word.
- `Exchange.sides_agree`: the two sides agree along every run.
-/

set_option autoImplicit false

namespace LispRepl

/-! ## The text of a value -/

theorem head?_digits (a : Rational) : a.digits.head? ≠ some 'E' := by
  intro h
  rcases Rational.mem_digits (List.mem_of_mem_head? h) with digit | minus | slash
  · exact absurd digit (by decide)
  · exact absurd minus (by decide)
  · exact absurd slash (by decide)

/-- Only a symbol is shown with a capital E in front. -/
theorem exists_symbol_of_head? {v : Value} (h : v.chars.head? = some 'E') :
    ∃ name, v = .symbol name := by
  cases v with
  | symbol name => exact ⟨name, rfl⟩
  | number n => exact absurd h (head?_digits n)
  | nil => exact absurd (Option.some.inj h) (by decide)
  | unspecified => cases h
  | bool b => cases b <;> exact absurd (Option.some.inj h) (by decide)
  | string s => exact absurd (Option.some.inj h) (by decide)
  | list items => exact absurd (Option.some.inj h) (by decide)
  | dotted items tail => exact absurd (Option.some.inj h) (by decide)
  | builtin b => exact absurd (Option.some.inj h) (by decide)
  | lambda id name params rest body scope =>
    cases name <;> exact absurd (Option.some.inj h) (by decide)

/-- A value whose names are words is not shown as the message. -/
theorem text_ne_desyncMessage {v : Value} (hv : v.NamesIn IsWord) : v.text ≠ desyncMessage := by
  intro h
  have hchars : v.chars = desyncMessage.toList := by
    rw [← h, Value.text, String.toList_ofList]
  -- The message has a blank behind its first word, and no word has one.
  obtain ⟨name, rfl⟩ := exists_symbol_of_head? (by rw [hchars]; rfl)
  have hspace : ' ' ∈ name.toList := by
    rw [show name.toList = desyncMessage.toList from hchars]
    decide
  exact absurd (hv ' ' hspace) (by decide)

/-! ## The wording of an error -/

theorem begins_append {first rest : String} {c : Char} (h : first.toList.head? = some c) :
    (first ++ rest).toList.head? = some c := by
  rw [String.toList_append, List.head?_append, h]
  rfl

/-- A message that begins with a small E ends with a digit or an E. -/
theorem message_ne_desync (e : LispError) : "Error: " ++ e.message ≠ desyncMessage := by
  intro h
  have hchars : e.message.toList = desyncMessage.toList.drop 7 := by
    rw [← h, String.toList_append]
    rfl
  -- What the message has behind the prefix begins with a small E and ends with a small D.
  have hlast : e.message.toList.getLast? = some 'd' := by rw [hchars]; decide
  have hfirst : ∀ c, e.message.toList.head? = some c → c = 'e' := by
    intro c hc
    rw [hchars] at hc
    exact (Option.some.inj hc).symm
  -- Two wordings begin with a name of the session's own, so that their ends have to tell.
  cases e with
  | arity procedure expected got =>
    change (procedure ++ " expects " ++ expected.text ++ " argument(s), got " ++
      Text.natText got).toList.getLast? = some 'd' at hlast
    rw [String.toList_append, List.getLast?_append, Text.natText, String.toList_ofList,
      Text.natDigits, List.getLast?_eq_some_getLast Nat.toDigits_ne_nil] at hlast
    have hdigit := Text.isDigit_of_mem_natDigits (Option.some.inj hlast ▸ List.getLast_mem _)
    exact absurd hdigit (by decide)
  | notCallable text =>
    have hend : " is not a procedure".toList.getLast? = some 'e' := by decide
    change (text ++ " is not a procedure").toList.getLast? = some 'd' at hlast
    rw [String.toList_append, List.getLast?_append, hend] at hlast
    exact absurd (Option.some.inj hlast) (by decide)
  | lex fault =>
    cases fault with
    | unterminatedString line => exact absurd (hfirst 'U' (begins_append rfl)) (by decide)
    | invalidEscape char => exact absurd (hfirst 'I' (begins_append rfl)) (by decide)
    | invalidNumber word => exact absurd (hfirst 'I' (begins_append rfl)) (by decide)
  | unexpectedClose => exact absurd (hfirst 'U' rfl) (by decide)
  | unexpectedEof => exact absurd (hfirst 'U' rfl) (by decide)
  | malformed fault => exact absurd (hfirst 'S' (begins_append rfl)) (by decide)
  | tooDeep limit => exact absurd (hfirst 'E' (begins_append (begins_append rfl))) (by decide)
  | unbound name => exact absurd (hfirst 'S' (begins_append (begins_append rfl))) (by decide)
  | type expected found =>
    exact absurd (hfirst 'E' (begins_append (begins_append (begins_append rfl)))) (by decide)
  | divisionByZero => exact absurd (hfirst 'D' rfl) (by decide)
  | overflow => exact absurd (hfirst 'A' rfl) (by decide)
  | emptyList part =>
    cases part with
    | car => exact absurd (hfirst 'c' (begins_append rfl)) (by decide)
    | cdr => exact absurd (hfirst 'c' (begins_append rfl)) (by decide)
  | badForm fault =>
    exact absurd (hfirst 'I' (begins_append (begins_append (begins_append rfl)))) (by decide)
  | recursionLimit limit => exact absurd (hfirst 'R' (begins_append (begins_append rfl))) (by decide)

/-! ## What the worker shows -/

/-- The response does not show the message. -/
def Response.Unlike (r : Response) : Prop :=
  r.outcome.bind Outcome.render ≠ some desyncMessage

theorem unlike_failure (generation : Generation) (e : LispError) :
    (Response.finished generation (.failure e.message)).Unlike :=
  fun h => message_ne_desync e (Option.some.inj h)

theorem unlike_success {v : Value} (generation : Generation) (hv : v.NamesIn IsWord) :
    (Response.finished generation (.success v.text)).Unlike := by
  intro h
  simp only [Response.finished, Option.bind_some, Outcome.render] at h
  split at h
  · cases h
  · exact text_ne_desyncMessage hv (Option.some.inj h)

/-- Every name bound by the worker is a word. -/
def LispWorker.Worded (w : LispWorker) : Prop :=
  w.backend.store.Every (Value.NamesIn IsWord)

theorem worded_new (limit : Nat) : (LispWorker.new limit).Worded :=
  every_initial (hereditary_namesIn IsWord)

/-- An evaluation binds words to values of words, and does not show the message. -/
theorem worded_evaluate (limit : Nat) (source : String) (generation : Generation) {store : Store}
    (h : store.Every (Value.NamesIn IsWord)) :
    (LispBackend.evaluate limit source store).2.Every (Value.NamesIn IsWord) ∧
      (Response.finished generation
        (LispBackend.evaluate limit source store).1.outcome).Unlike := by
  rw [LispBackend.evaluate]
  cases hread : readSource limit source with
  | error e => exact ⟨h, unlike_failure generation e⟩
  | ok es =>
    obtain ⟨hnext, hends⟩ := keeps_evalSequence (hereditary_namesIn IsWord) limit
      (namesIn_of_readSource hread) store h
    dsimp only
    rcases hrun : evalSequence limit es store with ⟨e | v, next⟩
    · rw [hrun] at hnext
      exact ⟨hnext, unlike_failure generation e⟩
    · rw [hrun] at hnext hends
      exact ⟨hnext, unlike_success generation hends⟩

/-- No answer of the worker shows the message. -/
theorem worded_answer {w : LispWorker} (hw : w.Worded) (c : Command) :
    (w.answer c).2.Worded ∧ ∀ r ∈ (w.answer c).1.reply?, r.Unlike := by
  cases c with
  | eval generation line =>
    cases hv : verdict w.backend.reader.limit (w.sourceWith generation line) with
    | error e =>
      rw [LispWorker.answer_eq_of_handle (LispWorker.handle_of_rejected w generation line hv)]
      refine ⟨hw, fun r hr => ?_⟩
      cases hr
      exact unlike_failure generation e
    | ok complete =>
      cases complete with
      | false =>
        rw [LispWorker.answer_eq_of_handle (LispWorker.handle_of_incomplete w generation line hv)]
        refine ⟨hw, fun r hr => ?_⟩
        cases hr
        exact fun h => by cases h
      | true =>
        obtain ⟨hnext, hshown⟩ := worded_evaluate w.backend.reader.limit
          (w.sourceWith generation line) generation hw
        rw [LispWorker.answer_eq_of_handle (LispWorker.handle_of_complete w generation line hv)]
        refine ⟨hnext, fun r hr => ?_⟩
        cases hr
        exact hshown
  | reset generation => exact ⟨hw, fun r hr => by cases hr⟩
  | shutdown => exact ⟨hw, fun r hr => by cases hr⟩

namespace Exchange

/-! ## Runs -/

/-- Neither the worker nor a response on its way has a text like the message. -/
structure Worded (s : Exchange) : Prop where
  worker : s.worker.Worded
  responses : ∀ p ∈ s.responses, p.2.Unlike

theorem worded_step {s t : Exchange} {o : Occurrence} (step : Step s o t) (h : s.Worded) :
    t.Worded := by
  cases step with
  | line _ event => exact ⟨by simpa using h.worker, by simpa using h.responses⟩
  | interrupt event => exact ⟨by simpa using h.worker, by simpa using h.responses⟩
  | @handled n c rest step worker head event =>
    have hanswer := worded_answer h.worker c
    rw [LispWorker.answer_eq_of_handle event] at hanswer
    refine ⟨hanswer.1, fun p hp => ?_⟩
    rcases List.mem_append.1 hp with hp | hp
    · exact h.responses p hp
    · obtain ⟨r, hr, rfl⟩ := Option.map_eq_some_iff.1 (Option.mem_toList.1 hp)
      exact hanswer.2 r hr
  | delivered head event =>
    refine ⟨by simpa using h.worker, fun p hp => h.responses p ?_⟩
    rw [sendAll_responses] at hp
    rw [head]
    exact List.mem_cons_of_mem _ hp

theorem worded_run {limit : Nat} {prompts : Prompts} {log : List Occurrence} {s : Exchange}
    (run : Run (start limit prompts) log s) : s.Worded := by
  induction run with
  | nil => exact ⟨worded_new limit, by simp [start]⟩
  | snoc _ step ih => exact worded_step step ih

/-- A response that two sides in step deliver does not make the bridge give up its input. -/
theorem onResponse_ne_resync {s : Exchange} {n : Nat} {r : Response}
    {rest : List (Nat × Response)} (h : Synced s) (head : s.responses = (n, r) :: rest) :
    s.bridge.onResponse r ≠ s.bridge.resync := by
  intro resync
  rcases delivery_cases h head with ⟨_, dropped, _⟩ | ⟨phase, _, _, expected⟩
  · rw [dropped] at resync
    simp [Bridge.resync] at resync
  · obtain ⟨next, shown, _⟩ := onResponse_expected phase expected
    rw [shown] at resync
    -- The bridge writes or asks for a line first, and only to give up its input does it reset.
    cases hr : r.outcome.bind Outcome.render <;> simp [hr, Bridge.resync] at resync

/-- One step does not write the message. -/
theorem message_not_written {s t : Exchange} {o : Occurrence} (step : Step s o t) (h : Synced s)
    (worded : s.Worded) : Effect.write desyncMessage ∉ o.effects := by
  cases step with
  | line awaiting event =>
    rcases line_cases awaiting event with ⟨rfl, rfl⟩ | ⟨rfl, rfl⟩ <;> simp [Occurrence.effects]
  | interrupt event =>
    cases event
    simp [Occurrence.effects]
  | handled => simp [Occurrence.effects]
  | @delivered n r rest bridge effects head event =>
    have result : s.bridge.onResponse r = (bridge, effects) := Except.ok.inj event
    rcases delivery_cases h head with ⟨_, dropped, _⟩ | ⟨phase, _, _, expected⟩
    · rw [dropped] at result
      cases result
      simp [Occurrence.effects]
    · obtain ⟨next, shown, _⟩ := onResponse_expected phase expected
      have unlike : r.outcome.bind Outcome.render ≠ some desyncMessage :=
        worded.responses (n, r) (by simp [head])
      rw [shown] at result
      cases result
      intro written
      rcases List.mem_append.1 written with written | written
      · obtain ⟨text, htext, same⟩ := Option.map_eq_some_iff.1 (Option.mem_toList.1 written)
        cases same
        exact unlike htext
      · simp at written

theorem message_never_written {limit : Nat} {prompts : Prompts} {log : List Occurrence}
    {s : Exchange} (run : Run (start limit prompts) log s) (few : interrupts log < 2 ^ 64) :
    ∀ o ∈ log, Effect.write desyncMessage ∉ o.effects := by
  induction run with
  | nil => simp
  | @snoc log s t o run step ih =>
    have earlier := interrupts_before few
    intro p hp
    rcases List.mem_append.1 hp with hp | hp
    · exact ih earlier p hp
    · rw [List.mem_singleton] at hp
      subst hp
      exact message_not_written step (synced_run run earlier).1 (worded_run run)

/-- Whatever the order in which lines, interrupts and messages move, and as long as generations do
not wrap: the bridge never writes that the evaluator is out of sync, no response on its way makes
it give up its input, and while it awaits a line and nothing is on its way to the worker, the
worker holds the lines that the bridge holds. -/
theorem sides_agree {limit : Nat} {prompts : Prompts} {log : List Occurrence} {s : Exchange}
    (run : Run (start limit prompts) log s) (few : interrupts log < 2 ^ 64) :
    (∀ o ∈ log, Effect.write desyncMessage ∉ o.effects) ∧
      (∀ n r rest, s.responses = (n, r) :: rest → s.bridge.onResponse r ≠ s.bridge.resync) ∧
      (s.bridge.phase = .awaiting → s.commands = [] →
        s.worker.backend.reader.source = s.bridge.pending ∧
          s.worker.backend.reader.lines = s.bridge.pendingLines) := by
  have synced := (synced_run run few).1
  refine ⟨message_never_written run few, fun n r rest head => onResponse_ne_resync synced head, ?_⟩
  intro awaiting quiet
  cases synced with
  | evaluating phase => exact absurd (awaiting.symm.trans phase) (by simp)
  | awaiting _ _ holds =>
    rw [settled_of_commands_nil quiet] at holds
    exact ⟨holds.source, holds.lines⟩

/-- An interrupt overtakes the answer to the first line of an expression: the answer is dropped,
and the worker forgets the line that it held. -/
theorem sides_agree_after_interrupt :
    ∃ log s, Run (start 8 .standard) log s ∧ interrupts log < 2 ^ 64 ∧
      s.bridge.phase = .awaiting ∧ s.commands = [] ∧
      s.worker.backend.reader.source = s.bridge.pending ∧
      s.worker.backend.reader.lines = s.bridge.pendingLines := by
  have accepted := Run.nil.snoc (@Step.line (start 8 .standard) ⟨"(+ 1"⟩ _ _ rfl rfl)
  have interrupted := accepted.snoc (@Step.interrupt _ "SIGINT" _ _ rfl)
  have held := interrupted.snoc (.handled rfl (LispWorker.handle_of_incomplete _ 0 "(+ 1" rfl))
  have forgotten := held.snoc (.handled rfl rfl)
  have dropped := forgotten.snoc (.delivered rfl rfl)
  exact ⟨_, _, dropped, by decide, rfl, rfl, (sides_agree dropped (by decide)).2.2 rfl rfl⟩

end Exchange

end LispRepl

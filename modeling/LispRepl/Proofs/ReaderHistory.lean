import LispRepl.Proofs.LineSplitting
import LispRepl.Text.Position

/-!
# The reader along its history

A reader is given lines, and what it holds is taken or given up, in any order. The calls and the
answers to them alone say which lines it holds: those accepted since it was last emptied. Its text
is that of these lines, and its judgement is the one on this text.

The text can be kept in one place. A line is put behind it before the two are judged, and after a
rejection the text is cut back to the size that it had, which is a position between characters
whatever the line was. Nothing is seen of that from outside.

- `Reader.pushInPlace?`: a line that is judged where it stands; `Reader.pushInPlace?_eq` compares it
  with a line that is judged on a copy.
- `Reader.Call`, `Reader.Entry`, `Reader.serveAll`: the calls of a reader and the log of them.
- `Reader.accepted`: the lines accepted since the reader was last emptied, by the log.
- `Reader.Holds`, `Reader.holds_serveAll`: what the reader holds, along every log.
- `Reader.holds_accepted_lines`: the result.
-/

set_option autoImplicit false

namespace LispRepl

theorem sourceText_eq_empty_iff {lines : List String} : sourceText lines = "" ↔ lines = [] := by
  constructor
  · intro h
    cases lines with
    | nil => rfl
    | cons line lines => simp [sourceText] at h
  · rintro rfl
    rfl

namespace Reader

/-- Takes a line into the text, judges the text, and cuts it back if the line is rejected. -/
def pushInPlace? (r : Reader) (line : String) : Option (Except LispError Bool × Reader) :=
  let grown := { r with source := r.source ++ line ++ "\n" }
  match verdict grown.limit grown.source with
  | .ok complete =>
    some (.ok complete, { grown with lines := grown.lines + 1, complete := complete })
  | .error e =>
    -- The line is gone, and the judgement on the lines before it still stands.
    (Text.truncate? grown.source r.source.utf8ByteSize).map fun source =>
      (.error e, { grown with source := source })

/-- A line that is judged where it stands is answered as one that is judged on a copy, and leaves
the same reader. -/
theorem pushInPlace?_eq (r : Reader) (line : String) :
    r.pushInPlace? line = some (r.pushLine line) := by
  cases judged : verdict r.limit (r.source ++ line ++ "\n") with
  | ok complete =>
    rw [pushLine_ok judged, pushInPlace?]
    simp only [judged]
  | error e =>
    have back : Text.truncate? (r.source ++ line ++ "\n") r.source.utf8ByteSize =
        some r.source := by
      rw [String.append_assoc]
      exact Text.truncate?_append r.source (line ++ "\n")
    rw [pushLine_error judged, pushInPlace?]
    simp only [judged, back, Option.map_some]

/-! ## Calls and their log -/

/-- What a reader is asked to do. -/
inductive Call where
  | push (line : String)
  | take
  | clear
deriving DecidableEq

/-- A call and the answer to it. -/
inductive Entry where
  | pushed (line : String) (answer : Except LispError Bool)
  | taken (answer : Except LispError (List Value))
  | cleared

/-- The lines that are held after a call: one more if one is accepted, and none if they are taken or
given up. -/
def Entry.keep (lines : List String) : Entry → List String
  | .pushed line (.ok _) => lines ++ [line]
  | .pushed _ (.error _) => lines
  | .taken _ | .cleared => []

/-- The reader answers a call. -/
def serve (r : Reader) : Call → Entry × Reader
  | .push line => (.pushed line (r.pushLine line).1, (r.pushLine line).2)
  | .take => (.taken r.take.1, r.take.2)
  | .clear => (.cleared, r.clear)

/-- The log of some calls, and the reader behind them. -/
def serveAll (r : Reader) : List Call → List Entry × Reader
  | [] => ([], r)
  | c :: calls =>
    let (entry, next) := r.serve c
    let (log, last) := next.serveAll calls
    (entry :: log, last)

/-- The lines accepted since the reader was last emptied. -/
def accepted (log : List Entry) : List String :=
  log.foldl Entry.keep []

/-! ## What the reader holds -/

variable {limit : Nat} {lines : List String} {r : Reader}

/-- The reader holds the lines: its text is theirs, and it is complete if there are any and they are
judged so. -/
structure Holds (limit : Nat) (lines : List String) (r : Reader) : Prop where
  limit_eq : r.limit = limit
  source_eq : r.source = sourceText lines
  lines_eq : r.lines = lines.length
  complete_iff : r.complete = true ↔ lines ≠ [] ∧ verdict limit (sourceText lines) = .ok true

theorem holds_new (limit : Nat) : (new limit).Holds limit [] where
  limit_eq := rfl
  source_eq := rfl
  lines_eq := rfl
  complete_iff := by simp [new]

theorem Holds.clear_eq (holds : r.Holds limit lines) : r.clear = new limit := by
  rw [clear, holds.limit_eq]

theorem Holds.cleared (holds : r.Holds limit lines) : r.clear.Holds limit [] := by
  rw [holds.clear_eq]
  exact holds_new limit

theorem Holds.source_with (holds : r.Holds limit lines) (line : String) :
    r.source ++ line ++ "\n" = sourceText (lines ++ [line]) := by
  rw [sourceText_snoc, holds.source_eq]

theorem Holds.isEmpty_iff (holds : r.Holds limit lines) : r.isEmpty = true ↔ r.source = "" := by
  rw [holds.source_eq, sourceText_eq_empty_iff, isEmpty, beq_iff_eq, holds.lines_eq,
    List.length_eq_zero_iff]

/-- A line is answered with the verdict on the text that it makes, and only one that is accepted is
held. -/
theorem Holds.push (holds : r.Holds limit lines) (line : String) :
    (r.pushLine line).1 = verdict limit (sourceText (lines ++ [line])) ∧
      (∀ complete, (r.pushLine line).1 = .ok complete →
        (r.pushLine line).2.Holds limit (lines ++ [line])) ∧
      ∀ e, (r.pushLine line).1 = .error e → (r.pushLine line).2 = r := by
  rw [← holds.source_with line, ← holds.limit_eq]
  cases judged : verdict r.limit (r.source ++ line ++ "\n") with
  | error e =>
    rw [pushLine_error judged]
    exact ⟨rfl, nofun, fun _ _ => rfl⟩
  | ok complete =>
    rw [pushLine_ok judged]
    refine ⟨rfl, fun _ _ => ⟨rfl, holds.source_with line, ?_, ?_⟩, nofun⟩
    · rw [List.length_append, holds.lines_eq]
      rfl
    · rw [← holds.source_with line, judged, Except.ok.injEq]
      simp

theorem Holds.serve (holds : r.Holds limit lines) (c : Call) :
    (r.serve c).2.Holds limit ((r.serve c).1.keep lines) := by
  cases c with
  | push line =>
    obtain ⟨-, kept, back⟩ := holds.push line
    cases answer : (r.pushLine line).1 with
    | ok complete =>
      rw [Reader.serve, answer]
      exact kept complete answer
    | error e =>
      rw [Reader.serve, answer, back e answer]
      exact holds
  | take => exact holds.cleared
  | clear => exact holds.cleared

theorem holds_serveAll (holds : r.Holds limit lines) (calls : List Call) :
    (r.serveAll calls).2.Holds limit ((r.serveAll calls).1.foldl Entry.keep lines) := by
  -- What is held before the calls is general, as each call leaves other lines to the next.
  induction calls generalizing r lines with
  | nil => exact holds
  | cons c calls ih => exact ih (holds.serve c)

/-- Behind any calls, a reader that was new holds the lines accepted since it was last emptied: its
text is that of these lines, it counts them, it is empty exactly if its text is, and it is complete
exactly if there are any and their text is. A further line is judged with the text, in place or on a
copy, and one that is rejected leaves the reader as it was. Taking reads the text and empties the
reader, whatever comes of the reading. -/
theorem holds_accepted_lines (limit : Nat) (calls : List Call) :
    let lines := accepted ((new limit).serveAll calls).1
    let r := ((new limit).serveAll calls).2
    r.source = sourceText lines ∧
    r.lines = lines.length ∧
    (r.isEmpty = true ↔ r.source = "") ∧
    (r.complete = true ↔ lines ≠ [] ∧ verdict limit r.source = .ok true) ∧
    (∀ line, ∃ answer next, r.pushInPlace? line = some (answer, next) ∧
      r.pushLine line = (answer, next) ∧
      answer = verdict limit (r.source ++ line ++ "\n") ∧
      ∀ e, answer = .error e → next = r) ∧
    r.take = (readSource limit r.source, new limit) := by
  intro lines r
  have holds : r.Holds limit lines := holds_serveAll (holds_new limit) calls
  refine ⟨holds.source_eq, holds.lines_eq, holds.isEmpty_iff, ?_, fun line => ?_, ?_⟩
  · rw [holds.source_eq]
    exact holds.complete_iff
  · obtain ⟨judged, -, back⟩ := holds.push line
    rw [← holds.source_with line] at judged
    exact ⟨_, _, r.pushInPlace?_eq line, rfl, judged, back⟩
  · rw [take, holds.clear_eq, holds.limit_eq]

/-- A line is taken, the next opens a bracket, and behind it two closing brackets are one too many:
the line with them is not held, in place either. -/
theorem holds_accepted_lines_rejected :
    let run := (new 8).serveAll [.push "1", .take, .push "(λ", .push "é))"]
    accepted run.1 = ["(λ"] ∧ run.2.source = "(λ\n" ∧ run.2.lines = 1 ∧
      verdict 8 (run.2.source ++ "é))" ++ "\n") = .error .unexpectedClose ∧
      run.2.pushInPlace? "é))" = some (.error .unexpectedClose, run.2) := by
  have kept : accepted ((new 8).serveAll [.push "1", .take, .push "(λ", .push "é))"]).1 =
      ["(λ"] := rfl
  obtain ⟨source, count, -, -, further, -⟩ :=
    holds_accepted_lines 8 [.push "1", .take, .push "(λ", .push "é))"]
  obtain ⟨answer, next, inPlace, -, judged, back⟩ := further "é))"
  have wrong : verdict 8 ("(λ\n" ++ "é))" ++ "\n") = .error .unexpectedClose := rfl
  rw [kept] at source count
  rw [source] at judged
  have rejected : answer = .error .unexpectedClose := judged.trans wrong
  refine ⟨kept, source, count, ?_, ?_⟩
  · rw [source]
    exact wrong
  · rw [inPlace, rejected, back _ rejected]

end Reader

end LispRepl

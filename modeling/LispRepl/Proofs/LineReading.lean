import LispRepl.Proofs.LexerShift
import LispRepl.Proofs.ParserFrames

/-!
# Reading a text in pieces

A readable text may be cut at any line end. What stands before the cut is judged incomplete, or it
is made of whole expressions, and then each part is readable by itself and the expressions of the
text are those of the first part and then those of the second.

- `sourceText`: lines, each with its line feed.
- `tokenize_line_cases`: what a text that ends with a line feed says about any longer text.
- `verdict_of_run`: the judgement on a text that the parser gets through.
- `verdict_of_readSource`: a readable text is complete.
- `readSource_append`: a readable text that is cut at a line end.
-/

set_option autoImplicit false

namespace LispRepl

/-- The text of lines, each with its line feed. -/
def sourceText : List String → String
  | [] => ""
  | line :: lines => line ++ "\n" ++ sourceText lines

theorem sourceText_append (first second : List String) :
    sourceText (first ++ second) = sourceText first ++ sourceText second := by
  induction first with
  | nil => simp [sourceText]
  | cons line first ih =>
    rw [List.cons_append, sourceText, sourceText, ih]
    simp only [String.append_assoc]

theorem sourceText_snoc (lines : List String) (line : String) :
    sourceText (lines ++ [line]) = sourceText lines ++ line ++ "\n" := by
  simp [sourceText_append, sourceText, String.append_assoc]

/-- A parser with nothing open is the parser before any token, but for the data it has read. -/
theorem Parser.eq_behind {p : Parser} (rest : p.atRest) : p = Parser.start.behind p.done := by
  obtain ⟨stack, closing, done⟩ := p
  obtain ⟨rfl, rfl⟩ := rest
  rfl

variable {limit : Nat}

/-- A text that the parser gets through is complete if nothing is left open. -/
theorem verdict_of_run {source : String} {tokens : List Token} {p : Parser}
    (cut : tokenize source = .ok tokens)
    (run : Parser.start.run limit (tokens.map Token.kind) = .ok p) :
    verdict limit source = .ok (p.brackets == 0 && !p.awaitsDatum) := by
  have depth : openBrackets limit 0 (tokens.map Token.kind) = .ok p.brackets :=
    Parser.openBrackets_of_run run
  rw [verdict, cut]
  simp only [depth]
  rw [Parser.awaitsDatum_of_run run rfl, List.getLast?_map]

theorem verdict_of_atRest {source : String} {tokens : List Token} {p : Parser}
    (cut : tokenize source = .ok tokens)
    (run : Parser.start.run limit (tokens.map Token.kind) = .ok p) (rest : p.atRest) :
    verdict limit source = .ok true := by
  obtain ⟨closed, answered⟩ := Parser.atRest_iff.1 rest
  rw [verdict_of_run cut run, closed, answered]
  rfl

theorem verdict_of_not_atRest {source : String} {tokens : List Token} {p : Parser}
    (cut : tokenize source = .ok tokens)
    (run : Parser.start.run limit (tokens.map Token.kind) = .ok p) (unfinished : ¬ p.atRest) :
    verdict limit source = .ok false := by
  rw [verdict_of_run cut run]
  cases judged : p.brackets == 0 && !p.awaitsDatum with
  | false => rfl
  | true =>
    rw [Bool.and_eq_true, beq_iff_eq, Bool.not_eq_true'] at judged
    exact absurd (Parser.atRest_iff.2 judged) unfinished

/-- A readable text is complete. -/
theorem verdict_of_readSource {source : String} {es : List Value}
    (h : readSource limit source = .ok es) : verdict limit source = .ok true := by
  obtain ⟨tokens, p, cut, run, finish⟩ := readSource_eq_ok.1 h
  exact verdict_of_atRest cut run (Parser.finish_eq_ok.1 finish).1

/-- A text that ends with a line feed ends inside a string; or it has a malformed token, which
every longer text has too; or its tokens are complete, and the tokens of a longer text are these
and then those of the rest. -/
theorem tokenize_line_cases (first : String) :
    (∃ line, tokenize (first ++ "\n") = .error (.unterminatedString line)) ∨
      (∃ fault, (∀ line, fault ≠ .unterminatedString line) ∧
        tokenize (first ++ "\n") = .error fault ∧
        ∀ second, tokenize (first ++ "\n" ++ second) = .error fault) ∨
      ∃ before k, tokenize (first ++ "\n") = .ok before ∧
        ∀ second, tokenize (first ++ "\n" ++ second) =
          match tokenize second with
          | .ok tokens => .ok (before ++ tokens.map (Token.shift k))
          | .error e => .error (e.shift k) := by
  have feed : (first ++ "\n").toList = first.toList ++ ['\n'] := String.toList_append
  cases start : Lexer.start.run (first ++ "\n").toList with
  | error fault =>
    refine Or.inr (Or.inl ⟨fault, fun line same => ?_, ?_, fun second => ?_⟩)
    · -- The fault stands inside the text, so that it tells no line.
      have shifted := Lexer.shift_of_run_error 1 start
      rw [same, LexError.shift, LexError.unterminatedString.injEq] at shifted
      omega
    · rw [tokenize, tokenizeChars, start]
      rfl
    · rw [tokenize, tokenizeChars, String.toList_append, Lexer.run_append, start]
      rfl
  | ok s =>
    have cut : tokenize (first ++ "\n") = s.finish := by
      rw [tokenize, tokenizeChars, start]
      rfl
    rcases Lexer.mode_of_run_newline (feed ▸ start) with between | ⟨line, chars, string⟩
    · refine Or.inr (Or.inr ⟨s.tokens.reverse, (first ++ "\n").toList.count '\n', ?_,
        fun second => ?_⟩)
      · rw [cut, Lexer.finish, between]
      · rw [tokenize, String.toList_append, tokenizeChars_append start between]
        rfl
    · refine Or.inl ⟨line, ?_⟩
      rw [cut, Lexer.finish, string]

/-- Where a text is cut at the start of a line, either the first part ends inside a string, or the
tokens of the text are those of the first part and then those of the second. -/
theorem tokenize_append {first second : String} {tokens : List Token}
    (h : tokenize (first ++ "\n" ++ second) = .ok tokens) :
    (∃ line, tokenize (first ++ "\n") = .error (.unterminatedString line)) ∨
      ∃ before after, tokenize (first ++ "\n") = .ok before ∧ tokenize second = .ok after ∧
        tokens.map Token.kind = before.map Token.kind ++ after.map Token.kind := by
  rcases tokenize_line_cases first with string | ⟨fault, -, -, whole⟩ | ⟨before, k, cut, whole⟩
  · exact Or.inl string
  · rw [whole second] at h
    cases h
  · right
    rw [whole second] at h
    cases rest : tokenize second with
    | error e =>
      rw [rest] at h
      cases h
    | ok after =>
      rw [rest] at h
      cases h
      refine ⟨before, after, cut, rfl, ?_⟩
      simp

/-- A readable text that is cut at the start of a line. -/
theorem readSource_append {first second : String} {es : List Value}
    (h : readSource limit (first ++ "\n" ++ second) = .ok es) :
    verdict limit (first ++ "\n") = .ok false ∨
      verdict limit (first ++ "\n") = .ok true ∧
        ∃ before after, readSource limit (first ++ "\n") = .ok before ∧
          readSource limit second = .ok after ∧ es = before ++ after := by
  obtain ⟨tokens, p, cut, run, finish⟩ := readSource_eq_ok.1 h
  rcases tokenize_append cut with ⟨line, string⟩ | ⟨first', second', cut1, cut2, kinds⟩
  · left
    rw [verdict, string]
  · rw [kinds, Parser.run_append] at run
    obtain ⟨mid, run1, run2⟩ := bind_eq_ok.1 run
    by_cases rest : mid.atRest
    · -- With nothing open, the parser goes on with the second part as it would begin with it.
      right
      rw [Parser.eq_behind rest] at run2
      have moved : (Parser.start.run limit (second'.map Token.kind)).map
          (Parser.behind mid.done) = .ok p := (Parser.run_behind _ _ _).symm.trans run2
      cases alone : Parser.start.run limit (second'.map Token.kind) with
      | error e =>
        rw [alone] at moved
        cases moved
      | ok q =>
        rw [alone] at moved
        cases moved
        rw [Parser.finish_behind] at finish
        cases ends : q.finish with
        | error e =>
          rw [ends] at finish
          cases finish
        | ok after =>
          rw [ends] at finish
          cases finish
          have before : readSource limit (first ++ "\n") = .ok mid.done.reverse :=
            readSource_eq_ok.2 ⟨first', mid, cut1, run1, Parser.finish_eq_ok.2 ⟨rest, rfl⟩⟩
          exact ⟨verdict_of_atRest cut1 run1 rest, _, after, before,
            readSource_eq_ok.2 ⟨second', q, cut2, alone, ends⟩, rfl⟩
    · exact Or.inl (verdict_of_not_atRest cut1 run1 rest)

end LispRepl

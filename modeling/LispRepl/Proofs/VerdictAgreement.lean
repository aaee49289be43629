import LispRepl.Proofs.LineReading

/-!
# The judgement on a text and its reading

A text is judged from its tokens alone: brackets are counted, and the last token is looked at. The
parser goes through the same tokens and finds a fault in more of them. The two can stand to each
other in five ways only, which are listed once (`Judged`): what can be read is complete, what ends
too early is incomplete, a malformed token is the answer of both, and a token in the wrong place is
an error of the parser that the judgement may overlook.

- `LispError.IsMisplaced`, `Parser.misplaced_of_run`: what the parser says against a token.
- `Judged`, `judged`: the five ways, and that there are no others.
- `verdict_agrees_with_reading`: what the answer of one side says about the other.
-/

set_option autoImplicit false

namespace LispRepl

/-- The error is one of a token that stands where it may not. -/
inductive LispError.IsMisplaced : LispError → Prop where
  | close : IsMisplaced .unexpectedClose
  | deep (limit : Nat) : IsMisplaced (.tooDeep limit)
  | malformed (fault : SyntaxFault) : IsMisplaced (.malformed fault)

namespace Parser

variable {limit : Nat} {p : Parser} {t : TokenKind} {e : LispError}

theorem misplaced_of_begin (h : p.begin limit t = .error e) : e.IsMisplaced := by
  simp only [begin] at h
  split at h
  · cases h
    exact .deep limit
  · cases t with
    | closing =>
      cases h
      exact .close
    | dot =>
      cases h
      exact .malformed .strayDot
    | quote =>
      dsimp only at h
      split at h
      · cases h
        exact .deep limit
      · cases h
    | _ => cases h

theorem misplaced_of_step (h : p.step limit t = .error e) : e.IsMisplaced := by
  simp only [step] at h
  split at h
  · split at h
    · cases h
    · cases h
      exact .malformed .tailNotClosed
  · split at h
    · cases h
    · cases h
      exact .malformed .leadingDot
    · split at h
      · cases h
        exact .deep limit
      · cases h
    · exact misplaced_of_begin h

/-- Before the end of the tokens the parser objects to where a token stands and to nothing else. -/
theorem misplaced_of_run {ts : List TokenKind} (h : p.run limit ts = .error e) :
    e.IsMisplaced := by
  induction ts generalizing p with
  | nil => cases h
  | cons t ts ih =>
    rw [run_cons] at h
    cases first : p.step limit t with
    | error fault =>
      rw [first] at h
      cases h
      exact misplaced_of_step first
    | ok next =>
      rw [first] at h
      exact ih h

theorem finish_of_not_atRest (h : ¬ p.atRest) : p.finish = .error .unexpectedEof := by
  cases ends : p.finish with
  | ok es => exact absurd (finish_eq_ok.1 ends).1 h
  | error e =>
    rw [finish] at ends
    split at ends
    · cases ends
    · exact ends.symm

end Parser

/-- A text whose tokens are known is not judged to have a malformed one. -/
theorem verdict_ne_lexical {limit : Nat} {source : String} {tokens : List Token}
    (cut : tokenize source = .ok tokens) (fault : LexError) :
    verdict limit source ≠ .error (.lex fault) := by
  intro h
  rw [verdict, cut] at h
  dsimp only at h
  split at h
  · rename_i e counted
    cases h
    -- The count of the brackets knows two errors, and neither is of a token by itself.
    have lexical : ∀ (ts : List TokenKind) (depth : Nat),
        openBrackets limit depth ts ≠ .error (.lex fault) := by
      intro ts depth
      fun_induction openBrackets limit depth ts <;> simp_all
    exact lexical _ _ counted
  · cases h

/-! ## The five ways -/

/-- What reading a text gives, and the judgement on the text. -/
inductive Judged : Except LispError (List Value) → Except LispError Bool → Prop where
  | readable {es : List Value} : Judged (.ok es) (.ok true)
  /-- Something is still open behind the last token. -/
  | unended : Judged (.error .unexpectedEof) (.ok false)
  | openString {line : Nat} : Judged (.error (.lex (.unterminatedString line))) (.ok false)
  | malformed {fault : LexError} : (∀ line, fault ≠ .unterminatedString line) →
    Judged (.error (.lex fault)) (.error (.lex fault))
  | misplaced {e : LispError} {judgement : Except LispError Bool} : e.IsMisplaced →
    (∀ fault, judgement ≠ .error (.lex fault)) → Judged (.error e) judgement

theorem judged (limit : Nat) (source : String) :
    Judged (readSource limit source) (verdict limit source) := by
  cases cut : tokenize source with
  | error fault =>
    have read : readSource limit source = .error (.lex fault) := by rw [readSource, cut]
    rw [read, verdict, cut]
    cases fault with
    | unterminatedString line => exact .openString
    | invalidEscape char => exact .malformed fun line same => by cases same
    | invalidNumber word => exact .malformed fun line same => by cases same
  | ok tokens =>
    have read : readSource limit source =
        Parser.start.run limit (tokens.map Token.kind) >>= Parser.finish := by
      rw [readSource, cut]
      rfl
    rw [read]
    cases run : Parser.start.run limit (tokens.map Token.kind) with
    | error e => exact .misplaced (Parser.misplaced_of_run run) (verdict_ne_lexical cut)
    | ok p =>
      -- The parser gets through the tokens, so that the judgement counts what it has open.
      change Judged p.finish _
      by_cases rest : p.atRest
      · rw [verdict_of_atRest cut run rest, Parser.finish_eq_ok.2 ⟨rest, rfl⟩]
        exact .readable
      · rw [verdict_of_not_atRest cut run rest, Parser.finish_of_not_atRest rest]
        exact .unended

/-- The judgement on a text and the result of reading it, for every text and every limit. What can
be read is complete. What is complete neither ends too early nor has a malformed token. What is
incomplete or rejected cannot be read, and where it is rejected for a malformed token, reading
gives the same error. What ends too early, inside a string or not, is incomplete. -/
theorem verdict_agrees_with_reading (limit : Nat) (source : String) :
    (∀ es, readSource limit source = .ok es → verdict limit source = .ok true) ∧
      (verdict limit source = .ok true →
        readSource limit source ≠ .error .unexpectedEof ∧
          ∀ fault, readSource limit source ≠ .error (.lex fault)) ∧
      (verdict limit source = .ok false → ∃ e, readSource limit source = .error e) ∧
      (∀ e, verdict limit source = .error e →
        (∃ e', readSource limit source = .error e') ∧
          ∀ fault, e = .lex fault → readSource limit source = .error (.lex fault)) ∧
      (readSource limit source = .error .unexpectedEof → verdict limit source = .ok false) ∧
      ∀ line, readSource limit source = .error (.lex (.unterminatedString line)) →
        verdict limit source = .ok false := by
  have both := judged limit source
  generalize readSource limit source = reading at both ⊢
  generalize verdict limit source = judgement at both ⊢
  cases both with
  | readable => simp
  | unended => simp
  | openString => simp
  | malformed closed => simp [closed]
  | @misplaced e _ wrong lexical =>
    have early : e ≠ .unexpectedEof := by
      rintro rfl
      cases wrong
    have whole : ∀ fault, e ≠ .lex fault := by
      rintro fault rfl
      cases wrong
    refine ⟨by simp, by simp [early, whole], by simp, ?_, by simp [early], by simp [whole]⟩
    rintro _ rfl
    refine ⟨⟨e, rfl⟩, ?_⟩
    rintro fault rfl
    exact absurd rfl (lexical fault)

end LispRepl

import LispRepl.Proofs.WordSpelling
import LispRepl.Text.Quoted

/-!
# Cutting text piece by piece

A text that is put together from words, brackets, spaces and quoted strings is cut into the tokens
of its pieces. A word ends where the next piece begins, if that is not a word too, so that the lexer
behind a piece is between tokens or still inside the last word (`Lexer.Has`). One thing can go
wrong. Between double quotes a character is shown as itself, by an escape that string literals
have, or else by its code point or the escape of NUL, which they have not; then the escape is at
fault, and what stands behind it does not matter (`Lexer.Outcome`).

- `Text.ShownByCode`, `Text.Written`: how a character is shown between double quotes.
- `Lexer.Between`, `Lexer.Has`, `Lexer.Outcome`: the lexer behind a piece.
- `Lexer.Outcome.append`: a piece and then another one.
- `Lexer.Between.word`, `Lexer.Has.quoted`, `Lexer.Has.opening`, `Lexer.Has.closing`,
  `Lexer.Has.space`: the pieces.
-/

set_option autoImplicit false

namespace LispRepl

/-! ## Characters between double quotes -/

namespace Text

/-- The character is shown by its code point, or is NUL and shown by the escape for it. -/
def ShownByCode (c : Char) : Prop :=
  escapeChar c = ['\\', '0'] ∨ escapeChar c = ['\\', 'u', '\x7b'] ++ hexDigits c ++ ['\x7d']

/-- The ways to show a character, and whether a string literal has them. -/
inductive Written (c : Char) : Bool → List Char → Prop where
  | itself : c ≠ '"' → c ≠ '\\' → Written c true [c]
  | letter {d : Char} : unescape? d = some c → Written c true ['\\', d]
  | nul : Written c false ['\\', '0']
  | point : Written c false (['\\', 'u', '\x7b'] ++ hexDigits c ++ ['\x7d'])

theorem written (c : Char) : Written c (hasPlainEscape c) (escapeChar c) := by
  by_cases nul : c = '\x00'
  · subst nul
    exact .nul
  by_cases tab : c = '\t'
  · subst tab
    exact .letter rfl
  by_cases feed : c = '\n'
  · subst feed
    exact .letter rfl
  by_cases carriage : c = '\r'
  · subst carriage
    exact .letter rfl
  by_cases quote : c = '"'
  · subst quote
    exact .letter rfl
  by_cases backslash : c = '\\'
  · subst backslash
    exact .letter rfl
  -- Without an escape of its own a character stands for itself if it is printable.
  have plain : hasPlainEscape c = isPrintable c := by
    simp [hasPlainEscape, beq_false_of_ne, *]
  rw [plain, escapeChar, if_neg nul, if_neg tab, if_neg feed, if_neg carriage, if_neg quote,
    if_neg backslash]
  cases isPrintable c with
  | true => exact .itself quote backslash
  | false => exact .point

/-- The characters shown by a code are those without a plain escape. -/
theorem shownByCode_iff {c : Char} : ShownByCode c ↔ hasPlainEscape c = false := by
  have way := written c
  rw [ShownByCode]
  generalize escapeChar c = shown at way ⊢
  generalize hasPlainEscape c = plain at way ⊢
  cases way with
  | itself quote backslash => simp [backslash]
  | letter known =>
    constructor
    · rintro (nul | point)
      · cases nul
        cases known
      · cases point
    · rintro ⟨⟩
  | nul => exact ⟨fun _ => rfl, fun _ => .inl rfl⟩
  | point => exact ⟨fun _ => rfl, fun _ => .inr rfl⟩

end Text

/-! ## The lexer behind a piece -/

namespace Lexer

variable {kinds : List TokenKind} {s : Lexer}

/-- Between tokens, with these tokens so far. -/
structure Between (kinds : List TokenKind) (s : Lexer) : Prop where
  mode : s.mode = .between
  tokens : s.tokens.reverse.map Token.kind = kinds

/-- With these tokens so far, where a word that has not ended counts as one. -/
inductive Has : List TokenKind → Lexer → Prop where
  | between {kinds : List TokenKind} {s : Lexer} : Between kinds s → Has kinds s
  | word {line start : Nat} {chars : List Char} {tokens : List Token} {kind : TokenKind} :
    TokenKind.ofWord chars.reverse = .ok kind →
    Has (tokens.reverse.map Token.kind ++ [kind]) ⟨line, .word start chars, tokens⟩

/-- Inside a string, whose text so far comes latest first. -/
structure InString (kinds : List TokenKind) (text : List Char) (s : Lexer) : Prop where
  mode : ∃ start, s.mode = .string start text
  tokens : s.tokens.reverse.map Token.kind = kinds

/-- What comes of a piece: a lexer as described, or the fault of an escape that is shown and that
string literals have not. -/
inductive Outcome (P : Lexer → Prop) : Bool → Except LexError Lexer → Prop where
  | reads {s : Lexer} : P s → Outcome P true (.ok s)
  | faults {d : Char} : d = '0' ∨ d = 'u' → Outcome P false (.error (.invalidEscape d))

theorem Outcome.mono {P Q : Lexer → Prop} {plain : Bool} {r : Except LexError Lexer}
    (h : Outcome P plain r) (weaker : ∀ s, P s → Q s) : Outcome Q plain r := by
  cases h with
  | reads holds => exact .reads (weaker _ holds)
  | faults code => exact .faults code

/-- A piece and then another one: the first fault is that of both. -/
theorem Outcome.append {P Q : Lexer → Prop} {p q : Bool} {first second : List Char}
    (h : Outcome P p (s.run first)) (rest : ∀ next, P next → Outcome Q q (next.run second)) :
    Outcome Q (p && q) (s.run (first ++ second)) := by
  rw [run_append]
  generalize s.run first = r at h
  -- Behind a fault the second piece is not looked at.
  cases h with
  | reads holds => exact rest _ holds
  | faults code => exact .faults code

theorem between_start : Between [] start :=
  ⟨rfl, rfl⟩

/-- At the end of the text a word ends too. -/
theorem Has.finish (h : Has kinds s) :
    ∃ tokens, s.finish = .ok tokens ∧ tokens.map Token.kind = kinds := by
  cases h with
  | between h =>
    refine ⟨s.tokens.reverse, ?_, h.tokens⟩
    rw [Lexer.finish, h.mode]
  | word word =>
    simp [Lexer.finish, word]

/-- A character that ends words is looked at as it would be between tokens. -/
theorem Has.step (h : Has kinds s) {c : Char} (ends : endsWord c = true) :
    ∃ line tokens, s.step c = .ok (stepBetween line tokens c) ∧
      tokens.reverse.map Token.kind = kinds := by
  cases h with
  | between h =>
    refine ⟨s.line, s.tokens, ?_, h.tokens⟩
    rw [Lexer.step, h.mode]
  | @word line start chars tokens kind word =>
    refine ⟨line, ⟨kind, start⟩ :: tokens, ?_, by simp⟩
    simp only [Lexer.step, if_pos ends, word]

/-- A character outside words is a piece. -/
theorem Has.single (h : Has kinds s) {c : Char} (ends : endsWord c = true) {P : Lexer → Prop}
    (next : ∀ line tokens, tokens.reverse.map Token.kind = kinds → P (stepBetween line tokens c)) :
    Outcome P true (s.run [c]) := by
  obtain ⟨line, tokens, step, same⟩ := h.step ends
  rw [run_cons, step]
  exact .reads (next line tokens same)

theorem Has.space (h : Has kinds s) : Outcome (Between kinds) true (s.run [' ']) :=
  h.single rfl fun _ _ same => ⟨rfl, same⟩

theorem Has.opening (h : Has kinds s) :
    Outcome (Between (kinds ++ [.opening])) true (s.run ['(']) :=
  h.single rfl fun _ _ same => ⟨rfl, by simp [stepBetween, Text.isBlank, same]⟩

theorem Has.closing (h : Has kinds s) :
    Outcome (Between (kinds ++ [.closing])) true (s.run [')']) :=
  h.single rfl fun _ _ same => ⟨rfl, by simp [stepBetween, Text.isBlank, same]⟩

theorem Has.doubleQuote (h : Has kinds s) : Outcome (InString kinds []) true (s.run ['"']) :=
  h.single rfl fun line _ same => ⟨⟨line, rfl⟩, same⟩

/-! ### Words -/

/-- A character inside words begins one between tokens. -/
theorem stepBetween_inside {c : Char} (inside : endsWord c = false) (line : Nat)
    (tokens : List Token) :
    stepBetween line tokens c = ⟨lineAfter line c, .word line [c], tokens⟩ := by
  simp only [endsWord, Bool.or_eq_false_iff, beq_eq_false_iff_ne] at inside
  simp [stepBetween, inside]

theorem run_inside {cs : List Char} (inside : ∀ c ∈ cs, endsWord c = false) (line start : Nat)
    (chars : List Char) (tokens : List Token) :
    ∃ line', run ⟨line, .word start chars, tokens⟩ cs =
      .ok ⟨line', .word start (cs.reverse ++ chars), tokens⟩ := by
  induction cs generalizing line chars with
  | nil => exact ⟨line, rfl⟩
  | cons c cs ih =>
    obtain ⟨first, rest⟩ := List.forall_mem_cons.1 inside
    have grows : step ⟨line, .word start chars, tokens⟩ c =
        .ok ⟨lineAfter line c, .word start (c :: chars), tokens⟩ := by
      simp [step, first]
    obtain ⟨line', run⟩ := ih rest (lineAfter line c) (c :: chars)
    refine ⟨line', ?_⟩
    rw [run_cons, grows, List.reverse_cons, List.append_assoc]
    exact run

/-- A word is a piece. -/
theorem Between.word (h : Between kinds s) {cs : List Char} {kind : TokenKind}
    (spells : Spells cs kind) : Outcome (Has (kinds ++ [kind])) true (s.run cs) := by
  obtain ⟨line, mode, tokens⟩ := s
  obtain ⟨rfl, rfl⟩ := h
  obtain ⟨c, cs, rfl⟩ := List.exists_cons_of_ne_nil spells.ne_nil
  obtain ⟨first, rest⟩ := List.forall_mem_cons.1 spells.inside
  -- The first character begins the word, and each further one makes it longer.
  obtain ⟨line', run⟩ := run_inside rest (lineAfter line c) line [c] tokens
  rw [run_cons, step, stepBetween_inside first]
  change Outcome _ true (Lexer.run _ cs)
  rw [run]
  refine .reads (.word ?_)
  simpa using spells.word

/-! ### Strings -/

/-- A character between double quotes. -/
theorem InString.escape {text : List Char} (h : InString kinds text s) (c : Char) :
    Outcome (InString kinds (c :: text)) (Text.hasPlainEscape c) (s.run (Text.escapeChar c)) := by
  obtain ⟨line, mode, tokens⟩ := s
  obtain ⟨⟨start, rfl⟩, rfl⟩ := h
  have way := Text.written c
  generalize Text.escapeChar c = shown at way ⊢
  generalize Text.hasPlainEscape c = plain at way ⊢
  -- A backslash makes the lexer look at the next character alone.
  have escape (rest : List Char) : run ⟨line, .string start text, tokens⟩ ('\\' :: rest) =
      run ⟨line, .escape start text, tokens⟩ rest := rfl
  cases way with
  | itself quote backslash =>
    have step : step ⟨line, .string start text, tokens⟩ c =
        .ok ⟨lineAfter line c, .string start (c :: text), tokens⟩ := by
      simp [step, quote, backslash]
    rw [run_cons, step]
    exact .reads ⟨⟨start, rfl⟩, rfl⟩
  | @letter d known =>
    have step : step ⟨line, .escape start text, tokens⟩ d =
        .ok ⟨lineAfter line d, .string start (c :: text), tokens⟩ := by
      simp [step, known]
    rw [escape, run_cons, step]
    exact .reads ⟨⟨start, rfl⟩, rfl⟩
  | nul =>
    rw [escape, run_cons]
    exact .faults (.inl rfl)
  | point =>
    rw [List.append_assoc, List.cons_append, escape, List.cons_append, run_cons]
    exact .faults (.inr rfl)

theorem InString.escapes {text : List Char} (h : InString kinds text s) (cs : List Char) :
    Outcome (InString kinds (cs.reverse ++ text)) (cs.all Text.hasPlainEscape)
      (s.run (cs.flatMap Text.escapeChar)) := by
  induction cs generalizing s text with
  | nil => exact .reads h
  | cons c cs ih =>
    rw [List.flatMap_cons, List.all_cons, List.reverse_cons, List.append_assoc]
    exact (h.escape c).append fun next inside => ih inside

theorem InString.doubleQuote {text : List Char} (h : InString kinds text s) :
    Outcome (Between (kinds ++ [.string (String.ofList text.reverse)])) true (s.run ['"']) := by
  obtain ⟨line, mode, tokens⟩ := s
  obtain ⟨⟨start, rfl⟩, rfl⟩ := h
  exact .reads ⟨rfl, by simp⟩

/-- A quoted string is a piece. -/
theorem Has.quoted (h : Has kinds s) (cs : List Char) :
    Outcome (Between (kinds ++ [.string (String.ofList cs)])) (cs.all Text.hasPlainEscape)
      (s.run (Text.quoteChars cs)) := by
  have inside {next : Lexer} (begun : InString kinds [] next) :
      Outcome (Between (kinds ++ [.string (String.ofList cs)]))
        (cs.all Text.hasPlainEscape && true) (next.run (cs.flatMap Text.escapeChar ++ ['"'])) := by
    refine (begun.escapes cs).append fun last text => ?_
    have ended := text.doubleQuote
    rwa [List.append_nil, List.reverse_reverse] at ended
  have whole := h.doubleQuote.append fun next begun => inside begun
  rwa [Bool.and_true, Bool.true_and] at whole

end Lexer

end LispRepl

import LispRepl.Token.Lexer

/-!
# What one character does

A character that is no fault does one of a few things to the lexer, by what the lexer is in the
middle of, and the things are listed once, so that a fact about the lexer is a case analysis of
this list. Inside a text there are two faults, a word that is no number and a backslash that
escapes nothing.

- `TokenKind.ofWord_error`: what a word can be at fault for.
- `Lexer.Action`, `Lexer.action_of_step`: what a character that is no fault can do.
- `Lexer.fault_of_step`: the faults inside a text.
-/

set_option autoImplicit false

namespace LispRepl

/-- A word is at fault only as a number. -/
theorem TokenKind.ofWord_error {cs : List Char} {e : LexError} (h : ofWord cs = .error e) :
    e = .invalidNumber (String.ofList cs) := by
  rw [ofWord] at h
  split at h
  · cases h
  · split at h
    · cases h
    · split at h
      · cases h
        rfl
      · dsimp only at h
        split at h
        · cases h
        · split at h
          · cases h
          · split at h <;> cases h

namespace Lexer

/-- What a character does to a lexer that takes it. -/
inductive Action (s : Lexer) (c : Char) : Lexer → Prop where
  | between : s.mode = .between → Action s c (stepBetween s.line s.tokens c)
  | comment : s.mode = .comment →
    Action s c ⟨lineAfter s.line c, if c = '\n' then .between else .comment, s.tokens⟩
  | endWord {start : Nat} {chars : List Char} {kind : TokenKind} : s.mode = .word start chars →
    endsWord c = true → TokenKind.ofWord chars.reverse = .ok kind →
    Action s c (stepBetween s.line (⟨kind, start⟩ :: s.tokens) c)
  | growWord {start : Nat} {chars : List Char} : s.mode = .word start chars →
    endsWord c = false → Action s c ⟨lineAfter s.line c, .word start (c :: chars), s.tokens⟩
  | closeString {start : Nat} {chars : List Char} : s.mode = .string start chars → c = '"' →
    Action s c ⟨lineAfter s.line c, .between,
      ⟨.string (String.ofList chars.reverse), start⟩ :: s.tokens⟩
  | backslash {start : Nat} {chars : List Char} : s.mode = .string start chars → c = '\\' →
    Action s c ⟨lineAfter s.line c, .escape start chars, s.tokens⟩
  | growString {start : Nat} {chars : List Char} : s.mode = .string start chars → c ≠ '"' →
    c ≠ '\\' → Action s c ⟨lineAfter s.line c, .string start (c :: chars), s.tokens⟩
  | escaped {start : Nat} {chars : List Char} {d : Char} : s.mode = .escape start chars →
    unescape? c = some d →
    Action s c ⟨lineAfter s.line c, .string start (d :: chars), s.tokens⟩

variable {s next : Lexer} {c : Char} {e : LexError}

theorem action_of_step (h : s.step c = .ok next) : Action s c next := by
  obtain ⟨line, mode, tokens⟩ := s
  cases mode with
  | between =>
    cases h
    exact .between rfl
  | comment =>
    cases h
    exact .comment rfl
  | word start chars =>
    simp only [step] at h
    split at h
    · rename_i ends
      split at h
      · rename_i kind word
        cases h
        exact .endWord rfl ends word
      · cases h
    · rename_i inside
      cases h
      exact .growWord rfl (Bool.not_eq_true _ ▸ inside)
  | string start chars =>
    simp only [step] at h
    split at h
    · rename_i quote
      cases h
      exact .closeString rfl quote
    · rename_i other
      split at h
      · rename_i slash
        cases h
        exact .backslash rfl slash
      · rename_i plain
        cases h
        exact .growString rfl other plain
  | escape start chars =>
    simp only [step] at h
    split at h
    · rename_i char known
      cases h
      exact .escaped rfl known
    · cases h

/-- A fault inside a text is that of a word that ends, or of an unknown escape. -/
theorem fault_of_step (h : s.step c = .error e) :
    (∃ start chars, s.mode = .word start chars ∧ TokenKind.ofWord chars.reverse = .error e) ∨
      (unescape? c = none ∧ e = .invalidEscape c) := by
  obtain ⟨line, mode, tokens⟩ := s
  cases mode with
  | between => cases h
  | comment => cases h
  | word start chars =>
    simp only [step] at h
    split at h
    · split at h
      · cases h
      · rename_i fault word
        cases h
        exact Or.inl ⟨start, chars, rfl, word⟩
    · cases h
  | string start chars =>
    simp only [step] at h
    split at h
    · cases h
    · split at h <;> cases h
  -- Behind a backslash alone the character itself can be at fault.
  | escape start chars =>
    simp only [step] at h
    split at h
    · cases h
    · rename_i unknown
      cases h
      exact Or.inr ⟨unknown, rfl⟩

theorem run_cons (s : Lexer) (c : Char) (cs : List Char) :
    s.run (c :: cs) = s.step c >>= fun next => next.run cs :=
  List.foldlM_cons

theorem run_append (s : Lexer) (first second : List Char) :
    s.run (first ++ second) = s.run first >>= fun next => next.run second :=
  List.foldlM_append

end Lexer

end LispRepl

import LispRepl.Proofs.LexerStep
import LispRepl.Proofs.StepFold

/-!
# Cutting a text at a line end

What the lexer does with a character depends on what it is in the middle of, and not on the line or
on the tokens it has. So a text behind another one is cut as it would be cut alone, on later lines,
once the first has ended between tokens. Behind a line feed the lexer is between tokens or inside a
string.

- `Token.shift`, `LexError.shift`, `Lexer.shift`: the same on later lines, behind other tokens.
- `Lexer.run_shift`, `Lexer.finish_shift`: the lexer goes on in the same way.
- `Lexer.line_of_run`: the line that is reached.
- `Lexer.mode_of_newline`, `Lexer.mode_of_run_newline`: what the lexer can be in the middle of at
  the start of a line.
- `tokenizeChars_append`: a text that ends between tokens, and one behind it.
- `tokenize_append_lines`: a text that can be cut, a line feed, and any text behind them.
-/

set_option autoImplicit false

namespace LispRepl

/-- The token `k` lines further down. -/
def Token.shift (k : Nat) (t : Token) : Token :=
  { t with line := t.line + k }

@[simp] theorem Token.kind_shift (k : Nat) (t : Token) : (t.shift k).kind = t.kind := rfl

/-- The fault `k` lines further down. -/
def LexError.shift (k : Nat) : LexError → LexError
  | .unterminatedString line => .unterminatedString (line + k)
  | .invalidEscape char => .invalidEscape char
  | .invalidNumber word => .invalidNumber word

/-- What the lexer is in the middle of, `k` lines further down. -/
def LexMode.shift (k : Nat) : LexMode → LexMode
  | .between => .between
  | .comment => .comment
  | .word start chars => .word (start + k) chars
  | .string start chars => .string (start + k) chars
  | .escape start chars => .escape (start + k) chars

namespace Lexer

/-- The lexer `k` lines further down, behind tokens that come latest first. -/
def shift (k : Nat) (before : List Token) (s : Lexer) : Lexer :=
  ⟨s.line + k, s.mode.shift k, s.tokens.map (Token.shift k) ++ before⟩

variable (k : Nat) (before : List Token)

theorem lineAfter_add (line : Nat) (c : Char) : lineAfter (line + k) c = lineAfter line c + k := by
  rw [lineAfter, lineAfter]
  split
  · omega
  · rfl

theorem stepBetween_shift (line : Nat) (tokens : List Token) (c : Char) :
    stepBetween (line + k) (tokens.map (Token.shift k) ++ before) c =
      (stepBetween line tokens c).shift k before := by
  simp only [stepBetween, lineAfter_add]
  repeat' split
  all_goals rfl

theorem step_shift (s : Lexer) (c : Char) :
    (s.shift k before).step c = (s.step c).map (shift k before) := by
  obtain ⟨line, mode, tokens⟩ := s
  cases mode with
  | between => exact congrArg Except.ok (stepBetween_shift k before line tokens c)
  | comment =>
    simp only [step, shift, LexMode.shift, lineAfter_add]
    split <;> rfl
  | word start chars =>
    simp only [step, shift, LexMode.shift, lineAfter_add]
    split
    · cases TokenKind.ofWord chars.reverse with
      | error e => rfl
      | ok kind =>
        have next := stepBetween_shift k before line (⟨kind, start⟩ :: tokens) c
        exact congrArg Except.ok next
    · rfl
  | string start chars =>
    simp only [step, shift, LexMode.shift, lineAfter_add]
    split
    · rfl
    · split <;> rfl
  | escape start chars =>
    simp only [step, shift, LexMode.shift, lineAfter_add]
    cases unescape? c <;> rfl

theorem run_shift (cs : List Char) (s : Lexer) :
    (s.shift k before).run cs = (s.run cs).map (shift k before) := by
  induction cs generalizing s with
  | nil => rfl
  | cons c cs ih =>
    rw [run_cons, run_cons, step_shift]
    cases s.step c with
    | error e => rfl
    | ok next => exact ih next

/-- The tokens of a lexer further down are those before it and its own. -/
theorem finish_shift (s : Lexer) :
    (s.shift k before).finish =
      match s.finish with
      | .ok tokens => .ok (before.reverse ++ tokens.map (Token.shift k))
      | .error e => .error (e.shift k) := by
  obtain ⟨line, mode, tokens⟩ := s
  cases mode with
  | between => simp [finish, shift, LexMode.shift]
  | comment => simp [finish, shift, LexMode.shift]
  | word start chars =>
    simp only [finish, shift, LexMode.shift]
    cases kind : TokenKind.ofWord chars.reverse with
    | error e =>
      rw [TokenKind.ofWord_error kind]
      rfl
    | ok kind => simp [Token.shift]
  | string start chars => rfl
  | escape start chars => rfl

/-- A fault before the end of the text does not tell a line. -/
theorem shift_of_step_error {s : Lexer} {c : Char} {e : LexError} (h : s.step c = .error e) :
    e.shift k = e := by
  rcases fault_of_step h with ⟨start, chars, -, word⟩ | ⟨-, rfl⟩
  · rw [TokenKind.ofWord_error word]
    rfl
  · rfl

theorem shift_of_run_error {cs : List Char} {s : Lexer} {e : LexError} (h : s.run cs = .error e) :
    e.shift k = e := by
  induction cs generalizing s with
  | nil => cases h
  | cons c cs ih =>
    rw [run_cons] at h
    cases first : s.step c with
    | error fault =>
      rw [first] at h
      cases h
      exact shift_of_step_error k first
    | ok next =>
      rw [first] at h
      exact ih h

variable {k before}

theorem line_of_stepBetween (line : Nat) (tokens : List Token) (c : Char) :
    (stepBetween line tokens c).line = lineAfter line c := by
  rw [stepBetween]
  repeat' split
  all_goals rfl

theorem line_of_step {s next : Lexer} {c : Char} (h : s.step c = .ok next) :
    next.line = lineAfter s.line c := by
  cases action_of_step h with
  | between => exact line_of_stepBetween s.line s.tokens c
  | endWord => exact line_of_stepBetween s.line _ c
  | _ => rfl

/-- The lexer goes down a line at each line feed. -/
theorem line_of_run {cs : List Char} {s next : Lexer} (h : s.run cs = .ok next) :
    next.line = s.line + cs.count '\n' := by
  induction cs generalizing s with
  | nil =>
    cases h
    rfl
  | cons c cs ih =>
    rw [run_cons] at h
    obtain ⟨mid, first, rest⟩ := bind_eq_ok.1 h
    rw [ih rest, line_of_step first, lineAfter, List.count_cons]
    by_cases feed : c = '\n'
    · rw [if_pos feed, if_pos (beq_iff_eq.2 feed)]
      omega
    · rw [if_neg feed, if_neg fun same => feed (beq_iff_eq.1 same)]
      omega

/-- At the start of a line the lexer is between tokens or inside a string: the line feed ended a
comment or a word, and it escapes nothing. -/
theorem mode_of_newline {s next : Lexer} (h : s.step '\n' = .ok next) :
    next.mode = .between ∨ ∃ start chars, next.mode = .string start chars := by
  cases action_of_step h with
  | between => exact Or.inl rfl
  | comment => exact Or.inl rfl
  | endWord => exact Or.inl rfl
  -- A line feed ends words, closes no string, and is neither a backslash nor escaped.
  | growWord mode inside => cases inside
  | closeString mode quote => cases quote
  | backslash mode slash => cases slash
  | @growString start chars => exact Or.inr ⟨start, _, rfl⟩
  | escaped mode char => cases char

theorem mode_of_run_newline {s t : Lexer} {line : List Char} (h : s.run (line ++ ['\n']) = .ok t) :
    t.mode = .between ∨ ∃ start chars, t.mode = .string start chars := by
  rw [run_append] at h
  obtain ⟨inside, -, step⟩ := bind_eq_ok.1 h
  rw [run_cons] at step
  obtain ⟨next, step, ends⟩ := bind_eq_ok.1 step
  cases ends
  exact mode_of_newline step

end Lexer

/-- A text behind one that has ended between tokens is cut as it would be alone. -/
theorem tokenizeChars_append {first : List Char} {s : Lexer} (h : Lexer.start.run first = .ok s)
    (boundary : s.mode = .between) (second : List Char) :
    tokenizeChars (first ++ second) =
      match tokenizeChars second with
      | .ok tokens => .ok (s.tokens.reverse ++ tokens.map (Token.shift (first.count '\n')))
      | .error e => .error (e.shift (first.count '\n')) := by
  -- Between tokens the lexer differs from a new one by its line and its tokens only.
  have fresh : s = Lexer.start.shift (first.count '\n') s.tokens := by
    have line := Lexer.line_of_run h
    obtain ⟨_, _, tokens⟩ := s
    cases boundary
    cases line
    rfl
  rw [tokenizeChars, Lexer.run_append, h]
  change (s.run second >>= Lexer.finish) = _
  rw [fresh, Lexer.run_shift, tokenizeChars]
  cases rest : Lexer.start.run second with
  | error e => exact congrArg Except.error (Lexer.shift_of_run_error _ rest).symm
  | ok last => exact Lexer.finish_shift _ s.tokens last

/-! ## Lines -/

/-- Where a text may end, a line may end too: the line feed ends a comment or a word as the end of
the text does, and leaves the lexer between tokens. -/
theorem Lexer.step_newline_of_finish {s : Lexer} {tokens : List Token}
    (h : s.finish = .ok tokens) :
    s.step '\n' = .ok ⟨s.line + 1, .between, tokens.reverse⟩ := by
  obtain ⟨line, mode, before⟩ := s
  cases mode with
  | between =>
    cases h
    rw [List.reverse_reverse]
    rfl
  | comment =>
    cases h
    rw [List.reverse_reverse]
    rfl
  | word start chars =>
    simp only [finish] at h
    split at h
    · rename_i kind word
      cases h
      rw [List.reverse_reverse]
      simp only [step, word]
      rfl
    · cases h
  | string start chars => cases h
  | escape start chars => cases h

/-- A text that can be cut into tokens, a line feed and any second text are cut into the tokens of
the first and then those of the second, moved down by one line and by one more for each line feed of
the first. If the second text has a fault, so has the whole, and the fault is the same, moved down
in the same way if it tells a line. -/
theorem tokenize_append_lines {first : String} {tokens : List Token}
    (h : tokenize first = .ok tokens) (second : String) :
    tokenize (first ++ "\n" ++ second) =
      match tokenize second with
      | .ok more => .ok (tokens ++ more.map (Token.shift (first.toList.count '\n' + 1)))
      | .error e => .error (e.shift (first.toList.count '\n' + 1)) := by
  obtain ⟨s, run, finish⟩ := bind_eq_ok.1 h
  have line : Lexer.start.run (first.toList ++ ['\n']) =
      .ok ⟨s.line + 1, .between, tokens.reverse⟩ := by
    rw [Lexer.run_append, run]
    change s.run ['\n'] = _
    rw [Lexer.run_cons, Lexer.step_newline_of_finish finish]
    rfl
  have feeds : (first.toList ++ ['\n']).count '\n' = first.toList.count '\n' + 1 := by
    rw [List.count_append]
    rfl
  rw [tokenize, String.toList_append, String.toList_append]
  change tokenizeChars (first.toList ++ ['\n'] ++ second.toList) = _
  rw [tokenizeChars_append line rfl, List.reverse_reverse, feeds]
  rfl

/-- A comment with a double quote in it ends with its line. Behind it stands a string that holds a
semicolon, a line feed and a bracket, or else one that is left open two lines further down. -/
theorem tokenize_append_lines_commented :
    tokenize "(f\n; \"" = .ok [⟨.opening, 1⟩, ⟨.symbol "f", 1⟩] ∧
      tokenize ("(f\n; \"" ++ "\n" ++ "\";\n(\" g") =
        .ok [⟨.opening, 1⟩, ⟨.symbol "f", 1⟩, ⟨.string ";\n(", 3⟩, ⟨.symbol "g", 4⟩] ∧
      tokenize ("(f\n; \"" ++ "\n" ++ ")\n\"") = .error (.unterminatedString 4) := by
  have first : tokenize "(f\n; \"" = .ok [⟨.opening, 1⟩, ⟨.symbol "f", 1⟩] := rfl
  have strings : tokenize "\";\n(\" g" = .ok [⟨.string ";\n(", 1⟩, ⟨.symbol "g", 2⟩] := rfl
  have opened : tokenize ")\n\"" = .error (.unterminatedString 2) := rfl
  refine ⟨first, ?_, ?_⟩
  · rw [tokenize_append_lines first, strings]
    rfl
  · rw [tokenize_append_lines first, opened]
    rfl

end LispRepl

import LispRepl.Proofs.LexerStep
import LispRepl.Proofs.StepFold

/-!
# The spelling of tokens

A word of a text holds no blank, bracket, quote mark, double quote or semicolon, and its characters
alone say which token it is. So every token that a text is cut into is a bracket, a quote mark, a
string, or one that some word spells.

- `Spells`, `TokenKind.Spelled`: the characters of a word are the token, and tokens that a text
  can have.
- `Spells.symbol`, `Spells.number`: what the characters of a word say of its token.
- `spelled_of_tokenize`: a text has no other tokens.
-/

set_option autoImplicit false

namespace LispRepl

/-- The characters are a word, which is the token. -/
structure Spells (cs : List Char) (kind : TokenKind) : Prop where
  ne_nil : cs ≠ []
  inside : ∀ c ∈ cs, endsWord c = false
  word : TokenKind.ofWord cs = .ok kind

/-- A token that a text can have. -/
inductive TokenKind.Spelled : TokenKind → Prop where
  | opening : Spelled .opening
  | closing : Spelled .closing
  | quote : Spelled .quote
  | string (text : String) : Spelled (.string text)
  | word {cs : List Char} {kind : TokenKind} : Spells cs kind → Spelled kind

/-- What a word can be: besides the point, a number that it is a literal of, a constant, or a
symbol of the same characters. -/
theorem TokenKind.ofWord_cases {cs : List Char} {kind : TokenKind} (h : ofWord cs = .ok kind) :
    (cs = ['.'] ∧ kind = .dot) ∨
      (∃ n, kind = .number n ∧ Rational.ofLiteralChars? cs = some n) ∨
      (∃ b, kind = .bool b) ∨ kind = .nil ∨ kind = .symbol (String.ofList cs) := by
  rw [ofWord] at h
  split at h
  · rename_i point
    cases h
    exact .inl ⟨point, rfl⟩
  · right
    split at h
    · rename_i n literal
      cases h
      exact .inl ⟨n, rfl, literal⟩
    · right
      split at h
      · cases h
      · dsimp only at h
        split at h
        · cases h
          exact .inl ⟨true, rfl⟩
        · split at h
          · cases h
            exact .inl ⟨false, rfl⟩
          · right
            split at h
            · cases h
              exact .inl rfl
            · cases h
              exact .inr rfl

/-- A symbol is spelled by its own characters. -/
theorem Spells.symbol {cs : List Char} {name : String} (h : Spells cs (.symbol name)) :
    name.toList = cs := by
  rcases TokenKind.ofWord_cases h.word with
    ⟨-, kind⟩ | ⟨n, kind, -⟩ | ⟨b, kind⟩ | kind | kind <;> cases kind
  exact String.toList_ofList

/-- A number is spelled by its literals. -/
theorem Spells.number {cs : List Char} {n : Rational} (h : Spells cs (.number n)) :
    Rational.ofLiteralChars? cs = some n := by
  rcases TokenKind.ofWord_cases h.word with
    ⟨-, kind⟩ | ⟨n, kind, literal⟩ | ⟨b, kind⟩ | kind | kind <;> cases kind
  exact literal

/-- Whether some characters spell a token can be computed. -/
theorem Spells.of_all {cs : List Char} {kind : TokenKind} (begun : cs ≠ [])
    (inside : cs.all (fun c => !endsWord c) = true) (word : TokenKind.ofWord cs = .ok kind) :
    Spells cs kind :=
  ⟨begun, by simpa using inside, word⟩

theorem spells_quote : Spells "quote".toList (.symbol "quote") :=
  .of_all (by decide) rfl rfl

/-! ## The tokens of a text -/

/-- The tokens so far are tokens that a text can have, and the word that has begun has characters
of a word. -/
structure Lexer.Orderly (s : Lexer) : Prop where
  tokens : ∀ t ∈ s.tokens, t.kind.Spelled
  word : ∀ start chars, s.mode = .word start chars →
    chars ≠ [] ∧ ∀ c ∈ chars, endsWord c = false

namespace Lexer

theorem orderly_start : start.Orderly :=
  ⟨by simp [start], fun _ _ h => by cases h⟩

/-- The word that has begun spells what it is taken for. -/
theorem Orderly.spells {s : Lexer} {start : Nat} {chars : List Char} {kind : TokenKind}
    (h : s.Orderly) (mode : s.mode = .word start chars)
    (word : TokenKind.ofWord chars.reverse = .ok kind) : Spells chars.reverse kind := by
  obtain ⟨begun, inside⟩ := h.word start chars mode
  refine ⟨by simpa using begun, ?_, word⟩
  intro c member
  exact inside c (List.mem_reverse.1 member)

theorem orderly_stepBetween {line : Nat} {tokens : List Token} (c : Char)
    (h : ∀ t ∈ tokens, t.kind.Spelled) : (stepBetween line tokens c).Orderly := by
  have longer {kind : TokenKind} (spelled : kind.Spelled) :
      ∀ t ∈ (⟨kind, line⟩ : Token) :: tokens, t.kind.Spelled :=
    List.forall_mem_cons.2 ⟨spelled, h⟩
  simp only [stepBetween]
  split
  · exact ⟨h, fun _ _ mode => by cases mode⟩
  · split
    · exact ⟨h, fun _ _ mode => by cases mode⟩
    · split
      · exact ⟨longer .opening, fun _ _ mode => by cases mode⟩
      · split
        · exact ⟨longer .closing, fun _ _ mode => by cases mode⟩
        · split
          · exact ⟨longer .quote, fun _ _ mode => by cases mode⟩
          · split
            · exact ⟨h, fun _ _ mode => by cases mode⟩
            · -- What is left begins a word.
              refine ⟨h, fun _ _ mode => ?_⟩
              cases mode
              simp_all [endsWord]

theorem orderly_step {s t : Lexer} {c : Char} (h : s.Orderly) (step : s.step c = .ok t) :
    t.Orderly := by
  have sofar := h.tokens
  cases action_of_step step with
  | between => exact orderly_stepBetween c sofar
  | comment =>
    refine ⟨sofar, fun start chars mode => ?_⟩
    dsimp only at mode
    split at mode <;> cases mode
  | endWord mode ends kind =>
    -- The character that ends the word is looked at again, with one more token.
    exact orderly_stepBetween c (List.forall_mem_cons.2 ⟨.word (h.spells mode kind), sofar⟩)
  | growWord mode inside =>
    refine ⟨sofar, fun _ _ next => ?_⟩
    cases next
    exact ⟨by simp, List.forall_mem_cons.2 ⟨inside, (h.word _ _ mode).2⟩⟩
  | closeString =>
    exact ⟨List.forall_mem_cons.2 ⟨.string _, sofar⟩, fun _ _ next => by cases next⟩
  | _ => exact ⟨sofar, fun _ _ next => by cases next⟩

theorem orderly_run {s t : Lexer} {cs : List Char} (h : s.Orderly) (run : s.run cs = .ok t) :
    t.Orderly :=
  foldlM_invariant Orderly (fun _ _ _ _ => orderly_step) h run

theorem spelled_of_finish {s : Lexer} {tokens : List Token} (h : s.Orderly)
    (finish : s.finish = .ok tokens) : ∀ t ∈ tokens, t.kind.Spelled := by
  have sofar := h.tokens
  cases mode : s.mode with
  | between =>
    simp only [Lexer.finish, mode] at finish
    cases finish
    simpa using sofar
  | comment =>
    simp only [Lexer.finish, mode] at finish
    cases finish
    simpa using sofar
  | word start chars =>
    simp only [Lexer.finish, mode] at finish
    split at finish
    · rename_i kind word
      cases finish
      intro t member
      rcases List.mem_cons.1 (List.mem_reverse.1 member) with rfl | before
      · exact .word (h.spells mode word)
      · exact sofar t before
    · cases finish
  | string start chars =>
    simp only [Lexer.finish, mode] at finish
    cases finish
  | escape start chars =>
    simp only [Lexer.finish, mode] at finish
    cases finish

end Lexer

/-- The tokens of a text are brackets, quote marks, strings, and tokens that words spell. -/
theorem spelled_of_tokenize {source : String} {tokens : List Token}
    (h : tokenize source = .ok tokens) : ∀ kind ∈ tokens.map Token.kind, kind.Spelled := by
  obtain ⟨s, run, finish⟩ := bind_eq_ok.1 h
  have each := Lexer.spelled_of_finish (Lexer.orderly_run Lexer.orderly_start run) finish
  intro kind member
  obtain ⟨t, among, rfl⟩ := List.mem_map.1 member
  exact each t among

end LispRepl

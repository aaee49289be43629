import LispRepl.Proofs.LiteralGrammar
import LispRepl.Proofs.TextCutting

/-!
# Literals as words

A literal holds no character that ends a word, so that as a text of its own it is one word. If it is
read as a number, the word is that number. If not, the word is at fault where it starts like a
number, which is judged by its first two characters: a digit, or a sign or the point and then a
digit. A literal with a sign and then the point is passed over by this judgement, although digits
follow, and where its number is out of range the word is a symbol.

- `tokenizeChars_word`: a text that is one word.
- `looksNumeric_chars`: the literals that start like a number.
- `tokenize_literal`: the text of a literal.
-/

set_option autoImplicit false

namespace LispRepl

/-- A text that is one word has one token, or the fault of the word. -/
theorem tokenizeChars_word {cs : List Char} (some : cs ≠ [])
    (inside : ∀ c ∈ cs, endsWord c = false) :
    tokenizeChars cs = (TokenKind.ofWord cs).map fun kind => [⟨kind, 1⟩] := by
  obtain ⟨c, cs, rfl⟩ := List.exists_cons_of_ne_nil some
  obtain ⟨first, rest⟩ := List.forall_mem_cons.1 inside
  obtain ⟨line, run⟩ := Lexer.run_inside rest (Lexer.lineAfter 1 c) 1 [c] []
  have whole : Lexer.start.run (c :: cs) = .ok ⟨line, .word 1 (cs.reverse ++ [c]), []⟩ := by
    rw [Lexer.run_cons]
    change Lexer.run (Lexer.stepBetween 1 [] c) cs = _
    rw [Lexer.stepBetween_inside first]
    exact run
  have word : (cs.reverse ++ [c]).reverse = c :: cs := by simp
  rw [tokenizeChars, whole]
  change Lexer.finish ⟨line, .word 1 (cs.reverse ++ [c]), []⟩ = _
  simp only [Lexer.finish, word]
  cases TokenKind.ofWord (c :: cs) <;> rfl

/-- No constant begins with a sign, so that a word with one is a symbol if it is nothing else. -/
theorem TokenKind.ofWord_of_signed {sign : Char} (signed : sign = '+' ∨ sign = '-') {cs : List Char}
    (unread : Rational.ofLiteralChars? (sign :: cs) = none)
    (plain : looksNumeric (sign :: cs) = false) :
    ofWord (sign :: cs) = .ok (.symbol (String.ofList (sign :: cs))) := by
  have point : sign :: cs ≠ ['.'] := by
    rcases signed with rfl | rfl <;> rintro ⟨⟩
  have constant {d : Char} {ds : List Char} (letter : d ≠ '+' ∧ d ≠ '-') :
      (sign :: cs).map Text.lowerAsciiChar ≠ d :: ds := by
    rintro same
    obtain ⟨first, -⟩ := List.cons.inj same
    rcases signed with rfl | rfl
    · exact letter.1 first.symm
    · exact letter.2 first.symm
  rw [ofWord, if_neg point, unread]
  dsimp only
  rw [plain, if_neg Bool.false_ne_true, if_neg, if_neg, if_neg]
  · exact constant (by decide)
  · exact not_or.2 ⟨constant (by decide), constant (by decide)⟩
  · exact not_or.2 ⟨constant (by decide), constant (by decide)⟩

namespace Literal

/-- There is a sign, and the point stands right behind it. -/
def signedPoint (l : Literal) : Bool :=
  match l.sign with
  | .missing => false
  | .plus | .minus => l.magnitude.pointFirst

variable (l : Literal)

theorem chars_ne_nil : l.chars ≠ [] := by
  obtain ⟨sign, m⟩ := l
  intro none
  obtain ⟨-, none⟩ := List.append_eq_nil_iff.1 none
  rcases m.begins with ⟨-, c, cs, begun, -⟩ | ⟨-, c, cs, begun, -⟩
  · rw [begun] at none
    cases none
  · rw [begun] at none
    cases none

theorem inside : ∀ c ∈ l.chars, endsWord c = false := by
  obtain ⟨sign, m⟩ := l
  have digits (ds : Digits) : ∀ c ∈ ds.chars, endsWord c = false :=
    fun c member => endsWord_of_isDigit (ds.each c member)
  refine List.forall_mem_append.2 ⟨?_, ?_⟩
  · cases sign <;> simp [Sign.chars, endsWord, Text.isBlank]
  · cases m with
    | integer ds => exact digits ds
    | fraction num den =>
      exact List.forall_mem_append.2 ⟨digits num, List.forall_mem_cons.2 ⟨rfl, digits den⟩⟩
    | decimal whole part =>
      exact List.forall_mem_append.2 ⟨digits whole, List.forall_mem_cons.2 ⟨rfl, digits part⟩⟩

/-- Every literal starts like a number but those with a sign and then the point. -/
theorem looksNumeric_chars : looksNumeric l.chars = !l.signedPoint := by
  obtain ⟨sign, m⟩ := l
  have point : Text.isDigit '.' = false := rfl
  have plus : Text.isDigit '+' = false := rfl
  have minus : Text.isDigit '-' = false := rfl
  rcases m.begins with ⟨first, c, cs, begun, digit⟩ | ⟨first, c, cs, begun, digit⟩
  · cases sign <;>
      simp [Literal.chars, Sign.chars, signedPoint, looksNumeric, begun, first, digit]
  · cases sign <;>
      simp [Literal.chars, Sign.chars, signedPoint, looksNumeric, begun, first, digit, point, plus,
        minus]

theorem chars_ne_point : l.chars ≠ ['.'] := by
  obtain ⟨sign, m⟩ := l
  rcases m.begins with ⟨-, c, cs, begun, digit⟩ | ⟨-, c, cs, begun, -⟩
  · have point : Text.isDigit '.' = false := rfl
    cases sign <;> simp only [Literal.chars, Sign.chars, begun] <;> rintro ⟨⟩
    rw [point] at digit
    cases digit
  · cases sign <;> simp only [Literal.chars, Sign.chars, begun] <;> rintro ⟨⟩

theorem chars_of_signedPoint (h : l.signedPoint = true) :
    ∃ sign cs, (sign = '+' ∨ sign = '-') ∧ l.chars = sign :: cs := by
  obtain ⟨sign, m⟩ := l
  cases sign with
  | missing => cases h
  | plus => exact ⟨'+', m.chars, .inl rfl, rfl⟩
  | minus => exact ⟨'-', m.chars, .inr rfl, rfl⟩

/-- What a literal is as a word. -/
theorem ofWord_chars :
    TokenKind.ofWord l.chars =
      match Rational.ofLiteralChars? l.chars with
      | some n => .ok (.number n)
      | none => if l.signedPoint then .ok (.symbol l.text) else .error (.invalidNumber l.text) := by
  have looks := l.looksNumeric_chars
  cases read : Rational.ofLiteralChars? l.chars with
  | some n => rw [TokenKind.ofWord, if_neg l.chars_ne_point, read]
  | none =>
    cases signed : l.signedPoint with
    | false =>
      rw [signed] at looks
      rw [TokenKind.ofWord, if_neg l.chars_ne_point, read]
      dsimp only
      rw [looks]
      rfl
    | true =>
      obtain ⟨sign, cs, either, begun⟩ := l.chars_of_signedPoint signed
      rw [signed, begun] at looks
      rw [begun] at read
      rw [Literal.text, begun]
      exact TokenKind.ofWord_of_signed either read looks

end Literal

/-- The text of a literal is one token, the number that it is read as, if it is read as one. If not,
the literal is reported as an invalid number, with one exception: where the point stands right
behind a sign, the text is taken for a symbol. -/
theorem tokenize_literal (l : Literal) :
    tokenize l.text =
      match Rational.ofLiteral? l.text with
      | some n => .ok [⟨.number n, 1⟩]
      | none =>
        if l.signedPoint then .ok [⟨.symbol l.text, 1⟩]
        else .error (.invalidNumber l.text) := by
  have chars : l.text.toList = l.chars := String.toList_ofList
  rw [tokenize, Rational.ofLiteral?, chars, tokenizeChars_word l.chars_ne_nil l.inside,
    l.ofWord_chars]
  cases Rational.ofLiteralChars? l.chars with
  | some n => rfl
  | none => cases l.signedPoint <;> rfl

/-- Nineteen nines behind a minus and a point are a literal that is taken for a symbol, because its
numerator does not fit a word. -/
theorem tokenize_literal_symbol :
    ¬ ∀ l : Literal, (∃ n, tokenize l.text = .ok [⟨.number n, 1⟩]) ∨
      tokenize l.text = .error (.invalidNumber l.text) := by
  intro numeric
  let nines : Digits := ⟨"9999999999999999999".toList, List.all_eq_true.1 rfl⟩
  let l : Literal := ⟨.minus, .decimal ⟨[], List.forall_mem_nil _⟩ nines (.inr (by decide))⟩
  have text : l.text.toList = "-.9999999999999999999".toList := String.toList_ofList
  have symbol : tokenize l.text = .ok [⟨.symbol "-.9999999999999999999", 1⟩] := by
    rw [tokenize, text]
    rfl
  have literal := numeric l
  rw [symbol] at literal
  rcases literal with ⟨n, number⟩ | fault
  · cases number
  · cases fault

end LispRepl

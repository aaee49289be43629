import LispRepl.Proofs.WordSpelling

/-!
# Numbers and their texts

The text of a number is a literal of it, with one restriction: a literal has its sign read apart
from its digits, and the digits have to fit a word by themselves, so that the least integer of a
word has no literal. For the same reason no literal denotes a number with that numerator.

- `Text.readDigits?_natDigits`: the digits of a number stand for it.
- `Rational.ofLiteralChars?_digits`: the text of a number is a literal of it.
- `Rational.inWord_neg_of_literal`: literals denote only numbers whose negatives fit.
- `Rational.reads_back_unless_least`: reading the text of a number, for all numbers.
- `spells_digits`: the text of a number that a literal denotes spells it.
-/

set_option autoImplicit false

namespace LispRepl

/-! ## Digit strings -/

namespace Text

/-- A natural number is written with digits alone. -/
theorem isDigit_of_mem_natDigits {n : Nat} {c : Char} (h : c ∈ natDigits n) : isDigit c = true :=
  Nat.isDigit_of_mem_toDigits (by decide) (by decide) h

theorem natDigits_ne_nil (n : Nat) : natDigits n ≠ [] :=
  Nat.toDigits_ne_nil

theorem readDigits?_natDigits (n : Nat) : readDigits? (natDigits n) = some n := by
  have all : (natDigits n).all isDigit = true :=
    List.all_eq_true.2 fun c member => isDigit_of_mem_natDigits member
  rw [readDigits?, if_pos ⟨natDigits_ne_nil n, all⟩]
  exact congrArg some Nat.ofDigitChars_ten_toDigits

/-- A character that is no digit is not in a digit string. -/
theorem not_mem_natDigits {c : Char} (h : isDigit c = false) (n : Nat) : c ∉ natDigits n := by
  intro member
  rw [isDigit_of_mem_natDigits member] at h
  cases h

theorem intDigits_of_nonneg {n : Int} (h : 0 ≤ n) : intDigits n = natDigits n.natAbs :=
  if_neg (Int.not_lt.2 h)

/-- The negative of a number is written with a minus sign. -/
theorem intDigits_of_neg {n : Int} (h : n < 0) : intDigits n = '-' :: intDigits (-n) := by
  rw [intDigits, if_pos h, intDigits_of_nonneg (by omega), Int.natAbs_neg]

end Text

namespace Rational

/-! ## The parts of a literal -/

theorem splitFirst_eq_none {sep : Char} {cs : List Char} (h : sep ∉ cs) :
    splitFirst sep cs = none := by
  induction cs with
  | nil => rfl
  | cons c cs ih =>
    rw [List.mem_cons, not_or] at h
    rw [splitFirst, if_neg (Ne.symm h.1), ih h.2]
    rfl

theorem splitFirst_append {sep : Char} {before : List Char} (h : sep ∉ before)
    (behind : List Char) : splitFirst sep (before ++ sep :: behind) = some (before, behind) := by
  induction before with
  | nil => exact if_pos rfl
  | cons c cs ih =>
    rw [List.mem_cons, not_or] at h
    rw [List.cons_append, splitFirst, if_neg (Ne.symm h.1), ih h.2]
    rfl

theorem wordDigits?_natDigits {n : Nat} (h : InWord n) :
    wordDigits? (Text.natDigits n) = some (n : Int) := by
  rw [wordDigits?, Text.readDigits?_natDigits]
  exact if_pos h

/-! ## Numbers by their parts -/

/-- A number is the fraction of its parts. -/
theorem ofFraction?_parts (r : Rational) : ofFraction? r.num r.den = some r := by
  have positive := r.den_pos
  have one : Nat.gcd r.num.natAbs (r.den : Int).natAbs = 1 := r.reduced
  have num : lowestNum r.num r.den = r.num := by
    rw [lowestNum, one, Nat.div_one]
    split <;> omega
  have den : lowestDen r.num r.den = r.den := by
    rw [lowestDen, one, Nat.div_one]
    rfl
  have fits : InWord (lowestNum r.num r.den) ∧ InWord (lowestDen r.num r.den) := by
    rw [num, den]
    exact ⟨r.num_inWord, r.den_inWord⟩
  rw [ofFraction?, dif_neg (by omega), dif_pos fits]
  exact congrArg some (eq_of_parts num den)

theorem num_of_ofFraction? {n d : Int} {r : Rational} (h : ofFraction? n d = some r) :
    r.num = lowestNum n d := by
  rw [ofFraction?] at h
  split at h
  · cases h
  · split at h
    · cases h
      rfl
    · cases h

theorem lowestNum_nonneg {n d : Int} (hn : 0 ≤ n) (hd : 0 ≤ d) : 0 ≤ lowestNum n d := by
  simp only [lowestNum]
  rw [if_pos (by omega)]
  exact Int.natCast_nonneg _

theorem natAbs_lowestNum_le (n d : Int) : (lowestNum n d).natAbs ≤ n.natAbs := by
  rw [natAbs_lowestNum]
  exact Nat.div_le_self _ _

/-! ## Reading a text -/

theorem ofUnsigned?_digits {r : Rational} (h : 0 ≤ r.num) : ofUnsigned? r.digits = some r := by
  obtain ⟨n, num⟩ := Int.eq_ofNat_of_zero_le h
  have fits : InWord n := num ▸ r.num_inWord
  have slash := Text.not_mem_natDigits (c := '/') rfl n
  have point := Text.not_mem_natDigits (c := '.') rfl n
  rw [digits, Text.intDigits_of_nonneg h, num, Int.natAbs_natCast]
  -- An integer has neither a slash nor a point, and a fraction has its slash behind digits.
  split
  · rename_i whole
    rw [ofUnsigned?, splitFirst_eq_none slash, splitFirst_eq_none point]
    dsimp only
    rw [wordDigits?_natDigits fits]
    have integer : ofInt? n = some r := by
      rw [ofInt?, dif_pos fits]
      exact congrArg some (eq_of_parts num.symm whole.symm)
    exact integer
  · rw [ofUnsigned?, splitFirst_append slash]
    dsimp only
    rw [wordDigits?_natDigits fits, wordDigits?_natDigits r.den_inWord]
    have fraction := ofFraction?_parts r
    rw [num] at fraction
    exact fraction

/-- The sign of a literal is its first character. -/
theorem ofLiteralChars?_unsigned {cs : List Char} (minus : cs.head? ≠ some '-')
    (plus : cs.head? ≠ some '+') : ofLiteralChars? cs = ofUnsigned? cs := by
  rw [ofLiteralChars?.eq_def]
  split
  · exact absurd rfl minus
  · exact absurd rfl plus
  · rfl

theorem head?_digits_isDigit {r : Rational} (h : 0 ≤ r.num) {c : Char}
    (first : r.digits.head? = some c) : Text.isDigit c = true := by
  rw [digits, Text.intDigits_of_nonneg h] at first
  obtain ⟨d, ds, cons⟩ := List.exists_cons_of_ne_nil (Text.natDigits_ne_nil r.num.natAbs)
  have digit : Text.isDigit d = true :=
    Text.isDigit_of_mem_natDigits (n := r.num.natAbs) (by simp [cons])
  rw [cons] at first
  split at first
  · cases first
    exact digit
  · cases first
    exact digit

/-- The text of a number is a literal of it if its negative fits too. -/
theorem ofLiteralChars?_digits {r : Rational} (h : InWord (-r.num)) :
    ofLiteralChars? r.digits = some r := by
  by_cases negative : r.num < 0
  · -- Behind the minus sign stands the text of the negative.
    let m : Rational := ⟨-r.num, r.den, r.den_pos, by simpa using r.reduced, h, r.den_inWord⟩
    have signed : r.digits = '-' :: m.digits := by
      rw [digits, digits, Text.intDigits_of_neg negative]
      split <;> rfl
    have unsigned : ofUnsigned? m.digits = some m :=
      ofUnsigned?_digits (show 0 ≤ -r.num by omega)
    have back : neg? m = some r := by
      rw [neg?, Int.neg_neg]
      exact ofFraction?_parts r
    rw [signed, ofLiteralChars?, unsigned]
    exact back
  · have nonneg : 0 ≤ r.num := Int.not_lt.1 negative
    have sign {c : Char} (other : Text.isDigit c = false) : r.digits.head? ≠ some c := by
      intro first
      rw [head?_digits_isDigit nonneg first] at other
      cases other
    rw [ofLiteralChars?_unsigned (sign rfl) (sign rfl)]
    exact ofUnsigned?_digits nonneg

/-! ## The numbers of literals -/

theorem wordDigits?_nonneg {cs : List Char} {n : Int} (h : wordDigits? cs = some n) : 0 ≤ n := by
  rw [wordDigits?] at h
  obtain ⟨value, -, fits⟩ := Option.bind_eq_some_iff.1 h
  split at fits
  · cases fits
    exact Int.natCast_nonneg value
  · cases fits

theorem ofDecimal?_nonneg {whole part : List Char} {r : Rational}
    (h : ofDecimal? whole part = some r) : 0 ≤ r.num := by
  simp only [ofDecimal?, Option.bind_eq_bind] at h
  split at h
  · cases h
  · obtain ⟨w, -, h⟩ := Option.bind_eq_some_iff.1 h
    obtain ⟨p, -, h⟩ := Option.bind_eq_some_iff.1 h
    split at h
    · rw [num_of_ofFraction? h]
      exact lowestNum_nonneg (Int.natCast_nonneg _) (Int.natCast_nonneg _)
    · cases h

theorem ofUnsigned?_nonneg {cs : List Char} {r : Rational} (h : ofUnsigned? cs = some r) :
    0 ≤ r.num := by
  rw [ofUnsigned?] at h
  split at h
  · obtain ⟨n, num, h⟩ := Option.bind_eq_some_iff.1 h
    obtain ⟨d, den, h⟩ := Option.bind_eq_some_iff.1 h
    rw [num_of_ofFraction? h]
    exact lowestNum_nonneg (wordDigits?_nonneg num) (wordDigits?_nonneg den)
  · split at h
    · exact ofDecimal?_nonneg h
    · obtain ⟨n, digits, h⟩ := Option.bind_eq_some_iff.1 h
      rw [ofInt?] at h
      split at h
      · cases h
        exact wordDigits?_nonneg digits
      · cases h

/-- A literal denotes a number whose negative fits too: the digits behind its sign fit. -/
theorem inWord_neg_of_literal {cs : List Char} {r : Rational} (h : ofLiteralChars? cs = some r) :
    InWord (-r.num) := by
  have unsigned {cs : List Char} (h : ofUnsigned? cs = some r) : InWord (-r.num) := by
    have nonneg := ofUnsigned?_nonneg h
    have fits := r.num_inWord
    rw [InWord] at fits ⊢
    omega
  rw [ofLiteralChars?.eq_def] at h
  split at h
  · -- The number without the sign fits, and the sign makes it no larger.
    obtain ⟨m, magnitude, negated⟩ := Option.bind_eq_some_iff.1 h
    have nonneg := ofUnsigned?_nonneg magnitude
    have fits := m.num_inWord
    have small := natAbs_lowestNum_le (-m.num) m.den
    rw [← num_of_ofFraction? negated] at small
    rw [InWord] at fits ⊢
    omega
  · exact unsigned h
  · exact unsigned h

/-! ## Reading a text back -/

/-- Digits that do not fit a word by themselves begin no literal of an integer or a fraction. -/
theorem ofUnsigned?_eq_none {n : Nat} (large : ¬ InWord n) :
    ofUnsigned? (Text.natDigits n) = none ∧
      ∀ behind, ofUnsigned? (Text.natDigits n ++ '/' :: behind) = none := by
  have slash := Text.not_mem_natDigits (c := '/') rfl n
  have point := Text.not_mem_natDigits (c := '.') rfl n
  have digits : wordDigits? (Text.natDigits n) = none := by
    rw [wordDigits?, Text.readDigits?_natDigits]
    exact if_neg large
  constructor
  · rw [ofUnsigned?, splitFirst_eq_none slash, splitFirst_eq_none point]
    dsimp only
    rw [digits]
    rfl
  · intro behind
    rw [ofUnsigned?, splitFirst_append slash]
    dsimp only
    rw [digits]
    rfl

/-- The text of a number with the least numerator is no literal. -/
theorem ofLiteralChars?_digits_of_least {r : Rational} (h : r.num = -9223372036854775808) :
    ofLiteralChars? r.digits = none := by
  have large : ¬ InWord (9223372036854775808 : Nat) := by decide
  have signed : Text.intDigits r.num = '-' :: Text.natDigits 9223372036854775808 := by
    rw [h]
    rfl
  rw [digits, signed]
  split
  · rw [ofLiteralChars?, (ofUnsigned?_eq_none large).1]
    rfl
  · rw [List.cons_append, ofLiteralChars?, (ofUnsigned?_eq_none large).2]
    rfl

/-- The text of a number is read as the number, with one exception: it is no literal where the
numerator is the least integer of a word, whose digits do not fit a word without their sign. -/
theorem reads_back_unless_least (r : Rational) :
    ofLiteral? r.text = if r.num = -9223372036854775808 then none else some r := by
  rw [ofLiteral?, text, String.toList_ofList]
  split
  · rename_i least
    exact ofLiteralChars?_digits_of_least least
  · rename_i other
    have fits := r.num_inWord
    refine ofLiteralChars?_digits ?_
    rw [InWord] at fits ⊢
    omega

/-- The least integer of a word is a number with a text that is not read. -/
theorem least_not_read_back : ¬ ∀ r : Rational, ofLiteral? r.text = some r := by
  intro reads
  have least := reads (ofInt (-9223372036854775808) (by decide))
  rw [ofLiteral?, text, String.toList_ofList, ofLiteralChars?_digits_of_least rfl] at least
  cases least

/-! ## Words of digits -/

theorem mem_digits {r : Rational} {c : Char} (h : c ∈ r.digits) :
    Text.isDigit c = true ∨ c = '-' ∨ c = '/' := by
  have signed {n : Int} (h : c ∈ Text.intDigits n) : Text.isDigit c = true ∨ c = '-' := by
    rw [Text.intDigits] at h
    split at h
    · rcases List.mem_cons.1 h with minus | digit
      · exact .inr minus
      · exact .inl (Text.isDigit_of_mem_natDigits digit)
    · exact .inl (Text.isDigit_of_mem_natDigits h)
  rw [digits] at h
  split at h
  · exact (signed h).imp_right .inl
  · rcases List.mem_append.1 h with num | rest
    · exact (signed num).imp_right .inl
    · rcases List.mem_cons.1 rest with slash | den
      · exact .inr (.inr slash)
      · exact .inl (Text.isDigit_of_mem_natDigits den)

end Rational

theorem endsWord_of_isDigit {c : Char} (h : Text.isDigit c = true) : endsWord c = false := by
  simp only [Text.isDigit, Bool.and_eq_true, decide_eq_true_eq, Char.le_def,
    UInt32.le_iff_toNat_le] at h
  obtain ⟨low, high⟩ := h
  change 48 ≤ c.toNat at low
  change c.toNat ≤ 57 at high
  -- The characters that end words lie below and above the digits.
  have other {d : Char} (outside : d.toNat < 48 ∨ 57 < d.toNat) : (c == d) = false := by
    rw [beq_eq_false_iff_ne]
    rintro rfl
    omega
  have visible : Text.isBlank c = false := by
    simp only [Text.isBlank, Bool.or_eq_false_iff, Bool.and_eq_false_iff, decide_eq_false_iff_not,
      beq_eq_false_iff_ne]
    omega
  simp [endsWord, visible, other]

/-- A number whose negative fits is spelled by its text. -/
theorem spells_digits {r : Rational} (h : InWord (-r.num)) : Spells r.digits (.number r) := by
  have literal := Rational.ofLiteralChars?_digits h
  refine ⟨?_, ?_, ?_⟩
  · intro none
    rw [none] at literal
    cases literal
  · intro c member
    rcases Rational.mem_digits member with digit | rfl | rfl
    · exact endsWord_of_isDigit digit
    · rfl
    · rfl
  · have point : r.digits ≠ ['.'] := by
      intro point
      rw [point] at literal
      cases literal
    rw [TokenKind.ofWord, if_neg point, literal]

end LispRepl

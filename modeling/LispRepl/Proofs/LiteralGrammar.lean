import LispRepl.Proofs.ExactArithmetic
import Mathlib.Tactic.FieldSimp
import Mathlib.Tactic.Positivity

/-!
# What a literal denotes

A literal is a sign, which may be missing, and then an integer, a fraction or a decimal, in digits.
Each has the value that its digits have by their places: before the point, or without one, a digit
counts ten times as much as the digit behind it, and behind the point a tenth of what it would count
one place further to the front. A fraction over zero has no value.

A text is read as a number exactly if it is a literal and its digits are within bounds: those of an
integer, and each of the two numbers of a fraction, have to fit a word, and those of a decimal a
wide word over their power of ten. The sign is read last, so that the number without its sign has to
fit too. The number is the value of the literal, with one exception: the digits behind the point are
counted in 32 bits, and where the count wraps around, they are read as if they stood further to the
front.

- `Digits`, `Literal`: the literals, and `Literal.chars_injective`: no text is two of them.
- `Digits.count`, `Digits.tenths`, `Literal.value?`: the values.
- `Literal.taken?`: the values with the digits behind the point where they are taken to stand, and
  `Literal.value?_eq_taken?_iff`: where they do stand there.
- `Magnitude.Held`: the bounds on the digits.
- `Rational.ofUnsigned?_chars`, `Rational.magnitude_of_ofUnsigned?`: reading what stands behind the
  sign.
- `Rational.ofLiteral?_eq_some_iff`: reading a text.
- `Rational.ofLiteral?_misplaces_five`: a text that is read as another number.
-/

set_option autoImplicit false

namespace LispRepl

/-! ## Digits -/

/-- Digits side by side, of which there may be none. -/
@[ext] structure Digits where
  chars : List Char
  each : ∀ c ∈ chars, Text.isDigit c = true

/-- The value of digits where the last counts ones. -/
def Text.countDigits : List Char → Nat
  | [] => 0
  | c :: cs => digitValue c * 10 ^ cs.length + countDigits cs

/-- The value of digits where the first counts tenths. -/
def Text.tenthDigits : List Char → ℚ
  | [] => 0
  | c :: cs => (digitValue c + tenthDigits cs) / 10

namespace Digits

/-- The value as digits of an integer. -/
def count (ds : Digits) : Nat :=
  Text.countDigits ds.chars

/-- The value as digits behind a point. -/
def tenths (ds : Digits) : ℚ :=
  Text.tenthDigits ds.chars

/-- How many places behind a point the digits are taken to fill. -/
def places (ds : Digits) : Nat :=
  Rational.countPlaces ds.chars

end Digits

namespace Text

theorem digitsValue_eq_count (cs : List Char) : digitsValue cs = countDigits cs := by
  -- What has been read so far is moved by as many places as there are digits still to read.
  have from_ (n : Nat) : cs.foldl (fun n c => 10 * n + digitValue c) n =
      n * 10 ^ cs.length + countDigits cs := by
    induction cs generalizing n with
    | nil => simp [countDigits]
    | cons c cs ih =>
      rw [List.foldl_cons, ih, List.length_cons, countDigits]
      ring
  rw [digitsValue, from_, Nat.zero_mul, Nat.zero_add]

/-- Behind the point, digits count what they would count without it, divided by their power of
ten. -/
theorem tenthDigits_eq (cs : List Char) : tenthDigits cs = countDigits cs / 10 ^ cs.length := by
  induction cs with
  | nil => simp [tenthDigits, countDigits]
  | cons c cs ih =>
    rw [tenthDigits, ih, countDigits, List.length_cons]
    push_cast
    field_simp
    ring

variable {cs : List Char} {n : Nat}

theorem readDigits?_eq_some_iff :
    readDigits? cs = some n ↔ ∃ ds : Digits, ds.chars = cs ∧ ds.chars ≠ [] ∧ ds.count = n := by
  rw [readDigits?]
  constructor
  · intro h
    split at h
    · rename_i digits
      cases h
      exact ⟨⟨cs, List.all_eq_true.1 digits.2⟩, rfl, digits.1, (digitsValue_eq_count cs).symm⟩
    · cases h
  · rintro ⟨ds, rfl, some, rfl⟩
    rw [if_pos ⟨some, List.all_eq_true.2 ds.each⟩, digitsValue_eq_count]
    rfl

end Text

namespace Digits

/-- No separator is among digits. -/
theorem not_mem {c : Char} (ds : Digits) (other : Text.isDigit c = false) : c ∉ ds.chars := by
  intro member
  rw [ds.each c member] at other
  cases other

theorem begins (ds : Digits) (some : ds.chars ≠ []) :
    ∃ c cs, ds.chars = c :: cs ∧ Text.isDigit c = true := by
  obtain ⟨c, cs, first⟩ := List.exists_cons_of_ne_nil some
  exact ⟨c, cs, first, ds.each c (by simp [first])⟩

end Digits

/-! ## Literals -/

/-- The sign in front of a literal. -/
inductive Sign where
  | missing
  | plus
  | minus

/-- What a literal is without its sign. -/
inductive Magnitude where
  | integer (digits : Digits) : digits.chars ≠ [] → Magnitude
  | fraction (num den : Digits) : num.chars ≠ [] → den.chars ≠ [] → Magnitude
  /-- Digits before and behind a point, on one side at least. -/
  | decimal (whole part : Digits) : whole.chars ≠ [] ∨ part.chars ≠ [] → Magnitude

/-- A literal of a number. -/
structure Literal where
  sign : Sign
  magnitude : Magnitude

/-- The characters of a sign. -/
def Sign.chars : Sign → List Char
  | .missing => []
  | .plus => ['+']
  | .minus => ['-']

/-- A value with the sign in front of it. -/
def Sign.of : Sign → ℚ → ℚ
  | .missing, q | .plus, q => q
  | .minus, q => -q

namespace Magnitude

/-- The characters of a literal without its sign. -/
def chars : Magnitude → List Char
  | .integer digits _ => digits.chars
  | .fraction num den _ _ => num.chars ++ '/' :: den.chars
  | .decimal whole part _ => whole.chars ++ '.' :: part.chars

/-- The value without the sign; none for a fraction over zero. -/
def value? : Magnitude → Option ℚ
  | .integer digits _ => some digits.count
  | .fraction num den _ _ => if den.count = 0 then none else some (num.count / den.count)
  | .decimal whole part _ => some (whole.count + part.tenths)

/-- The value without the sign with the digits behind the point in the places that they are taken to
fill. -/
def taken? : Magnitude → Option ℚ
  | .decimal whole part _ => some (whole.count + part.count / 10 ^ part.places)
  | m => m.value?

/-- The digits behind the point do not wrap around the count of their places, or they are zeros. -/
def Placed : Magnitude → Prop
  | .integer .. | .fraction .. => True
  | .decimal _ part _ => part.chars.length < 4294967296 ∨ part.count = 0

/-- There are no digits before the point. -/
def pointFirst : Magnitude → Bool
  | .integer .. | .fraction .. => false
  | .decimal whole _ _ => whole.chars.isEmpty

/-- The digits are within the bounds of what they are read into. -/
def Held : Magnitude → Prop
  | .integer digits _ => InWord digits.count
  | .fraction num den _ _ => InWord num.count ∧ InWord den.count
  | .decimal whole part _ =>
    InWideWord (10 ^ part.places) ∧ InWideWord (whole.count * 10 ^ part.places + part.count)

instance : (m : Magnitude) → Decidable m.Held
  | .integer .. => inferInstanceAs (Decidable (InWord _))
  | .fraction .. => inferInstanceAs (Decidable (_ ∧ _))
  | .decimal .. => inferInstanceAs (Decidable (_ ∧ _))

end Magnitude

namespace Literal

/-- The characters of a literal. -/
def chars (l : Literal) : List Char :=
  l.sign.chars ++ l.magnitude.chars

/-- The text of a literal. -/
def text (l : Literal) : String :=
  String.ofList l.chars

/-- The value that a literal denotes. -/
def value? (l : Literal) : Option ℚ :=
  l.magnitude.value?.map l.sign.of

/-- The value that a literal is taken to denote. -/
def taken? (l : Literal) : Option ℚ :=
  l.magnitude.taken?.map l.sign.of

end Literal

/-! ## The text determines the literal -/

namespace Magnitude

open Rational (splitFirst splitFirst_append splitFirst_eq_none)

/-- What stands before and behind the slash, if there is one. -/
def slash? : Magnitude → Option (List Char × List Char)
  | .fraction num den _ _ => some (num.chars, den.chars)
  | .integer .. | .decimal .. => none

/-- What stands before and behind the point, if there is one. -/
def point? : Magnitude → Option (List Char × List Char)
  | .decimal whole part _ => some (whole.chars, part.chars)
  | .integer .. | .fraction .. => none

theorem splitFirst_slash (m : Magnitude) : splitFirst '/' m.chars = m.slash? := by
  cases m with
  | integer ds => exact splitFirst_eq_none (ds.not_mem rfl)
  | fraction num den => exact splitFirst_append (num.not_mem rfl) den.chars
  | decimal whole part =>
    have behind : '/' ∉ '.' :: part.chars :=
      List.not_mem_cons_of_ne_of_not_mem (by decide) (part.not_mem rfl)
    exact splitFirst_eq_none (List.not_mem_append (whole.not_mem rfl) behind)

theorem splitFirst_point (m : Magnitude) : splitFirst '.' m.chars = m.point? := by
  cases m with
  | integer ds => exact splitFirst_eq_none (ds.not_mem rfl)
  | fraction num den =>
    have behind : '.' ∉ '/' :: den.chars :=
      List.not_mem_cons_of_ne_of_not_mem (by decide) (den.not_mem rfl)
    exact splitFirst_eq_none (List.not_mem_append (num.not_mem rfl) behind)
  | decimal whole part => exact splitFirst_append (whole.not_mem rfl) part.chars

theorem chars_injective {m k : Magnitude} (h : m.chars = k.chars) : m = k := by
  -- A slash tells fractions from the others, and a point decimals from integers.
  have slash : m.slash? = k.slash? := by rw [← splitFirst_slash, h, splitFirst_slash]
  have point : m.point? = k.point? := by rw [← splitFirst_point, h, splitFirst_point]
  cases m with
  | integer ds =>
    cases k with
    | integer es =>
      cases Digits.ext h
      rfl
    | fraction => cases slash
    | decimal => cases point
  | fraction num den =>
    cases k with
    | fraction num' den' =>
      obtain ⟨top, bottom⟩ := Prod.mk.inj (Option.some.inj slash)
      cases Digits.ext top
      cases Digits.ext bottom
      rfl
    | integer | decimal => cases slash
  | decimal whole part =>
    cases k with
    | decimal whole' part' =>
      obtain ⟨before, behind⟩ := Prod.mk.inj (Option.some.inj point)
      cases Digits.ext before
      cases Digits.ext behind
      rfl
    | integer => cases point
    | fraction => cases slash

/-- Behind the sign stands a digit, or the point and then a digit. -/
theorem begins (m : Magnitude) :
    (m.pointFirst = false ∧ ∃ c cs, m.chars = c :: cs ∧ Text.isDigit c = true) ∨
      (m.pointFirst = true ∧ ∃ c cs, m.chars = '.' :: c :: cs ∧ Text.isDigit c = true) := by
  cases m with
  | integer ds some =>
    obtain ⟨c, cs, first, digit⟩ := ds.begins some
    exact .inl ⟨rfl, c, cs, first, digit⟩
  | fraction num den some =>
    obtain ⟨c, cs, first, digit⟩ := num.begins some
    exact .inl ⟨rfl, c, cs ++ '/' :: den.chars, by rw [chars, first, List.cons_append], digit⟩
  | decimal whole part some =>
    by_cases none : whole.chars = []
    · obtain ⟨c, cs, first, digit⟩ := part.begins (some.resolve_left (absurd none))
      refine .inr ⟨List.isEmpty_iff.2 none, c, cs, ?_, digit⟩
      rw [chars, none, List.nil_append, first]
    · obtain ⟨c, cs, first, digit⟩ := whole.begins none
      refine .inl ⟨List.isEmpty_eq_false_iff.2 none, c, cs ++ '.' :: part.chars, ?_, digit⟩
      rw [chars, first, List.cons_append]

theorem chars_ne_cons (m : Magnitude) {c : Char} (digit : Text.isDigit c = false) (point : c ≠ '.')
    (cs : List Char) : m.chars ≠ c :: cs := by
  rcases m.begins with ⟨-, d, ds, begun, first⟩ | ⟨-, d, ds, begun, -⟩
  · rw [begun]
    rintro ⟨⟩
    rw [first] at digit
    cases digit
  · rw [begun]
    rintro ⟨⟩
    exact point rfl

end Magnitude

theorem Literal.chars_injective {l k : Literal} (h : l.chars = k.chars) : l = k := by
  obtain ⟨sign, m⟩ := l
  obtain ⟨sign', n⟩ := k
  simp only [Literal.chars, Sign.chars] at h
  -- A sign is neither a digit nor the point, so that a literal without one begins differently.
  cases sign with
  | missing =>
    cases sign' with
    | missing => rw [Magnitude.chars_injective h]
    | plus => exact absurd h (m.chars_ne_cons rfl (by decide) _)
    | minus => exact absurd h (m.chars_ne_cons rfl (by decide) _)
  | plus =>
    cases sign' with
    | missing => exact absurd h.symm (n.chars_ne_cons rfl (by decide) _)
    | plus => rw [Magnitude.chars_injective (List.cons.inj h).2]
    | minus => cases (List.cons.inj h).1
  | minus =>
    cases sign' with
    | missing => exact absurd h.symm (n.chars_ne_cons rfl (by decide) _)
    | plus => cases (List.cons.inj h).1
    | minus => rw [Magnitude.chars_injective (List.cons.inj h).2]

theorem Literal.text_injective {l k : Literal} (h : l.text = k.text) : l = k :=
  Literal.chars_injective (String.ofList_injective h)

/-! ## Places behind the point -/

theorem Sign.of_injective (sign : Sign) : Function.Injective sign.of := by
  cases sign with
  | missing | plus => exact Function.injective_id
  | minus => exact neg_injective

/-- Digits fill as many places as they are taken to fill as long as the count does not wrap
around. -/
theorem Digits.places_eq_iff (ds : Digits) :
    ds.places = ds.chars.length ↔ ds.chars.length < 4294967296 :=
  Nat.mod_eq_iff_lt (by decide)

theorem Magnitude.value?_eq_taken?_iff (m : Magnitude) : m.value? = m.taken? ↔ m.Placed := by
  cases m with
  | integer | fraction => exact iff_of_true rfl trivial
  | decimal whole part =>
    dsimp only [value?, taken?, Placed]
    rw [Option.some_inj, add_right_inj, Digits.tenths, Text.tenthDigits_eq, ← part.places_eq_iff,
      Digits.count]
    constructor
    · intro same
      by_cases zero : Text.countDigits part.chars = 0
      · exact .inr zero
      · -- What counts something counts the same over one power of ten only.
        have some : (Text.countDigits part.chars : ℚ) ≠ 0 := by exact_mod_cast zero
        rw [div_eq_mul_inv, div_eq_mul_inv, mul_right_inj' some, inv_inj] at same
        have scales : 10 ^ part.chars.length = 10 ^ part.places := by exact_mod_cast same
        exact .inl (Nat.pow_right_injective (by decide : 2 ≤ 10) scales).symm
    · rintro (same | zero)
      · rw [same]
      · rw [zero, Nat.cast_zero, zero_div, zero_div]

/-- A literal is taken for its value exactly if its digits are placed. -/
theorem Literal.value?_eq_taken?_iff (l : Literal) : l.value? = l.taken? ↔ l.magnitude.Placed := by
  rw [← l.magnitude.value?_eq_taken?_iff]
  exact (Option.map_injective l.sign.of_injective).eq_iff

/-! ## Reading digits -/

namespace Rational

variable {cs before behind : List Char} {n d : Int} {a r : Rational}

theorem wordDigits?_chars (ds : Digits) (some : ds.chars ≠ []) :
    wordDigits? ds.chars = if InWord ds.count then Option.some (ds.count : Int) else none := by
  rw [wordDigits?, Text.readDigits?_eq_some_iff.2 ⟨ds, rfl, some, rfl⟩]
  rfl

theorem digits_of_wordDigits? (h : wordDigits? cs = some n) :
    ∃ ds : Digits, ds.chars = cs ∧ ds.chars ≠ [] := by
  obtain ⟨value, read, -⟩ := Option.bind_eq_some_iff.1 h
  obtain ⟨ds, chars, some, -⟩ := Text.readDigits?_eq_some_iff.1 read
  exact ⟨ds, chars, some⟩

theorem sideDigits?_chars (ds : Digits) : sideDigits? ds.chars = some ds.count := by
  rw [sideDigits?]
  split
  · rename_i none
    rw [Digits.count, none, Text.countDigits]
  · rename_i some
    exact Text.readDigits?_eq_some_iff.2 ⟨ds, rfl, some, rfl⟩

theorem digits_of_sideDigits? {value : Nat} (h : sideDigits? cs = some value) :
    ∃ ds : Digits, ds.chars = cs := by
  rw [sideDigits?] at h
  split at h
  · rename_i none
    exact ⟨⟨[], by simp⟩, none.symm⟩
  · obtain ⟨ds, chars, -⟩ := Text.readDigits?_eq_some_iff.1 h
    exact ⟨ds, chars⟩

theorem eq_of_splitFirst {sep : Char} (h : splitFirst sep cs = some (before, behind)) :
    cs = before ++ sep :: behind := by
  induction cs generalizing before with
  | nil => cases h
  | cons c cs ih =>
    rw [splitFirst] at h
    split at h
    · rename_i found
      cases h
      rw [found, List.nil_append]
    · obtain ⟨⟨front, back⟩, rest, whole⟩ := Option.map_eq_some_iff.1 h
      cases whole
      rw [ih rest, List.cons_append]

/-! ## Reading what stands behind the sign -/

theorem ofInt?_eq_some_iff_toRat : ofInt? n = some r ↔ r.toRat = n := by
  rw [toRat_eq_iff, Rat.num_intCast, Rat.den_intCast, ofInt?]
  constructor
  · intro h
    split at h
    · cases h
      exact ⟨rfl, rfl⟩
    · cases h
  · rintro ⟨num, den⟩
    rw [dif_pos (num ▸ r.num_inWord)]
    exact congrArg some (eq_of_parts num.symm den.symm)

theorem ofFraction?_eq_some_iff_value {num den : Nat} :
    ofFraction? num den = some r ↔
      (if den = 0 then none else some (num / den : ℚ)) = some r.toRat := by
  split
  · rename_i zero
    subst zero
    exact ⟨nofun, nofun⟩
  · rename_i some
    rw [ofFraction?_eq_some_iff_toRat (by exact_mod_cast some), Option.some_inj, eq_comm]
    rfl

theorem ofDecimal?_chars (whole part : Digits) (some : whole.chars ≠ [] ∨ part.chars ≠ []) :
    ofDecimal? whole.chars part.chars =
      if (Magnitude.decimal whole part some).Held then
        ofFraction? (whole.count * 10 ^ part.places + part.count : Nat) (10 ^ part.places : Nat)
      else none := by
  have digits : ¬ (whole.chars = [] ∧ part.chars = []) := not_and_or.2 some
  rw [ofDecimal?, if_neg digits, sideDigits?_chars, sideDigits?_chars]
  rfl

/-- What a decimal is taken for, over the power of ten of the places behind its point. -/
theorem decimal_taken (whole part : Digits) :
    (whole.count + part.count / 10 ^ part.places : ℚ) =
      ((whole.count * 10 ^ part.places + part.count : Nat) : Int) /
        ((10 ^ part.places : Nat) : Int) := by
  push_cast
  field_simp

/-- The slash and the point tell the kinds of literal apart. -/
theorem ofUnsigned?_eq (m : Magnitude) :
    ofUnsigned? m.chars =
      match m with
      | .integer ds _ => do ofInt? (← wordDigits? ds.chars)
      | .fraction num den _ _ => do ofFraction? (← wordDigits? num.chars) (← wordDigits? den.chars)
      | .decimal whole part _ => ofDecimal? whole.chars part.chars := by
  rw [ofUnsigned?, m.splitFirst_slash, m.splitFirst_point]
  cases m <;> rfl

/-- A literal without a sign is read as the number that it is taken for, if the digits are held. -/
theorem ofUnsigned?_chars (m : Magnitude) :
    ofUnsigned? m.chars = some r ↔ m.Held ∧ m.taken? = some r.toRat := by
  rw [ofUnsigned?_eq]
  cases m with
  | integer ds begun =>
    have value : ofInt? ds.count = some r ↔ (ds.count : ℚ) = r.toRat := by
      rw [ofInt?_eq_some_iff_toRat, Int.cast_natCast, eq_comm]
    dsimp only [Magnitude.Held, Magnitude.taken?, Magnitude.value?]
    rw [wordDigits?_chars ds begun, Option.some_inj, ← value]
    simp [Option.bind_eq_some_iff]
  | fraction num den begun begun' =>
    dsimp only [Magnitude.Held, Magnitude.taken?, Magnitude.value?]
    rw [wordDigits?_chars num begun, wordDigits?_chars den begun',
      ← ofFraction?_eq_some_iff_value]
    simp [Option.bind_eq_some_iff, and_assoc]
  | decimal whole part begun =>
    have scale : ((10 ^ part.places : Nat) : Int) ≠ 0 := by positivity
    dsimp only [Magnitude.taken?]
    rw [ofDecimal?_chars whole part begun, Option.ite_none_right_eq_some,
      ofFraction?_eq_some_iff_toRat scale, decimal_taken, Option.some_inj]
    exact and_congr_right fun _ => eq_comm

/-- Nothing else is read. -/
theorem magnitude_of_ofUnsigned? (h : ofUnsigned? cs = some r) :
    ∃ m : Magnitude, m.chars = cs := by
  rw [ofUnsigned?] at h
  split at h
  · rename_i num den slash
    obtain ⟨n, top, h⟩ := Option.bind_eq_some_iff.1 h
    obtain ⟨d, bottom, -⟩ := Option.bind_eq_some_iff.1 h
    obtain ⟨ds, rfl, begun⟩ := digits_of_wordDigits? top
    obtain ⟨es, rfl, begun'⟩ := digits_of_wordDigits? bottom
    exact ⟨.fraction ds es begun begun', (eq_of_splitFirst slash).symm⟩
  · split at h
    · rename_i whole part point
      simp only [ofDecimal?, Option.bind_eq_bind] at h
      split at h
      · cases h
      · rename_i digits
        obtain ⟨w, front, h⟩ := Option.bind_eq_some_iff.1 h
        obtain ⟨p, behind, -⟩ := Option.bind_eq_some_iff.1 h
        obtain ⟨ds, rfl⟩ := digits_of_sideDigits? front
        obtain ⟨es, rfl⟩ := digits_of_sideDigits? behind
        exact ⟨.decimal ds es (not_and_or.1 digits), (eq_of_splitFirst point).symm⟩
    · obtain ⟨n, digits, -⟩ := Option.bind_eq_some_iff.1 h
      obtain ⟨ds, rfl, begun⟩ := digits_of_wordDigits? digits
      exact ⟨.integer ds begun, rfl⟩

/-! ## Reading a literal -/

theorem neg?_eq_some_iff_toRat : neg? a = some r ↔ r.toRat = -a.toRat := by
  have den : (a.den : Int) ≠ 0 := by
    have := a.den_pos
    omega
  rw [neg?, ofFraction?_eq_some_iff_toRat den, toRat.eq_def a, ← neg_div]
  push_cast
  rfl

/-- The number with the other sign, where it is one. -/
theorem exists_neg (fits : InWord (-r.num)) : ∃ a : Rational, a.toRat = -r.toRat := by
  refine ⟨⟨-r.num, r.den, r.den_pos, by simpa using r.reduced, fits, r.den_inWord⟩, ?_⟩
  rw [toRat, toRat, ← neg_div]
  push_cast
  rfl

/-- A literal without a minus is read as a number that is not negative, so that it fits with the
other sign too. -/
theorem ofUnsigned?_chars_of_fits (m : Magnitude) :
    ofUnsigned? m.chars = some r ↔ m.taken? = some r.toRat ∧ m.Held ∧ InWord (-r.num) := by
  constructor
  · intro h
    obtain ⟨held, value⟩ := (ofUnsigned?_chars m).1 h
    have nonneg := ofUnsigned?_nonneg h
    have fits := r.num_inWord
    refine ⟨value, held, ?_⟩
    rw [InWord] at fits ⊢
    omega
  · rintro ⟨value, held, -⟩
    exact (ofUnsigned?_chars m).2 ⟨held, value⟩

theorem ofLiteralChars?_minus (m : Magnitude) :
    ofLiteralChars? ('-' :: m.chars) = some r ↔
      m.taken?.map (- ·) = some r.toRat ∧ m.Held ∧ InWord (-r.num) := by
  constructor
  · intro h
    obtain ⟨a, read, negated⟩ := Option.bind_eq_some_iff.1 h
    obtain ⟨held, value⟩ := (ofUnsigned?_chars m).1 read
    rw [value, neg?_eq_some_iff_toRat.1 negated]
    exact ⟨rfl, held, inWord_neg_of_literal h⟩
  · rintro ⟨value, held, fits⟩
    obtain ⟨q, magnitude, negated⟩ := Option.map_eq_some_iff.1 value
    obtain ⟨a, opposite⟩ := exists_neg fits
    rw [← negated, neg_neg] at opposite
    refine Option.bind_eq_some_iff.2 ⟨a, (ofUnsigned?_chars m).2 ⟨held, ?_⟩, ?_⟩
    · rw [magnitude, opposite]
    · rw [neg?_eq_some_iff_toRat, opposite, negated]

/-- A literal is read as the number that it is taken for, if the digits are held and the number fits
without its sign. -/
theorem ofLiteralChars?_chars (l : Literal) :
    ofLiteralChars? l.chars = some r ↔
      l.taken? = some r.toRat ∧ l.magnitude.Held ∧ InWord (-r.num) := by
  obtain ⟨sign, m⟩ := l
  have head (c : Char) (digit : Text.isDigit c = false) (point : c ≠ '.') :
      m.chars.head? ≠ some c := by
    intro first
    obtain ⟨cs, begun⟩ := List.head?_eq_some_iff.1 first
    exact m.chars_ne_cons digit point cs begun
  cases sign with
  | missing =>
    change ofLiteralChars? m.chars = some r ↔ m.taken?.map id = _ ∧ _
    rw [ofLiteralChars?_unsigned (head '-' rfl (by decide)) (head '+' rfl (by decide)),
      Option.map_id]
    exact ofUnsigned?_chars_of_fits m
  | plus =>
    change ofUnsigned? m.chars = some r ↔ m.taken?.map id = _ ∧ _
    rw [Option.map_id]
    exact ofUnsigned?_chars_of_fits m
  | minus => exact ofLiteralChars?_minus m

/-- Nothing but literals is read. -/
theorem literal_of_ofLiteralChars? (h : ofLiteralChars? cs = some r) :
    ∃ l : Literal, l.chars = cs := by
  rw [ofLiteralChars?.eq_def] at h
  split at h
  · obtain ⟨a, read, -⟩ := Option.bind_eq_some_iff.1 h
    obtain ⟨m, rfl⟩ := magnitude_of_ofUnsigned? read
    exact ⟨⟨.minus, m⟩, rfl⟩
  · obtain ⟨m, rfl⟩ := magnitude_of_ofUnsigned? h
    exact ⟨⟨.plus, m⟩, rfl⟩
  · obtain ⟨m, rfl⟩ := magnitude_of_ofUnsigned? h
    exact ⟨⟨.missing, m⟩, rfl⟩

/-- A text is read as a number exactly if it is a literal, and no other one, where the digits are
held and the number fits without its sign too. The parts of the number are the numerator and the
denominator, in lowest terms, of the value that the literal is taken for; and this is the value that
it denotes exactly if fewer than 4294967296 digits stand behind the point or they are all zeros. -/
theorem ofLiteral?_eq_some_iff (s : String) (r : Rational) :
    ofLiteral? s = some r ↔
      ∃ (l : Literal) (q : ℚ), (l.text = s ∧ ∀ k : Literal, k.text = s → k = l) ∧
        l.taken? = some q ∧ (l.value? = some q ↔ l.magnitude.Placed) ∧
        (r.num = q.num ∧ r.den = q.den) ∧ l.magnitude.Held ∧ InWord (-r.num) := by
  constructor
  · intro h
    obtain ⟨l, chars⟩ := literal_of_ofLiteralChars? h
    have text : l.text = s := by
      rw [Literal.text, chars, String.ofList_toList]
    rw [ofLiteral?, ← chars] at h
    obtain ⟨taken, bounds⟩ := (ofLiteralChars?_chars l).1 h
    have exact := l.value?_eq_taken?_iff
    rw [taken] at exact
    refine ⟨l, r.toRat, ⟨text, fun k same => ?_⟩, taken, exact, toRat_eq_iff.1 rfl, bounds⟩
    exact Literal.text_injective (same.trans text.symm)
  · rintro ⟨l, q, ⟨rfl, -⟩, taken, -, parts, bounds⟩
    rw [← toRat_eq_iff.2 parts] at taken
    rw [ofLiteral?, Literal.text, String.toList_ofList]
    exact (ofLiteralChars?_chars l).2 ⟨taken, bounds⟩

end Rational

/-! ## Too many digits -/

namespace Digits

/-- So many zeros and then a five. -/
def farFive (zeros : Nat) : Digits where
  chars := List.replicate zeros '0' ++ ['5']
  each := by
    intro c member
    rcases List.mem_append.1 member with zero | five
    · rw [List.eq_of_mem_replicate zero]
      rfl
    · rw [List.mem_singleton.1 five]
      rfl

theorem length_farFive (zeros : Nat) : (farFive zeros).chars.length = zeros + 1 := by
  rw [farFive, List.length_append, List.length_replicate, List.length_singleton]

/-- Zeros in front count nothing. -/
theorem count_farFive (zeros : Nat) : (farFive zeros).count = 5 := by
  show Text.countDigits (List.replicate zeros '0' ++ ['5']) = 5
  induction zeros with
  | zero => rfl
  | succ zeros ih =>
    rw [List.replicate_succ, List.cons_append, Text.countDigits, ih]
    exact congrArg (· + 5) (Nat.zero_mul _)

theorem places_farFive {zeros : Nat} (wraps : (zeros + 1) % 4294967296 = 0) :
    (farFive zeros).places = 0 := by
  rw [places, Rational.countPlaces, length_farFive, wraps]

end Digits

namespace Literal

/-- The point, so many zeros and then a five. -/
def farFive (zeros : Nat) : Literal where
  sign := .missing
  magnitude := .decimal ⟨[], nofun⟩ (.farFive zeros)
    (.inr (List.append_ne_nil_of_right_ne_nil _ nofun))

theorem value?_farFive (zeros : Nat) : (farFive zeros).value? = some (5 / 10 ^ (zeros + 1)) := by
  show some ((0 : Nat) + Text.tenthDigits (Digits.farFive zeros).chars) = _
  rw [Text.tenthDigits_eq, Digits.length_farFive, Nat.cast_zero, zero_add]
  show some (((Digits.farFive zeros).count : ℚ) / _) = _
  rw [Digits.count_farFive, Nat.cast_ofNat]

variable {zeros : Nat} (wraps : (zeros + 1) % 4294967296 = 0)

include wraps

/-- The five is taken to stand right before the point. -/
theorem taken?_farFive : (farFive zeros).taken? = some 5 := by
  show some ((0 : Nat) +
    ((Digits.farFive zeros).count : ℚ) / 10 ^ (Digits.farFive zeros).places) = _
  rw [Digits.places_farFive wraps, Digits.count_farFive, Nat.cast_zero, zero_add, pow_zero, div_one,
    Nat.cast_ofNat]

theorem held_farFive : (farFive zeros).magnitude.Held := by
  show InWideWord (10 ^ (Digits.farFive zeros).places) ∧
    InWideWord (0 * 10 ^ (Digits.farFive zeros).places + (Digits.farFive zeros).count)
  rw [Digits.places_farFive wraps, Digits.count_farFive]
  decide

end Literal

namespace Rational

/-- The number five. -/
def five : Rational := ofInt 5 (by decide)

theorem toRat_five : five.toRat = 5 :=
  div_one _

/-- A five behind the point, so far behind that the count of the places wraps around to nothing, is
read as the number five. -/
theorem ofLiteral?_farFive {zeros : Nat} (wraps : (zeros + 1) % 4294967296 = 0) :
    ofLiteral? (Literal.farFive zeros).text = some five := by
  rw [ofLiteral?, Literal.text, String.toList_ofList, ofLiteralChars?_chars, toRat_five]
  exact ⟨Literal.taken?_farFive wraps, Literal.held_farFive wraps, by decide⟩

theorem value?_farFive_ne (zeros : Nat) : (Literal.farFive zeros).value? ≠ some five.toRat := by
  have power : (1 : ℚ) < 10 ^ (zeros + 1) := one_lt_pow₀ (by norm_num) (Nat.succ_ne_zero _)
  rw [Literal.value?_farFive, toRat_five, ne_eq, Option.some_inj, div_eq_iff (by positivity)]
  exact (lt_mul_of_one_lt_right (by norm_num) power).ne

/-- The point, 4294967295 zeros and a five denote five over the 4294967296th power of ten, and are
read as five. -/
theorem ofLiteral?_misplaces_five :
    ∃ l : Literal, l.text = String.ofList ('.' :: (List.replicate 4294967295 '0' ++ ['5'])) ∧
      l.value? = some (5 / 10 ^ 4294967296) ∧ ofLiteral? l.text = some five ∧
      l.value? ≠ some five.toRat :=
  ⟨.farFive 4294967295, rfl, Literal.value?_farFive 4294967295, ofLiteral?_farFive rfl,
    value?_farFive_ne 4294967295⟩

end Rational

end LispRepl

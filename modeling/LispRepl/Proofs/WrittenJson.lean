import LispRepl.Proofs.NumberText
import LispRepl.Wire.Codec

/-!
# Written JSON and its reading

The writer and the reader of JSON know nothing of one another. What the writer makes of a value is
the text of the value for the reader too, whatever stands behind it, as long as that does not go on
with a number. The written forms are put together from smaller ones: a string from its characters,
an object from its fields; and so are the proofs that they are read.

- `Json.Escaped`, `Json.stringUnits?_escaped`: a written character, and a string of them.
- `Json.Ends`, `Json.Writes`: the written form of a value, as the reader sees it.
- `Json.writes_null`, `Json.writes_bool`, `Json.writes_word`, `Json.writes_string`,
  `Json.writes_object`: the forms that messages are made of.
- `Json.Writes.parse`: a written form is read as its value.
-/

set_option autoImplicit false

namespace LispRepl

/-- A number is written without a zero in front of other digits. -/
theorem Text.head?_natDigits {n : Nat} (h : n ≠ 0) : (natDigits n).head? ≠ some '0' := by
  induction n using Nat.strongRecOn with
  | ind n ih =>
    by_cases small : n < 10
    · rw [natDigits, Nat.toDigits_of_lt_base small]
      have each : ∀ m < 10, m ≠ 0 → [Nat.digitChar m].head? ≠ some '0' := by decide
      exact each n small h
    · have first := ih (n / 10) (by omega) (by omega)
      rw [natDigits, Nat.toDigits_of_base_le (by decide) (by omega), List.head?_append]
      rw [natDigits] at first
      -- The digits in front are not empty, so that the first of them is the first of all.
      cases digits : Nat.toDigits 10 (n / 10) with
      | nil => exact absurd digits Nat.toDigits_ne_nil
      | cons d ds => simpa [digits] using first

namespace Json

/-! ## Strings -/

section Strings

variable {more rest : List Char} {units : List StringUnit}

theorem stringUnits?_short {c d : Char} (short : unescape? c = some d)
    (h : stringUnits? more = some (units, rest)) :
    stringUnits? ('\\' :: c :: more) = some (.char d :: units, rest) := by
  have apart : c ≠ 'u' := by
    rintro rfl
    cases short
  simp [stringUnits?, apart, short, h]

theorem stringUnits?_code {a b c d : Char} {n : Nat} (code : hex4? a b c d = some n)
    (h : stringUnits? more = some (units, rest)) :
    stringUnits? ('\\' :: 'u' :: a :: b :: c :: d :: more) = some (.code n :: units, rest) := by
  simp [stringUnits?, code, h]

theorem stringUnits?_plain {c : Char} (quote : c ≠ '"') (backslash : c ≠ '\\')
    (visible : ¬ c < ' ') (h : stringUnits? more = some (units, rest)) :
    stringUnits? (c :: more) = some (.char c :: units, rest) := by
  simp [stringUnits?, backslash, visible, h]

theorem hex4?_hex2 {n : Nat} (h : n < 32) :
    hex4? '0' '0' (Nat.digitChar (n / 16)) (Nat.digitChar (n % 16)) = some n := by
  decide +revert

/-- The unit that the written form of a character is read as: controls without a short escape are
given by number. -/
def unitOf (c : Char) : StringUnit :=
  if c < ' ' ∧ c ∉ ['\x08', '\x0c', '\n', '\r', '\t'] then .code c.toNat else .char c

/-- How a character is written in a string, with the unit that it is read as. -/
inductive Escaped (c : Char) : List Char → StringUnit → Prop where
  | short {d : Char} (back : unescape? d = some c) (visible : ' ' ≤ d) :
    Escaped c ['\\', d] (.char c)
  | code (control : c.toNat < 32) :
    Escaped c ('\\' :: 'u' :: '0' :: '0' :: hex2 c.toNat) (.code c.toNat)
  | plain (quote : c ≠ '"') (backslash : c ≠ '\\') (visible : ¬ c < ' ') : Escaped c [c] (.char c)

theorem escaped_escapeChar (c : Char) : Escaped c (escapeChar c) (unitOf c) := by
  simp only [escapeChar]
  repeat' split
  all_goals subst_vars
  iterate 7 exact .short rfl (by decide)
  · rename_i control
    have unit : unitOf c = .code c.toNat := by simp_all [unitOf]
    rw [unit]
    exact .code control
  · rename_i quote backslash _ _ _ _ _ visible
    have unit : unitOf c = .char c := by simp_all [unitOf]
    rw [unit]
    exact .plain quote backslash visible

theorem stringUnits?_of_escaped {c : Char} {written : List Char} {unit : StringUnit}
    (escaped : Escaped c written unit) (h : stringUnits? more = some (units, rest)) :
    stringUnits? (written ++ more) = some (unit :: units, rest) := by
  cases escaped with
  | short back => exact stringUnits?_short back h
  | code control => exact stringUnits?_code (hex4?_hex2 control) h
  | plain quote backslash visible => exact stringUnits?_plain quote backslash visible h

/-- A written string is read up to its closing quote. -/
theorem stringUnits?_escaped (cs rest : List Char) :
    stringUnits? (cs.flatMap escapeChar ++ '"' :: rest) = some (cs.map unitOf, rest) := by
  induction cs with
  | nil => rfl
  | cons c cs ih =>
    rw [List.flatMap_cons, List.append_assoc]
    exact stringUnits?_of_escaped (escaped_escapeChar c) ih

/-- A unit that is no half of a surrogate pair is joined with none. -/
theorem joinUnits_code {n : Nat} (high : isHigh n = false) (low : isLow n = false)
    (units : List StringUnit) :
    joinUnits (.code n :: units) = (joinUnits units).map (Char.ofNat n :: ·) := by
  rcases units with _ | ⟨_ | m, units⟩ <;> simp [joinUnits, high, low]

theorem joinUnits_of_escaped {c : Char} {written : List Char} {unit : StringUnit}
    (escaped : Escaped c written unit) (units : List StringUnit) :
    joinUnits (unit :: units) = (joinUnits units).map (c :: ·) := by
  cases escaped with
  | short => rw [joinUnits]
  | code control =>
    have high : isHigh c.toNat = false := by simp [isHigh]; omega
    have low : isLow c.toNat = false := by simp [isLow]; omega
    rw [joinUnits_code high low, Char.ofNat_toNat]
  | plain => rw [joinUnits]

theorem joinUnits_unitOf (cs : List Char) : joinUnits (cs.map unitOf) = some cs := by
  induction cs with
  | nil => rfl
  | cons c cs ih =>
    rw [List.map_cons, joinUnits_of_escaped (escaped_escapeChar c), ih]
    rfl

theorem visible_of_all {cs : List Char} (h : cs.all (fun c => ' ' ≤ c) = true) :
    ∀ c ∈ cs, ' ' ≤ c := fun c member => of_decide_eq_true (List.all_eq_true.1 h c member)

theorem visible_hex2 {n : Nat} (h : n < 32) : (hex2 n).all (fun c => ' ' ≤ c) = true := by
  decide +revert

/-- Nothing is written with a control character. -/
theorem visible_of_escaped {c : Char} {written : List Char} {unit : StringUnit}
    (escaped : Escaped c written unit) : ∀ x ∈ written, ' ' ≤ x := by
  cases escaped with
  | short back visible => simpa using visible
  | code control => exact visible_of_all (visible_hex2 control)
  | plain quote backslash visible => simpa using visible

theorem visible_stringChars (cs : List Char) : ∀ x ∈ stringChars cs, ' ' ≤ x := by
  intro x member
  simp only [stringChars, List.mem_append, List.mem_cons, List.mem_flatMap, List.not_mem_nil,
    or_false] at member
  rcases member with (rfl | ⟨c, -, inside⟩) | rfl
  · decide
  · exact visible_of_escaped (escaped_escapeChar c) x inside
  · decide

end Strings

/-! ## Written values -/

/-- The text does not go on with a number that stands before it. -/
def Ends (rest : List Char) : Prop :=
  ∀ c ∈ rest.head?, Text.isDigit c = false ∧ c ≠ '.' ∧ c ≠ 'e' ∧ c ≠ 'E'

/-- The characters are a written form of the value: they hold no control, and they are read as the
value, with fuel for each of them, wherever they end. -/
structure Writes (cs : List Char) (v : Json) : Prop where
  visible : ∀ c ∈ cs, ' ' ≤ c
  read : ∀ {fuel rest}, cs.length ≤ fuel → Ends rest → value? fuel (cs ++ rest) = some (v, rest)

/-- Some fuel is there for a text that is not empty. -/
theorem exists_fuel {cs : List Char} {fuel : Nat} (some : cs ≠ []) (room : cs.length ≤ fuel) :
    ∃ n, fuel = n + 1 := by
  have positive : 0 < cs.length := List.length_pos_iff.2 some
  exact Nat.exists_eq_add_one_of_ne_zero (by omega)

theorem skipSpace_cons {c : Char} (h : isSpace c = false) (cs : List Char) :
    skipSpace (c :: cs) = c :: cs := by
  simp [skipSpace, h]

theorem writes_null : Writes "null".toList .null where
  visible := visible_of_all (by decide)
  read {fuel rest} room _ := by
    obtain ⟨fuel, rfl⟩ := exists_fuel (by decide) room
    rfl

theorem writes_bool (b : Bool) : Writes (boolChars b) (.bool b) where
  visible := by cases b <;> exact visible_of_all (by decide)
  read {fuel rest} room _ := by
    cases b with
    | true =>
      obtain ⟨fuel, rfl⟩ := exists_fuel (by decide) room
      rfl
    | false =>
      obtain ⟨fuel, rfl⟩ := exists_fuel (by decide) room
      rfl

theorem writes_string (cs : List Char) : Writes (stringChars cs) (.string (some cs)) where
  visible := visible_stringChars cs
  read {fuel rest} room _ := by
    obtain ⟨fuel, rfl⟩ := exists_fuel (List.cons_ne_nil _ _) room
    have text : stringChars cs ++ rest = '"' :: (cs.flatMap escapeChar ++ '"' :: rest) := by
      simp [stringChars]
    rw [text, value?, skipSpace_cons rfl]
    simp [stringUnits?_escaped, joinUnits_unitOf]

/-! ### Numbers -/

section Numbers

variable {rest : List Char}

theorem spanDigits_append {ds : List Char} (digits : ∀ c ∈ ds, Text.isDigit c = true)
    (ends : Ends rest) : spanDigits (ds ++ rest) = (ds, rest) := by
  rw [spanDigits, List.takeWhile_append_of_pos digits, List.dropWhile_append_of_pos digits]
  cases rest with
  | nil => simp
  | cons c rest =>
    have other := (ends c rfl).1
    simp [other]

theorem fraction?_of_ends (ends : Ends rest) : fraction? rest = some ([], rest) := by
  cases rest with
  | nil => rfl
  | cons c rest =>
    have other := (ends c rfl).2.1
    simp [fraction?, other]

theorem exponent?_of_ends (ends : Ends rest) : exponent? rest = some ((false, 0), rest) := by
  cases rest with
  | nil => rfl
  | cons c rest =>
    have other := (ends c rfl).2.2
    simp [exponent?, other]

theorem unsigned?_natDigits {n : Nat} (h : n < UInt64.size) (ends : Ends rest) :
    unsigned? false (Text.natDigits n ++ rest) = some (.word n, rest) := by
  have digits : ∀ c ∈ Text.natDigits n, Text.isDigit c = true := fun c member =>
    Text.isDigit_of_mem_natDigits member
  have span := spanDigits_append digits ends
  have value : Text.digitsValue (Text.natDigits n) = n := by
    have read := Text.readDigits?_natDigits n
    rw [Text.readDigits?] at read
    split at read
    · exact Option.some.inj read
    · cases read
  have leading : ¬ ((Text.natDigits n).head? = some '0' ∧ 1 < (Text.natDigits n).length) := by
    rintro ⟨zero, more⟩
    by_cases none : n = 0
    · subst none
      exact absurd more (by decide)
    · exact Text.head?_natDigits none zero
  rw [unsigned?, span]
  simp [Text.natDigits_ne_nil, leading, fraction?_of_ends ends, exponent?_of_ends ends, value, h]

/-- A digit begins nothing but a number. -/
theorem value?_digit {d : Char} (digit : Text.isDigit d = true) (fuel : Nat) (cs : List Char) :
    value? (fuel + 1) (d :: cs) =
      (unsigned? false (d :: cs)).map fun (n, rest) => (.number n, rest) := by
  have apart : ∀ c : Char, Text.isDigit c = false → d ≠ c := by
    rintro c other rfl
    rw [digit] at other
    cases other
  have space : isSpace d = false := by
    simp only [isSpace, Bool.or_eq_false_iff, beq_eq_false_iff_ne]
    exact ⟨⟨⟨apart ' ' rfl, apart '\n' rfl⟩, apart '\t' rfl⟩, apart '\r' rfl⟩
  rw [value?, skipSpace_cons space]
  have number : number? (d :: cs) = unsigned? false (d :: cs) := by
    rw [number?.eq_def]
    split
    · rename_i heq
      cases heq
      exact absurd rfl (apart '-' rfl)
    · rfl
  rw [← number]
  split
  · rename_i heq
    cases heq
  iterate 6
    · rename_i heq
      cases heq
      cases digit
  · cases number? (d :: cs) <;> rfl

theorem writes_word {n : Nat} (h : n < UInt64.size) :
    Writes (Text.natDigits n) (.number (.word n)) where
  visible c member := by
    have digit := Text.isDigit_of_mem_natDigits member
    simp only [Text.isDigit, Bool.and_eq_true, decide_eq_true_eq] at digit
    exact Char.le_trans (by decide) digit.1
  read {fuel rest} room ends := by
    have read := unsigned?_natDigits h ends
    obtain ⟨fuel, rfl⟩ := exists_fuel (Text.natDigits_ne_nil n) room
    cases digits : Text.natDigits n with
    | nil => exact absurd digits (Text.natDigits_ne_nil n)
    | cons d ds =>
      rw [digits] at read
      have digit : Text.isDigit d = true :=
        Text.isDigit_of_mem_natDigits (digits ▸ List.mem_cons_self)
      rw [List.cons_append] at read ⊢
      rw [value?_digit digit, read]
      rfl

end Numbers

/-! ### Objects -/

/-- A field of an object, with the written form of its value. -/
structure Field where
  name : String
  chars : List Char
  value : Json
  writes : Writes chars value

namespace Field

/-- The field as it stands in a written object. -/
def written (f : Field) : List Char :=
  fieldChars f.name f.chars

/-- The field as it is read. -/
def entry (f : Field) : Option (List Char) × Json :=
  (some f.name.toList, f.value)

end Field

section Objects

variable {fuel : Nat} {rest : List Char}

theorem visible_written (f : Field) : ∀ c ∈ f.written, ' ' ≤ c := by
  intro c member
  rcases List.mem_append.1 member with name | value
  · exact visible_stringChars _ c name
  · rcases List.mem_cons.1 value with rfl | value
    · decide
    · exact f.writes.visible c value

theorem ends_cons {c : Char} (h : Text.isDigit c = false ∧ c ≠ '.' ∧ c ≠ 'e' ∧ c ≠ 'E')
    (cs : List Char) : Ends (c :: cs) := by
  intro d first
  cases first
  exact h

/-- The text of a field up to its value. -/
theorem written_append (f : Field) (more : List Char) :
    f.written ++ more =
      '"' :: (f.name.toList.flatMap escapeChar ++ '"' :: ':' :: (f.chars ++ more)) := by
  simp [Field.written, fieldChars, stringChars]

/-- The last field of an object. -/
theorem fields?_last (f : Field) (room : f.chars.length ≤ fuel) :
    fields? (fuel + 1) (f.written ++ '\x7d' :: rest) = some ([f.entry], rest) := by
  have value := f.writes.read room (ends_cons (by decide) rest : Ends ('\x7d' :: rest))
  rw [written_append, fields?, skipSpace_cons rfl]
  simp [stringUnits?_escaped, skipSpace_cons, isSpace, value, joinUnits_unitOf, Field.entry]

/-- A field with others behind it. -/
theorem fields?_cons (f : Field) {more : List Char} {fs : List (Option (List Char) × Json)}
    (room : f.chars.length ≤ fuel) (others : fields? fuel more = some (fs, rest)) :
    fields? (fuel + 1) (f.written ++ ',' :: more) = some (f.entry :: fs, rest) := by
  have value := f.writes.read room (ends_cons (by decide) more : Ends (',' :: more))
  rw [written_append, fields?, skipSpace_cons rfl]
  simp [stringUnits?_escaped, skipSpace_cons, isSpace, value, joinUnits_unitOf, Field.entry, others]

theorem length_chars_lt (f : Field) : f.chars.length < f.written.length := by
  simp [Field.written, fieldChars]
  omega

/-- The fields of an object as they stand between its braces. -/
def writtenFields (fs : List Field) : List Char :=
  ((fs.map Field.written).intersperse [',']).flatten

theorem writtenFields_singleton (f : Field) : writtenFields [f] = f.written := by
  simp [writtenFields]

theorem writtenFields_cons_cons (f g : Field) (fs : List Field) :
    writtenFields (f :: g :: fs) = f.written ++ ',' :: writtenFields (g :: fs) := by
  simp [writtenFields]

/-- What stands in an object begins with the quote of its first name. -/
theorem writtenFields_eq_cons (f : Field) (fs : List Field) :
    ∃ inside, writtenFields (f :: fs) = '"' :: inside := by
  cases fs with
  | nil => exact ⟨_, writtenFields_singleton f⟩
  | cons g fs => exact ⟨_, writtenFields_cons_cons f g fs⟩

theorem writtenFields_ne_nil (f : Field) (fs : List Field) : writtenFields (f :: fs) ≠ [] := by
  obtain ⟨inside, quote⟩ := writtenFields_eq_cons f fs
  rw [quote]
  exact List.cons_ne_nil _ _

/-- All fields of an object, up to its closing brace. -/
theorem fields?_writtenFields (f : Field) (fs : List Field)
    (room : (writtenFields (f :: fs)).length ≤ fuel) :
    fields? fuel (writtenFields (f :: fs) ++ '\x7d' :: rest) =
      some ((f :: fs).map Field.entry, rest) := by
  -- Each field takes one unit of fuel and has more characters than that.
  induction fs generalizing f fuel with
  | nil =>
    have longer := length_chars_lt f
    obtain ⟨fuel, rfl⟩ := exists_fuel (writtenFields_ne_nil f []) room
    rw [writtenFields_singleton] at room ⊢
    exact fields?_last f (by omega)
  | cons g fs ih =>
    have longer := length_chars_lt f
    obtain ⟨fuel, rfl⟩ := exists_fuel (writtenFields_ne_nil f (g :: fs)) room
    rw [writtenFields_cons_cons, List.length_append, List.length_cons] at room
    rw [writtenFields_cons_cons, List.append_assoc, List.cons_append]
    exact fields?_cons f (by omega) (ih g (by omega))

theorem visible_writtenFields (fs : List Field) : ∀ c ∈ writtenFields fs, ' ' ≤ c := by
  induction fs with
  | nil => exact fun c member => absurd member (by simp [writtenFields])
  | cons f fs ih =>
    cases fs with
    | nil =>
      rw [writtenFields_singleton]
      exact visible_written f
    | cons g fs =>
      rw [writtenFields_cons_cons]
      intro c member
      rcases List.mem_append.1 member with field | others
      · exact visible_written f c field
      · rcases List.mem_cons.1 others with rfl | others
        · decide
        · exact ih c others

theorem objectChars_eq (fs : List Field) :
    objectChars (fs.map Field.written) = '\x7b' :: (writtenFields fs ++ ['\x7d']) := rfl

/-- An object is written by the written forms of its fields. -/
theorem writes_object (f : Field) (fs : List Field) :
    Writes (objectChars ((f :: fs).map Field.written)) (.object ((f :: fs).map Field.entry)) where
  visible c member := by
    rw [objectChars_eq] at member
    simp only [List.mem_cons, List.mem_append, List.not_mem_nil, or_false] at member
    rcases member with rfl | inside | rfl
    · decide
    · exact visible_writtenFields _ c inside
    · decide
  read {fuel rest} room _ := by
    obtain ⟨fuel, rfl⟩ := exists_fuel (List.cons_ne_nil _ _) room
    rw [objectChars_eq] at room ⊢
    simp only [List.length_cons, List.length_append] at room
    have fields : fields? fuel (writtenFields (f :: fs) ++ '\x7d' :: rest) =
        some ((f :: fs).map Field.entry, rest) := fields?_writtenFields f fs (by omega)
    obtain ⟨inside, quote⟩ := writtenFields_eq_cons f fs
    rw [quote, List.cons_append] at fields
    rw [quote, List.cons_append, value?, skipSpace_cons rfl]
    simp [skipSpace_cons, isSpace, fields]

end Objects

/-- A written form is read as its value. -/
theorem Writes.parse {cs : List Char} {v : Json} (h : Writes cs v) : parse? cs = some v := by
  have read : value? (2 * cs.length + 1) (cs ++ []) = some (v, []) :=
    h.read (by omega) (by simp [Ends])
  rw [List.append_nil] at read
  rw [parse?, read]
  rfl

end Json
end LispRepl

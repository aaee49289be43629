import LispRepl.Text.Lines
import LispRepl.Text.Utf8

/-!
# The bytes of a text

A text goes out as its UTF-8 bytes and is read back from them, character by character. A byte below
128 stands for itself alone, so that cutting at line feeds cuts between characters, and the first
line of an input is what was written there, whatever bytes stand behind it.

- `Text.bytes`: the bytes of a text.
- `Text.Encoded`: the bytes of a character; `Text.nextChar_encoded` reads it back.
- `Text.decode?_bytes`: the text comes back.
- `Text.splitLines_line`: the first line comes back, but for a carriage return at its end.
-/

set_option autoImplicit false

namespace LispRepl.Text

/-- The UTF-8 bytes of a text. -/
def bytes (s : String) : List UInt8 :=
  s.toByteArray.data.toList

theorem bytes_eq_flatMap (s : String) : bytes s = s.toList.flatMap String.utf8EncodeChar := by
  rw [bytes, ← String.utf8Encode_toList, List.utf8Encode, List.toList_data_toByteArray]

@[simp] theorem bytes_append (s t : String) : bytes (s ++ t) = bytes s ++ bytes t := by
  simp [bytes_eq_flatMap]

/-! ## One character -/

/-- The byte that carries six bits behind a lead byte. -/
def continuation (x : Nat) : UInt8 :=
  .ofNat (x + 0x80)

/-- The bits of a lead byte with six more bits for each byte behind it. -/
def joinBits (value : Nat) (xs : List Nat) : Nat :=
  xs.foldl (fun value x => value * 64 + x) value

theorem toNat_ofNat_add_sub {x low : Nat} (h : x + low < 256) :
    (UInt8.ofNat (x + low)).toNat - low = x := by
  rw [UInt8.toNat_ofNat']
  omega

theorem isContinuation_continuation : ∀ x < 64, isContinuation (continuation x) = true := by
  decide

theorem le_toNat_continuation : ∀ x < 64, 0x80 ≤ (continuation x).toNat := by
  decide

/-- Bytes of six bits each are put together, whatever stands behind them. -/
theorem moreBits_continuation {xs : List Nat} (small : ∀ x ∈ xs, x < 64) (value taken : Nat)
    (rest : List UInt8) :
    moreBits value taken xs.length (xs.map continuation ++ rest) = .ok (joinBits value xs) := by
  induction xs generalizing value taken with
  | nil => rfl
  | cons x xs ih =>
    have bits : x < 64 := small x List.mem_cons_self
    have payload : (continuation x).toNat - 0x80 = x := toNat_ofNat_add_sub (by omega)
    rw [List.length_cons, List.map_cons, List.cons_append, moreBits,
      if_pos (isContinuation_continuation x bits), payload,
      ih fun y member => small y (List.mem_cons_of_mem _ member)]
    rfl

/-- These two bytes begin a character with so many bytes behind the lead. -/
def opens (count : Nat) (lead second : UInt8) : Bool :=
  match leadShape lead with
  | some (n, low, high) => n == count && byteIn low high second
  | none => false

-- The leads of two, three and four bytes, by the bits that the first two bytes carry. What is left
-- out has a shorter encoding, is a surrogate, or is beyond the last character.

theorem opens_two : ∀ k < 32, 2 ≤ k → ∀ x < 64,
    opens 1 (.ofNat (k + 0xc0)) (continuation x) = true := by
  decide +kernel

theorem opens_three : ∀ k < 16, ∀ x < 64, 0x20 ≤ k * 64 + x →
    k * 64 + x < 0x360 ∨ 0x37f < k * 64 + x →
    opens 2 (.ofNat (k + 0xe0)) (continuation x) = true := by
  decide +kernel

theorem opens_four : ∀ k < 8, ∀ x < 64, 0x10 ≤ k * 64 + x → k * 64 + x < 0x110 →
    opens 3 (.ofNat (k + 0xf0)) (continuation x) = true := by
  decide +kernel

/-- The bytes of a character: one that stands for itself, or a lead and bytes of six bits each. -/
inductive Encoded (c : Char) : List UInt8 → Prop where
  | single (ascii : c.toNat < 0x80) : Encoded c [.ofNat c.toNat]
  | several (lead : UInt8) (x : Nat) (xs : List Nat) (small : ∀ y ∈ x :: xs, y < 64)
    (start : opens (x :: xs).length lead (continuation x) = true)
    (value : joinBits (leadBits (x :: xs).length lead) (x :: xs) = c.toNat) :
    Encoded c (lead :: (x :: xs).map continuation)

theorem encoded_utf8EncodeChar (c : Char) : Encoded c (String.utf8EncodeChar c) := by
  have valid : c.val.toNat < 0xd800 ∨ 0xdfff < c.val.toNat ∧ c.val.toNat < 0x110000 := c.valid
  have same : c.toNat = c.val.toNat := rfl
  rw [String.utf8EncodeChar]
  generalize c.val.toNat = v at valid same
  -- By the length of the encoding. The bits of the lead are not cut, as the number is small enough.
  split
  · rw [← same]
    exact .single (by omega)
  split
  · have bits : leadBits 1 (.ofNat (v / 64 % 32 + 0xc0)) = v / 64 % 32 :=
      toNat_ofNat_add_sub (by omega)
    refine .several _ (v % 64) [] (by simp; omega) (opens_two _ ?_ ?_ _ ?_) ?_
    · omega
    · omega
    · omega
    · rw [List.length_singleton, bits, joinBits, same]
      show v / 64 % 32 * 64 + v % 64 = v
      omega
  split
  · have bits : leadBits 2 (.ofNat (v / 4096 % 16 + 0xe0)) = v / 4096 % 16 :=
      toNat_ofNat_add_sub (by omega)
    refine .several _ (v / 64 % 64) [v % 64] (by simp; omega) (opens_three _ ?_ _ ?_ ?_ ?_) ?_
    · omega
    · omega
    · omega
    · omega
    · rw [List.length_cons, List.length_singleton, bits, joinBits, same]
      show (v / 4096 % 16 * 64 + v / 64 % 64) * 64 + v % 64 = v
      omega
  · have bits : leadBits 3 (.ofNat (v / 262144 % 8 + 0xf0)) = v / 262144 % 8 :=
      toNat_ofNat_add_sub (by omega)
    refine .several _ (v / 4096 % 64) [v / 64 % 64, v % 64] (by simp; omega)
      (opens_four _ ?_ _ ?_ ?_ ?_) ?_
    · omega
    · omega
    · omega
    · omega
    · rw [List.length_cons, List.length_cons, List.length_singleton, bits, joinBits, same]
      show ((v / 262144 % 8 * 64 + v / 4096 % 64) * 64 + v / 64 % 64) * 64 + v % 64 = v
      omega

/-- Bytes that begin with those of a character. -/
theorem nextChar_encoded {c : Char} {bs : List UInt8} (h : Encoded c bs) :
    ∃ lead behind, bs = lead :: behind ∧
      ∀ rest, nextChar lead (behind ++ rest) = .char c behind.length := by
  cases h with
  | single ascii =>
    have single : ∀ n < 0x80, leadShape (.ofNat n) = some (0, 0x80, 0xbf) := by decide
    have value : (UInt8.ofNat c.toNat).toNat = c.toNat := by
      rw [UInt8.toNat_ofNat']
      omega
    refine ⟨_, [], rfl, fun rest => ?_⟩
    simp only [nextChar, single _ ascii, value, Char.ofNat_toNat, List.length_nil]
  | several lead x xs small start value =>
    refine ⟨lead, _, rfl, fun rest => ?_⟩
    have together := moreBits_continuation small (leadBits (x :: xs).length lead) 0 rest
    rw [opens] at start
    split at start
    · next n low high shape =>
      rw [Bool.and_eq_true, beq_iff_eq] at start
      obtain ⟨rfl, inside⟩ := start
      rw [List.map_cons, List.cons_append, List.length_cons] at together
      simp only [nextChar, shape, List.map_cons, List.cons_append, List.length_cons, inside,
        if_true, together, List.length_map]
      rw [← List.length_cons, value, Char.ofNat_toNat]
    · cases start

/-- A byte below 128 stands for a character by itself. -/
theorem toNat_eq_of_mem_encoded {c : Char} {bs : List UInt8} (h : Encoded c bs) {b : UInt8}
    (member : b ∈ bs) (ascii : b < 0x80) : bs = [b] ∧ c.toNat = b.toNat := by
  cases h with
  | single small =>
    obtain rfl := List.mem_singleton.1 member
    exact ⟨rfl, by rw [UInt8.toNat_ofNat']; omega⟩
  | several lead x xs small start value =>
    exfalso
    rcases List.mem_cons.1 member with rfl | behind
    · rw [opens, leadShape, if_pos ascii] at start
      cases start
    · obtain ⟨y, six, rfl⟩ := List.mem_map.1 behind
      have high := le_toNat_continuation y (small y six)
      exact absurd (UInt8.lt_iff_toNat_lt.1 ascii) (Nat.not_lt.2 high)

/-! ## Texts -/

theorem decodePrefix_encoded {c : Char} {bs : List UInt8} (h : Encoded c bs) (rest : List UInt8) :
    decodePrefix (bs ++ rest) = (c :: (decodePrefix rest).1, (decodePrefix rest).2) := by
  obtain ⟨lead, behind, rfl, next⟩ := nextChar_encoded h
  rw [List.cons_append, decodePrefix]
  simp only [next, List.drop_left]

/-- The bytes of a text are read as that text. -/
theorem decode?_bytes (s : String) : decode? (bytes s) = some s.toList := by
  have whole : ∀ cs : List Char, decodePrefix (cs.flatMap String.utf8EncodeChar) = (cs, true) := by
    intro cs
    induction cs with
    | nil => rw [List.flatMap_nil, decodePrefix]
    | cons c cs ih => rw [List.flatMap_cons, decodePrefix_encoded (encoded_utf8EncodeChar c), ih]
  rw [decode?, bytes_eq_flatMap, whole]
  rfl

theorem mem_of_mem_bytes {s : String} {b : UInt8} (member : b ∈ bytes s) (ascii : b < 0x80) :
    Char.ofNat b.toNat ∈ s.toList := by
  rw [bytes_eq_flatMap] at member
  obtain ⟨c, inside, piece⟩ := List.mem_flatMap.1 member
  have same := (toNat_eq_of_mem_encoded (encoded_utf8EncodeChar c) piece ascii).2
  rwa [← same, Char.ofNat_toNat]

/-! ## Lines -/

/-- The text without a carriage return at its end. -/
def dropReturn (s : String) : String :=
  if s.toList.getLast? = some '\r' then .ofList s.toList.dropLast else s

/-- A text is kept, or it is what is left and a carriage return. -/
theorem dropReturn_cases (s : String) :
    dropReturn s = s ∨ s.toList = (dropReturn s).toList ++ ['\r'] := by
  rw [dropReturn]
  split
  · next last =>
    obtain ⟨before, split⟩ := List.getLast?_eq_some_iff.1 last
    right
    rw [String.toList_ofList, split, List.dropLast_concat]
  · exact .inl rfl

theorem dropReturn_eq_self {s : String} (h : '\r' ∉ s.toList) : dropReturn s = s :=
  if_neg fun last => h (List.mem_of_getLast? last)

/-- A carriage return at the end of a text is the last of its bytes, and the other way round. -/
theorem dropLast_bytes (s : String) : dropLast 13 (bytes s) = bytes (dropReturn s) := by
  rcases List.eq_nil_or_concat s.toList with empty | ⟨before, c, split⟩
  · simp [dropReturn, dropLast, bytes_eq_flatMap, empty]
  rw [List.concat_eq_append] at split
  have body : bytes s = before.flatMap String.utf8EncodeChar ++ String.utf8EncodeChar c := by
    rw [bytes_eq_flatMap, split, List.flatMap_append, List.flatMap_singleton]
  -- No other character has the byte of a carriage return for its last.
  by_cases ret : c = '\r'
  · have last : String.utf8EncodeChar '\r' = [13] := by decide
    rw [ret, last] at body
    rw [dropLast, dropReturn, body, split, ret, if_pos List.getLast?_concat,
      if_pos List.getLast?_concat, List.dropLast_concat, List.dropLast_concat, bytes_eq_flatMap,
      String.toList_ofList]
  · have other : (bytes s).getLast? ≠ some 13 := by
      intro last
      rw [body, List.getLast?_append,
        List.getLast?_eq_some_getLast String.utf8EncodeChar_ne_nil, Option.some_or,
        ← List.getLast?_eq_some_getLast] at last
      have same := (toNat_eq_of_mem_encoded (encoded_utf8EncodeChar c) (List.mem_of_getLast? last)
        (by decide)).2
      rw [← Char.ofNat_toNat c, same] at ret
      exact ret rfl
    have kept : s.toList.getLast? ≠ some '\r' := by
      rw [split, List.getLast?_concat]
      simpa using ret
    rw [dropLast, dropReturn, if_neg other, if_neg kept]

theorem splitFrom_feed {piece : List UInt8} (within : 10 ∉ piece) (acc rest : List UInt8) :
    splitFrom acc (piece ++ 10 :: rest) = (acc.reverse ++ piece, true) :: splitFrom [] rest := by
  induction piece generalizing acc with
  | nil => simp [splitFrom]
  | cons b piece ih =>
    rw [List.mem_cons, not_or] at within
    rw [List.cons_append, splitFrom, if_neg (Ne.symm within.1), ih within.2]
    simp

/-- The first line of bytes that begin with one. -/
theorem splitLines_line {line : String} (within : '\n' ∉ line.toList) (rest : List UInt8) :
    splitLines (bytes (line ++ "\n") ++ rest) = bytes (dropReturn line) :: splitLines rest := by
  have feed : bytes "\n" = [10] := by decide
  have inside : 10 ∉ bytes line := fun member => within (mem_of_mem_bytes member (by decide))
  rw [bytes_append, feed, List.append_assoc, List.singleton_append, splitLines, splitFeeds,
    splitFrom_feed inside, List.map_cons, ← dropLast_bytes]
  rfl

end LispRepl.Text

/-!
# Byte positions in a text

A position in a text counts the bytes of its encoding. A text can be cut at a position between two
characters and at either end; a position inside a character, or behind the end, is not one to cut
at.

- `splitAt?`: the two sides of a position, where there is a cut.
- `slice?`: the text between two positions.
- `truncate?`: the text up to a size.
- `findLast?`: the position of the last character of a class.
-/

set_option autoImplicit false

namespace LispRepl.Text

variable {s before middle behind : String} {pos start stop : Nat}

/-- The text before a position and the text behind it. -/
def splitAt? (s : String) (pos : Nat) : Option (String × String) :=
  if boundary : String.Pos.Raw.IsValid s ⟨pos⟩ then
    some ((s.sliceTo (s.pos ⟨pos⟩ boundary)).copy, (s.sliceFrom (s.pos ⟨pos⟩ boundary)).copy)
  else none

/-- A text is cut into two where the first has the size that the position counts. -/
theorem splitAt?_eq_some_iff :
    splitAt? s pos = some (before, behind) ↔ s = before ++ behind ∧ before.utf8ByteSize = pos := by
  constructor
  · intro h
    rw [splitAt?] at h
    split at h
    · rename_i boundary
      cases h
      obtain ⟨text, position⟩ := (s.pos ⟨pos⟩ boundary).splits
      exact ⟨text, (congrArg String.Pos.Raw.byteIdx position).symm⟩
    · cases h
  · rintro ⟨text, rfl⟩
    have boundary : String.Pos.Raw.IsValid s ⟨before.utf8ByteSize⟩ :=
      String.Pos.Raw.isValid_iff_exists_append.2 ⟨before, behind, text, rfl⟩
    have cut := (s.pos ⟨before.utf8ByteSize⟩ boundary).splits
    obtain ⟨left, right⟩ := cut.eq ⟨text, rfl⟩
    rw [splitAt?, dif_pos boundary, left, right]

@[simp] theorem splitAt?_append (before behind : String) :
    splitAt? (before ++ behind) before.utf8ByteSize = some (before, behind) :=
  splitAt?_eq_some_iff.2 ⟨rfl, rfl⟩

/-- The text between two positions. -/
def slice? (s : String) (start stop : Nat) : Option String := do
  let (head, _) ← splitAt? s stop
  let (_, middle) ← splitAt? head start
  return middle

theorem slice?_eq_some_iff :
    slice? s start stop = some middle ↔ ∃ before behind, s = before ++ middle ++ behind ∧
      before.utf8ByteSize = start ∧ (before ++ middle).utf8ByteSize = stop := by
  simp only [slice?, Option.bind_eq_bind, Option.bind_eq_some_iff, Prod.exists,
    splitAt?_eq_some_iff, Option.pure_def, Option.some.injEq]
  constructor
  · rintro ⟨_, behind, ⟨rfl, size⟩, before, _, ⟨rfl, first⟩, rfl⟩
    exact ⟨before, behind, rfl, first, size⟩
  · rintro ⟨before, behind, rfl, first, size⟩
    exact ⟨_, behind, ⟨rfl, size⟩, before, _, ⟨rfl, first⟩, rfl⟩

/-- The text up to this size; a text that is no longer stays whole. -/
def truncate? (s : String) (size : Nat) : Option String :=
  if s.utf8ByteSize ≤ size then some s else (splitAt? s size).map Prod.fst

/-- A text that was made longer gets back to what it was. -/
theorem truncate?_append (before behind : String) :
    truncate? (before ++ behind) before.utf8ByteSize = some before := by
  rw [truncate?, splitAt?_append]
  split
  · rename_i short
    have none : behind.utf8ByteSize = 0 := by
      rw [String.utf8ByteSize_append] at short
      omega
    rw [String.utf8ByteSize_eq_zero_iff.1 none, String.append_empty]
  · rfl

/-- The position of the last of these characters that is in the class. -/
def findLastChar? (p : Char → Bool) : List Char → Option Nat
  | [] => none
  | c :: cs =>
    match findLastChar? p cs with
    | some pos => some (c.utf8Size + pos)
    | none => if p c then some 0 else none

/-- The position of the last character that is in the class. -/
def findLast? (p : Char → Bool) (s : String) : Option Nat :=
  findLastChar? p s.toList

section FindLast

variable {p : Char → Bool}

theorem findLastChar?_eq_none {cs : List Char} (others : ∀ c ∈ cs, p c = false) :
    findLastChar? p cs = none := by
  induction cs with
  | nil => rfl
  | cons c cs ih =>
    obtain ⟨first, others⟩ := List.forall_mem_cons.1 others
    rw [findLastChar?, ih others, first]
    rfl

theorem findLast?_eq_none (others : ∀ c ∈ s.toList, p c = false) : findLast? p s = none :=
  findLastChar?_eq_none others

theorem findLastChar?_append {c : Char} {behind : List Char} (found : p c = true)
    (others : ∀ d ∈ behind, p d = false) (before : List Char) :
    findLastChar? p (before ++ c :: behind) = some (String.ofList before).utf8ByteSize := by
  induction before with
  | nil =>
    rw [List.nil_append, findLastChar?, findLastChar?_eq_none others, found]
    rfl
  | cons d before ih =>
    rw [List.cons_append, findLastChar?, ih, String.ofList_cons, String.utf8ByteSize_append,
      String.utf8ByteSize_singleton]

theorem findLast?_append {c : Char} (found : p c = true)
    (others : ∀ d ∈ behind.toList, p d = false) :
    findLast? p (before.push c ++ behind) = some before.utf8ByteSize := by
  rw [findLast?, String.toList_append, String.toList_push, List.append_assoc,
    List.singleton_append, findLastChar?_append found others, String.ofList_toList]

end FindLast

end LispRepl.Text

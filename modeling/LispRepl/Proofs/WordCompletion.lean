import LispRepl.Completion
import LispRepl.Text.Position

/-!
# The word under the cursor

The cursor stands at a byte position of a line. The word before it is found by positions too: the
last delimiter before the cursor is looked for, the word begins behind it, and a delimiter may take
more than one byte. None of these positions is inside a character if the cursor is not, and the word
that they cut out is the one that the characters before the cursor end with.

A word is completed to the names that begin with it. The names are sorted, and each is listed once.

- `Completion.wordStart?`, `Completion.candidatesAt?`: completion by positions, which fails at a
  position that is inside a character or behind the end.
- `Completion.Separated`, `Completion.Plain`: a text behind which a word begins, and a word.
- `Completion.exists_word`: every text ends with a word.
- `Completion.candidatesAt?_word`, `Completion.candidates_word`: both ways to complete a word.
- `Completion.pairwise_sortedWords`, `Completion.mem_matching`: what it is completed to.
- `Completion.word_completed_at_cursor`: the result.
-/

set_option autoImplicit false

namespace LispRepl.Completion

/-! ## Completion by positions -/

/-- The position behind the last delimiter before the cursor. -/
def wordStart? (line : String) (pos : Nat) : Option Nat := do
  let (head, _) ← Text.splitAt? line pos
  match Text.findLast? isDelimiter head with
  | none => return 0
  | some delimiter =>
    let (_, tail) ← Text.splitAt? line delimiter
    return delimiter + (tail.toList.head?.map Char.utf8Size).getD 1

/-- The position where the word before the cursor begins, and what it can be completed to. -/
def candidatesAt? (line : String) (pos : Nat) : Option (Nat × List String) := do
  let start ← wordStart? line pos
  let word ← Text.slice? line start pos
  return (start, if word = "" then [] else matching word.toList)

/-! ## The word before the cursor -/

/-- A word begins behind the text, which is empty or ends with a delimiter. -/
def Separated (front : String) : Prop :=
  front = "" ∨ ∃ (init : String) (c : Char), front = init.push c ∧ isDelimiter c = true

/-- The text holds no delimiter. -/
def Plain (word : String) : Prop :=
  ∀ c ∈ word.toList, isDelimiter c = false

variable {front word : String}

theorem Plain.push (plain : Plain word) {c : Char} (h : isDelimiter c = false) :
    Plain (word.push c) := by
  intro d member
  rw [String.toList_push, List.mem_append, List.mem_singleton] at member
  rcases member with member | rfl
  · exact plain d member
  · exact h

/-- Every text ends with a word. -/
theorem exists_word (head : String) :
    ∃ front word, head = front ++ word ∧ Separated front ∧ Plain word := by
  induction head using String.push_induction with
  | empty => exact ⟨"", "", rfl, .inl rfl, nofun⟩
  | push head c ih =>
    -- A delimiter begins a new word, and any other character goes on with the last one.
    cases delimiter : isDelimiter c with
    | true =>
      have separated : Separated (head.push c) := .inr ⟨head, c, rfl, delimiter⟩
      exact ⟨head.push c, "", String.append_empty.symm, separated, nofun⟩
    | false =>
      obtain ⟨front, word, rfl, separated, plain⟩ := ih
      have text : (front ++ word).push c = front ++ word.push c := by
        simp only [String.push_eq_append, String.append_assoc]
      exact ⟨front, word.push c, text, separated, plain.push delimiter⟩

/-! ## By characters and by positions -/

theorem byteSize_toList (s : String) : byteSize s.toList = s.utf8ByteSize := by
  have size (cs : List Char) : byteSize cs = (String.ofList cs).utf8ByteSize := by
    induction cs with
    | nil => rfl
    | cons c cs ih =>
      rw [String.ofList_cons, String.utf8ByteSize_append, String.utf8ByteSize_singleton, ← ih]
      rfl
  rw [size, String.ofList_toList]

theorem before_append (cs ds : List Char) : before (byteSize cs) (cs ++ ds) = cs := by
  induction cs with
  | nil =>
    cases ds with
    | nil => rfl
    | cons d ds =>
      -- Every character takes at least one byte, so none ends at the first position.
      exact if_pos d.utf8Size_pos
  | cons c cs ih =>
    have size : byteSize (c :: cs) = c.utf8Size + byteSize cs := rfl
    rw [List.cons_append, before, size, if_neg (by omega), Nat.add_sub_cancel_left, ih]

section Word

variable (separated : Separated front) (plain : Plain word) (rest : String)
include separated plain

theorem wordStart?_word :
    wordStart? (front ++ word ++ rest) (front ++ word).utf8ByteSize = some front.utf8ByteSize := by
  rw [wordStart?, Text.splitAt?_append]
  -- The delimiter that is looked for before the cursor is the one that the front ends with.
  rcases separated with rfl | ⟨init, c, rfl, delimiter⟩
  · have nowhere : Text.findLast? isDelimiter ("" ++ word) = none := by
      rw [String.empty_append]
      exact Text.findLast?_eq_none plain
    simp only [nowhere, Option.bind_eq_bind, Option.bind_some]
    rfl
  · have there : Text.findLast? isDelimiter (init.push c ++ word) = some init.utf8ByteSize :=
      Text.findLast?_append delimiter plain
    have tail : init.push c ++ word ++ rest = init ++ (String.singleton c ++ (word ++ rest)) := by
      rw [String.push_eq_append]
      simp only [String.append_assoc]
    have first : (String.singleton c ++ (word ++ rest)).toList.head? = some c := by
      rw [String.toList_append, String.toList_singleton]
      rfl
    simp only [there, Option.bind_eq_bind, Option.bind_some, tail, Text.splitAt?_append, first,
      String.utf8ByteSize_push]
    rfl

/-- A word is completed by positions, wherever it stands in a line and whatever follows it. -/
theorem candidatesAt?_word :
    candidatesAt? (front ++ word ++ rest) (front ++ word).utf8ByteSize =
      some (front.utf8ByteSize, if word = "" then [] else matching word.toList) := by
  have cut : Text.slice? (front ++ word ++ rest) front.utf8ByteSize (front ++ word).utf8ByteSize =
      some word := Text.slice?_eq_some_iff.2 ⟨front, rest, rfl, rfl, rfl⟩
  rw [candidatesAt?, wordStart?_word separated plain]
  simp only [Option.bind_eq_bind, Option.bind_some, cut]
  rfl

theorem lastWord_word : lastWord (front ++ word).toList = word.toList := by
  have inside : ∀ c ∈ word.toList.reverse, (!isDelimiter c) = true := by
    intro c member
    rw [plain c (List.mem_reverse.1 member)]
    rfl
  have outside : front.toList.reverse.takeWhile (fun c => !isDelimiter c) = [] := by
    rcases separated with rfl | ⟨init, c, rfl, delimiter⟩
    · rfl
    · rw [String.toList_push, List.reverse_append, List.reverse_singleton, List.singleton_append,
        List.takeWhile_cons_of_neg (by simp [delimiter])]
  rw [lastWord, String.toList_append, List.reverse_append, List.takeWhile_append_of_pos inside,
    outside, List.append_nil, List.reverse_reverse]

/-- A word is completed by characters in the same way. -/
theorem candidates_word :
    candidates (front ++ word ++ rest) (front ++ word).utf8ByteSize =
      (front.utf8ByteSize, if word = "" then [] else matching word.toList) := by
  have head : before (front ++ word).utf8ByteSize (front ++ word ++ rest).toList =
      (front ++ word).toList := by
    rw [String.toList_append, ← byteSize_toList, before_append]
  simp only [candidates, head, lastWord_word separated plain, byteSize_toList,
    String.toList_eq_nil_iff]
  rw [String.utf8ByteSize_append, Nat.add_sub_cancel]

end Word

/-! ## The names that begin with a word -/

/-- A sorted list is strictly increasing once every word is listed only at its first place. -/
theorem pairwise_eraseDups {words : List String} (sorted : words.Pairwise (· ≤ ·)) :
    words.eraseDups.Pairwise (· < ·) := by
  -- By the number of words: the later copies of the first are gone from the rest.
  induction size : words.length using Nat.strongRecOn generalizing words with
  | ind n ih =>
    cases words with
    | nil => exact List.Pairwise.nil
    | cons w words =>
      obtain ⟨least, sorted⟩ := List.pairwise_cons.1 sorted
      have shorter : (words.filter fun v => !v == w).length < n := by
        have := List.length_filter_le (fun v => !v == w) words
        rw [List.length_cons] at size
        omega
      rw [List.eraseDups_cons, List.pairwise_cons]
      refine ⟨fun v member => ?_, ih _ shorter (sorted.filter _) rfl⟩
      rw [List.mem_eraseDups, List.mem_filter] at member
      obtain ⟨member, other⟩ := member
      refine Decidable.byContradiction fun above => ?_
      have same : v = w := String.le_antisymm (String.not_lt.1 above) (least v member)
      simp [same] at other

theorem pairwise_sortedWords : sortedWords.Pairwise (· < ·) := by
  have sorted : (completionWords.mergeSort fun a b => decide (a ≤ b)).Pairwise
      fun a b => decide (a ≤ b) = true := by
    refine List.pairwise_mergeSort (fun a b c first second => ?_) (fun a b => ?_) completionWords
    · exact decide_eq_true (String.le_trans (of_decide_eq_true first) (of_decide_eq_true second))
    · rw [Bool.or_eq_true, decide_eq_true_iff, decide_eq_true_iff]
      exact String.le_total a b
  exact pairwise_eraseDups (sorted.imp of_decide_eq_true)

theorem mem_completionWords {name : String} :
    name ∈ completionWords ↔
      (∃ form : SpecialForm, form.name = name) ∨ ∃ b : Builtin, b.name = name := by
  simp [completionWords, SpecialForm.mem_all, Builtin.mem_all]

theorem mem_matching {name : String} {cs : List Char} :
    name ∈ matching cs ↔ cs <+: name.toList ∧
      ((∃ form : SpecialForm, form.name = name) ∨ ∃ b : Builtin, b.name = name) := by
  rw [matching, List.mem_filter, sortedWords, List.mem_eraseDups, List.mem_mergeSort,
    mem_completionWords, List.isPrefixOf_iff_prefix, and_comm]

/-! ## The result -/

/-- Where a word begins, the line does, or a delimiter ends there. -/
theorem slice?_of_separated {front : String} (separated : Separated front) (rest : String) :
    front.utf8ByteSize = 0 ∨ ∃ (last : Nat) (c : Char),
      Text.slice? (front ++ rest) last front.utf8ByteSize = some (String.singleton c) ∧
        isDelimiter c = true := by
  rcases separated with rfl | ⟨init, c, rfl, delimiter⟩
  · exact .inl rfl
  · have ended : init ++ String.singleton c = init.push c := String.append_singleton
    have cut : Text.slice? (init.push c ++ rest) init.utf8ByteSize (init.push c).utf8ByteSize =
        some (String.singleton c) := by
      rw [← ended]
      exact Text.slice?_eq_some_iff.2 ⟨init, rest, rfl, rfl, rfl⟩
    exact .inr ⟨init.utf8ByteSize, c, cut, delimiter⟩

/-- The cursor is between two characters of a line or at an end of it. The word before it is found
and completed by positions as it is by characters. It begins at the start of the line or behind a
delimiter, not behind the cursor, and holds no delimiter. It is completed to the special forms and
builtin procedures that begin with it, in strictly increasing order, and not at all if it is empty.
The editor is offered the same. -/
theorem word_completed_at_cursor {line : String} {pos : Nat}
    (boundary : String.Pos.Raw.IsValid line ⟨pos⟩) :
    ∃ start word names,
      candidatesAt? line pos = some (start, names) ∧
      candidates line pos = (start, names) ∧
      String.Pos.Raw.IsValid line ⟨start⟩ ∧
      start ≤ pos ∧
      Text.slice? line start pos = some word ∧
      (∀ c ∈ word.toList, isDelimiter c = false) ∧
      (start = 0 ∨ ∃ (last : Nat) (c : Char),
        Text.slice? line last start = some (String.singleton c) ∧ isDelimiter c = true) ∧
      names.Pairwise (· < ·) ∧
      (∀ name, name ∈ names ↔ word ≠ "" ∧ word.toList <+: name.toList ∧
        ((∃ form : SpecialForm, form.name = name) ∨ ∃ b : Builtin, b.name = name)) ∧
      pairs line pos = (start, names.map fun name => (name, name)) := by
  obtain ⟨head, rest, rfl, cursor⟩ := String.Pos.Raw.isValid_iff_exists_append.1 boundary
  obtain rfl : pos = head.utf8ByteSize := congrArg String.Pos.Raw.byteIdx cursor
  obtain ⟨front, word, rfl, separated, plain⟩ := exists_word head
  have found := candidates_word separated plain rest
  refine ⟨_, word, _, candidatesAt?_word separated plain rest, found, ?_, ?_, ?_, plain, ?_, ?_,
    fun name => ?_, ?_⟩
  · exact String.Pos.Raw.isValid_iff_exists_append.2
      ⟨front, word ++ rest, String.append_assoc, rfl⟩
  · rw [String.utf8ByteSize_append]
    exact Nat.le_add_right _ _
  · exact Text.slice?_eq_some_iff.2 ⟨front, rest, rfl, rfl, rfl⟩
  · rw [String.append_assoc]
    exact slice?_of_separated separated (word ++ rest)
  · split
    · exact List.Pairwise.nil
    · exact pairwise_sortedWords.filter _
  · split
    · rename_i empty
      simp [empty]
    · rename_i some
      rw [mem_matching]
      exact (and_iff_right some).symm
  · rw [pairs, found]

/-- Two characters of a word stand behind a blank of three bytes, and the cursor is inside the word:
what follows it does not count. -/
theorem word_completed_at_cursor_behind_wide_blank :
    String.Pos.Raw.IsValid "λ\u2003nux" ⟨7⟩ ∧
      ∃ names, candidatesAt? "λ\u2003nux" 7 = some (5, names) ∧
        Text.slice? "λ\u2003nux" 5 7 = some "nu" ∧
        "null?" ∈ names ∧ "number?" ∈ names ∧ "not" ∉ names ∧ names.Pairwise (· < ·) := by
  have boundary : String.Pos.Raw.IsValid "λ\u2003nux" ⟨7⟩ := by
    decide
  obtain ⟨start, word, names, byPosition, byCharacter, -, -, cut, -, -, increasing, complete, -⟩ :=
    word_completed_at_cursor boundary
  have first : (candidates "λ\u2003nux" 7).1 = 5 := by
    decide
  obtain rfl : start = 5 := by
    rw [← first, byCharacter]
  have here : Text.slice? "λ\u2003nux" 5 7 = some "nu" :=
    Text.slice?_eq_some_iff.2 ⟨"λ\u2003", "x", by decide, by decide, by decide⟩
  obtain rfl : word = "nu" := Option.some.inj (cut.symm.trans here)
  refine ⟨boundary, names, byPosition, here, ?_, ?_, ?_, increasing⟩
  · exact (complete _).2 ⟨by decide, by decide, .inr ⟨.isNull, rfl⟩⟩
  · exact (complete _).2 ⟨by decide, by decide, .inr ⟨.isNumber, rfl⟩⟩
  · exact fun member => absurd ((complete _).1 member).2.1 (by decide)

end LispRepl.Completion

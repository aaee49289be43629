import LispRepl.Proofs.DatumGrammar
import LispRepl.Proofs.NumberText
import LispRepl.Proofs.TextCutting
import LispRepl.Value.Printer

/-!
# Reading what has been printed

The text of a value that has been read is read again as that value alone, within the same limit on
nesting, unless a string inside it holds a character that is shown by a code; then the escape that
is shown is at fault. Printing changes how a value is written: brackets are round, a quote mark
becomes a list, the tail of a list is written without a point if it is a list itself, and numbers
and constants have one text each. None of this nests deeper than what was read.

- `Value.Readable`, `readable_of_datum`: the values that reading can give.
- `Value.kinds`, `datum_of_readable`: the tokens of a value's text, which are a datum.
- `Value.strings`, `Value.ShowsCode`: where printing loses a value.
- `Value.CutsClean`, `cutsClean_of_readable`: the text is cut into the tokens.
- `readSource_text`: reading the text of a value.
-/

set_option autoImplicit false

namespace LispRepl

variable {n limit : Nat} {t : TokenKind} {ts before : List TokenKind} {v tail : Value}
  {items : List Value}

/-! ## The values that can be read -/

/-- The values that reading can give within `n` levels of nesting. -/
inductive Value.Readable : Nat → Value → Prop where
  | atom {n : Nat} {t : TokenKind} {v : Value} : t.atom? = some v → t.Spelled → Readable (n + 1) v
  | list {n : Nat} {items : List Value} : (∀ v ∈ items, Readable n v) →
    Readable (n + 1) (.list items)
  /-- The tail of a list is never a list. -/
  | dotted {n : Nat} {items : List Value} {tail : Value} {t : TokenKind} : items ≠ [] →
    (∀ v ∈ items, Readable n v) → Readable n tail → t.atom? = some tail →
    Readable (n + 1) (.dotted items tail)

theorem join_of_atom (value : t.atom? = some tail) (items : List Value) :
    Value.join items tail = .dotted items tail := by
  cases t <;> cases value <;> rfl

namespace Value.Readable

/-- What nests less deep can be read within one level more. -/
theorem succ (h : Readable n v) : Readable (n + 1) v := by
  induction h with
  | atom value spelled => exact .atom value spelled
  | list each ih => exact .list ih
  | dotted some each last value ih last_ih => exact .dotted some ih last_ih value

theorem join (some : items ≠ []) (each : ∀ v ∈ items, Readable n v) (last : Readable n tail) :
    Readable (n + 1) (join items tail) := by
  have longer {n : Nat} {rest : List Value} (each : ∀ v ∈ items, Readable (n + 1) v)
      (inner : ∀ v ∈ rest, Readable n v) : ∀ v ∈ items ++ rest, Readable (n + 1) v := by
    intro v member
    rcases List.mem_append.1 member with front | back
    · exact each v front
    · exact (inner v back).succ
  -- What was the tail of a spliced list, or an item, is one level less deep than before.
  cases last with
  | atom value spelled =>
    rw [join_of_atom value]
    exact .dotted some each (.atom value spelled) value
  | list inner => exact .list (longer each inner)
  | dotted _ inner last value =>
    exact .dotted (by simp [some]) (longer each inner) last.succ value

end Value.Readable

/-- A datum of tokens that a text can have is a value that reading can give. -/
theorem readable_of_datum (h : Datum n ts v) (spelled : ∀ t ∈ ts, t.Spelled) : v.Readable n := by
  induction h with
  | @atom n t v value => exact .atom value (spelled t (by simp))
  | @quote n ts v datum ih =>
    -- The symbol stands as deep as the datum, which needs a level itself.
    obtain ⟨m, rfl⟩ := Nat.exists_eq_add_of_lt datum.pos
    refine .list (List.forall_mem_cons.2 ⟨.atom rfl (.word spells_quote), ?_⟩)
    exact List.forall_mem_singleton.2 (ih fun t inside => spelled t (List.mem_cons_of_mem _ inside))
  | list each ih => exact .list (forall_parts ih fun t inside => spelled t (by simp [inside]))
  | dotted some each last ih last_ih =>
    have items := forall_parts ih fun t inside => spelled t (by simp [inside])
    exact .join (by simpa using some) items (last_ih fun t inside => spelled t (by simp [inside]))

/-! ## The tokens of the text -/

mutual

/-- The tokens of the text of a value that has been read. -/
def Value.kinds : Value → List TokenKind
  | .number n => [.number n]
  | .string s => [.string s]
  | .bool b => [.bool b]
  | .nil => [.nil]
  | .symbol s => [.symbol s]
  | .list items => .opening :: Value.itemKinds items ++ [.closing]
  | .dotted items tail => .opening :: Value.itemKinds items ++ .dot :: tail.kinds ++ [.closing]
  | .unspecified | .builtin _ | .lambda .. => []

/-- The tokens of the texts of the items. -/
def Value.itemKinds : List Value → List TokenKind
  | [] => []
  | v :: vs => v.kinds ++ Value.itemKinds vs

end

theorem kinds_of_atom (value : t.atom? = some v) : v.kinds = [t] := by
  cases t <;> cases value <;> rfl

theorem data_of_items (each : ∀ v ∈ items, Datum n v.kinds v) :
    Data n (Value.itemKinds items) items := by
  refine ⟨items.map fun v => (v.kinds, v), ?_, ?_, ?_⟩
  · simpa using each
  · induction items with
    | nil => rfl
    | cons v vs ih =>
      rw [Value.itemKinds, ih fun w member => each w (List.mem_cons_of_mem _ member)]
      rfl
  · rw [List.map_map]
    exact (List.map_id items).symm

/-- The tokens of the text are a datum, and nest no deeper than the value. -/
theorem datum_of_readable (h : v.Readable n) : Datum n v.kinds v := by
  induction h with
  | atom value =>
    rw [kinds_of_atom value]
    exact .atom value
  | list each ih => exact (data_of_items ih).list
  | dotted some each last value ih last_ih =>
    have datum := (data_of_items ih).dotted some last_ih
    rwa [join_of_atom value] at datum

/-! ## The strings of a value -/

mutual

/-- The strings inside a value. -/
def Value.strings : Value → List String
  | .string s => [s]
  | .list items => Value.itemStrings items
  | .dotted items tail => Value.itemStrings items ++ tail.strings
  | .lambda _ _ _ _ body _ => Value.itemStrings body
  | _ => []

/-- The strings inside the items. -/
def Value.itemStrings : List Value → List String
  | [] => []
  | v :: vs => v.strings ++ Value.itemStrings vs

end

/-- Some string inside the value holds a character that is shown by a code. -/
def Value.ShowsCode (v : Value) : Prop :=
  ∃ s ∈ v.strings, ∃ c ∈ s.toList, Text.ShownByCode c

/-- The strings hold no character that is shown by a code. -/
def allPlain (texts : List String) : Bool :=
  texts.all fun s => s.toList.all Text.hasPlainEscape

theorem allPlain_append (first second : List String) :
    allPlain (first ++ second) = (allPlain first && allPlain second) :=
  List.all_append

theorem allPlain_eq_false_iff : allPlain v.strings = false ↔ v.ShowsCode := by
  simp [allPlain, Value.ShowsCode, Text.shownByCode_iff]

/-! ## Cutting the text -/

/-- The text of the value is cut into the tokens of its text wherever a datum may begin, unless
one of its strings is shown with a code. -/
def Value.CutsClean (v : Value) : Prop :=
  ∀ (before : List TokenKind) (s : Lexer), Lexer.Between before s →
    Lexer.Outcome (Lexer.Has (before ++ v.kinds)) (allPlain v.strings) (s.run v.chars)

/-- An atom other than a string is a word. -/
theorem spells_chars (value : t.atom? = some v) (spelled : t.Spelled) :
    (∃ s, v = .string s) ∨ (Spells v.chars t ∧ v.strings = []) := by
  cases t with
  | number n =>
    cases value
    cases spelled with
    | word spells => exact .inr ⟨spells_digits (Rational.inWord_neg_of_literal spells.number), rfl⟩
  | string s =>
    cases value
    exact .inl ⟨s, rfl⟩
  | bool b =>
    cases value
    cases b with
    | true => exact .inr ⟨.of_all (by decide) rfl rfl, rfl⟩
    | false => exact .inr ⟨.of_all (by decide) rfl rfl, rfl⟩
  | nil =>
    cases value
    exact .inr ⟨.of_all (by decide) rfl rfl, rfl⟩
  | symbol name =>
    cases value
    cases spelled with
    | @word cs _ spells =>
      have same : (Value.symbol name).chars = cs := spells.symbol
      exact .inr ⟨same ▸ spells, rfl⟩
  | opening => cases value
  | closing => cases value
  | quote => cases value
  | dot => cases value

theorem cutsClean_of_atom (value : t.atom? = some v) (spelled : t.Spelled) : v.CutsClean := by
  intro before s between
  -- A string is closed by its quote; any other atom is a word that what follows has to end.
  rcases spells_chars value spelled with ⟨text, rfl⟩ | ⟨spells, none⟩
  · have quoted := (Lexer.Has.between between).quoted text.toList
    rw [String.ofList_toList] at quoted
    have plain : allPlain (Value.string text).strings = text.toList.all Text.hasPlainEscape := by
      simp [allPlain, Value.strings]
    rw [plain]
    exact quoted.mono fun _ => .between
  · rw [none, kinds_of_atom value]
    exact between.word spells

/-- Items behind a space each. -/
theorem outcome_spacedChars {s : Lexer} (each : ∀ v ∈ items, v.CutsClean)
    (h : Lexer.Has before s) :
    Lexer.Outcome (Lexer.Has (before ++ Value.itemKinds items)) (allPlain (Value.itemStrings items))
      (s.run (Value.spacedChars items)) := by
  induction items generalizing before s with
  | nil =>
    rw [Value.itemKinds, List.append_nil]
    exact .reads h
  | cons v vs ih =>
    obtain ⟨first, rest⟩ := List.forall_mem_cons.1 each
    have item {next : Lexer} (between : Lexer.Between before next) :=
      (first before next between).append fun _ behind => ih rest behind
    have whole := h.space.append fun _ between => item between
    rw [Value.itemKinds, Value.itemStrings, allPlain_append, ← List.append_assoc]
    exact whole

/-- Items with a space between neighbours. -/
theorem outcome_itemChars {s : Lexer} (each : ∀ v ∈ items, v.CutsClean)
    (h : Lexer.Between before s) :
    Lexer.Outcome (Lexer.Has (before ++ Value.itemKinds items)) (allPlain (Value.itemStrings items))
      (s.run (Value.itemChars items)) := by
  cases items with
  | nil =>
    rw [Value.itemKinds, List.append_nil]
    exact .reads (.between h)
  | cons v vs =>
    obtain ⟨first, rest⟩ := List.forall_mem_cons.1 each
    rw [Value.itemKinds, Value.itemStrings, allPlain_append, ← List.append_assoc]
    exact (first before s h).append fun _ behind => outcome_spacedChars rest behind

theorem cutsClean_list (each : ∀ v ∈ items, v.CutsClean) : (Value.list items).CutsClean := by
  intro before s between
  have text : (Value.list items).chars = ['('] ++ (Value.itemChars items ++ [')']) := rfl
  have tokens : before ++ (Value.list items).kinds =
      before ++ [.opening] ++ Value.itemKinds items ++ [.closing] := by
    simp [Value.kinds]
  have plain : allPlain (Value.list items).strings =
      (true && (allPlain (Value.itemStrings items) && true)) := by
    rw [Bool.and_true, Bool.true_and, Value.strings]
  rw [text, tokens, plain]
  refine (Lexer.Has.between between).opening.append fun _ opened => ?_
  refine (outcome_itemChars each opened).append fun _ behind => ?_
  exact behind.closing.mono fun _ => .between

theorem spells_dot : Spells ['.'] .dot :=
  .of_all (by decide) rfl rfl

theorem cutsClean_dotted (each : ∀ v ∈ items, v.CutsClean) (last : tail.CutsClean) :
    (Value.dotted items tail).CutsClean := by
  intro before s between
  have text : (Value.dotted items tail).chars = ['('] ++ (Value.itemChars items ++
      ([' '] ++ (['.'] ++ ([' '] ++ (tail.chars ++ [')']))))) := by
    have chars : (Value.dotted items tail).chars =
        '(' :: Value.itemChars items ++ [' ', '.', ' '] ++ tail.chars ++ [')'] := rfl
    rw [chars]
    simp only [List.append_assoc, List.cons_append, List.nil_append]
  have tokens : before ++ (Value.dotted items tail).kinds =
      before ++ [.opening] ++ Value.itemKinds items ++ [.dot] ++ tail.kinds ++ [.closing] := by
    simp [Value.kinds]
  have plain : allPlain (Value.dotted items tail).strings =
      (true && (allPlain (Value.itemStrings items) &&
        (true && (true && (true && (allPlain tail.strings && true)))))) := by
    simp [Value.strings, allPlain_append]
  rw [text, tokens, plain]
  -- The pieces from left to right, each beginning where the one before left the lexer.
  refine (Lexer.Has.between between).opening.append fun _ opened => ?_
  refine (outcome_itemChars each opened).append fun _ behind => ?_
  refine behind.space.append fun _ spaced => ?_
  refine (spaced.word spells_dot).append fun _ pointed => ?_
  refine pointed.space.append fun _ spaced => ?_
  refine (last _ _ spaced).append fun _ ended => ?_
  exact ended.closing.mono fun _ => .between

/-- The text of a value that can be read is cut into its tokens. -/
theorem cutsClean_of_readable (h : v.Readable n) : v.CutsClean := by
  induction h with
  | atom value spelled => exact cutsClean_of_atom value spelled
  | list each ih => exact cutsClean_list ih
  | dotted some each last value ih last_ih => exact cutsClean_dotted ih last_ih

/-! ## Reading the text -/

theorem readSource_of_readable (h : v.Readable limit) :
    (¬ v.ShowsCode → readSource limit v.text = .ok [v]) ∧
      (v.ShowsCode →
        ∃ d, (d = '0' ∨ d = 'u') ∧ readSource limit v.text = .error (.lex (.invalidEscape d))) := by
  have clean := cutsClean_of_readable h [] Lexer.start Lexer.between_start
  have text : tokenize v.text = Lexer.start.run v.chars >>= Lexer.finish := by
    rw [tokenize, tokenizeChars, Value.text, String.toList_ofList]
  generalize Lexer.start.run v.chars = run at clean text
  generalize shown : allPlain v.strings = plain at clean
  -- The text is cut as a whole exactly if no string is shown with a code.
  cases clean with
  | reads has =>
    have none : ¬ v.ShowsCode := by
      intro code
      rw [allPlain_eq_false_iff.2 code] at shown
      cases shown
    obtain ⟨tokens, finish, same⟩ := has.finish
    have data : Data limit (tokens.map Token.kind) [v] := by
      rw [same]
      exact (Data.nil limit).snoc (datum_of_readable h)
    refine ⟨fun _ => readSource_iff_data.2 ⟨tokens, ?_, data⟩, fun code => absurd code none⟩
    rw [text]
    exact finish
  | faults escape =>
    refine ⟨fun none => absurd (allPlain_eq_false_iff.1 shown) none, fun _ => ⟨_, escape, ?_⟩⟩
    rw [readSource, text]
    rfl

/-- The text of a value that has been read is read as the value alone, within the same limit,
unless a string inside it holds a character that is shown by a code. Then reading fails at the
escape. -/
theorem readSource_text {source : String} {es : List Value} (h : readSource limit source = .ok es)
    (member : v ∈ es) :
    (¬ v.ShowsCode → readSource limit v.text = .ok [v]) ∧
      (v.ShowsCode →
        ∃ d, (d = '0' ∨ d = 'u') ∧ readSource limit v.text = .error (.lex (.invalidEscape d))) := by
  obtain ⟨ts, datum, spelled⟩ := datum_of_readSource h member
  exact readSource_of_readable (readable_of_datum datum spelled)

/-- A tail that is a list, a quote mark, an escape and a fraction are read again; a string with a
soft hyphen is not. -/
theorem readSource_text_respelled :
    ∃ v w, readSource 4 "[a . ('\"x\\n\" -6/4)] \"\u00ad\"" = .ok [v, w] ∧
      v.text = "(a (quote \"x\\n\") -3/2)" ∧ readSource 4 v.text = .ok [v] ∧
      w.text = "\"\\u\x7bad\x7d\"" ∧
      ∃ d, (d = '0' ∨ d = 'u') ∧ readSource 4 w.text = .error (.lex (.invalidEscape d)) := by
  have read : readSource 4 "[a . ('\"x\\n\" -6/4)] \"\u00ad\"" = .ok
      [.list [.symbol "a", .list [.symbol "quote", .string "x\n"],
        .number ⟨-3, 2, by decide, by decide, by decide, by decide⟩], .string "\u00ad"] := rfl
  refine ⟨_, _, read, ?_, (readSource_text read (by simp)).1 ?_, rfl,
    (readSource_text read (by simp)).2 ?_⟩
  · rw [← String.toList_inj]
    decide
  · rw [← allPlain_eq_false_iff]
    decide
  · rw [← allPlain_eq_false_iff]
    decide

end LispRepl

import LispRepl.Proofs.StepFold
import LispRepl.Value.Parser

/-!
# What one token does

A token that is no error does one of a few things to the parser, and the things are listed once,
with what each needs, so that a fact about the parser is a case analysis of this list. A text is
readable when it can be cut into tokens, the parser gets through them, and nothing is open then.

- `Parser.Action`, `Parser.action_of_step`: what a token that is no error can do.
- `Parser.atRest`, `Parser.finish_eq_ok`: a parser with nothing open.
- `readSource_eq_ok`: the stages of reading a text.
-/

set_option autoImplicit false

namespace LispRepl

/-- The value of a token that is a datum by itself. -/
def TokenKind.atom? : TokenKind → Option Value
  | .number n => some (.number n)
  | .string s => some (.string s)
  | .bool b => some (.bool b)
  | .nil => some .nil
  | .symbol s => some (.symbol s)
  | .opening | .closing | .quote | .dot => none

namespace Parser

/-- What a token does to a parser that takes it. -/
inductive Action (limit : Nat) (p : Parser) : TokenKind → Parser → Prop where
  /-- The bracket behind the tail of a list. -/
  | closeTail {items : List Value} {tail : Value} : p.closing = some (items, tail) →
    Action limit p .closing (complete p.done (.join items.reverse tail) p.stack)
  | closeList {items : List Value} {outer : List Frame} : p.closing = none →
    p.stack = .items items :: outer →
    Action limit p .closing (complete p.done (.list items.reverse) outer)
  | dot {v : Value} {items : List Value} {outer : List Frame} : p.closing = none →
    p.stack = .items (v :: items) :: outer → p.stack.length < limit →
    Action limit p .dot { p with stack := .tail (v :: items) :: outer }
  | opening : p.closing = none → p.stack.length < limit →
    Action limit p .opening { p with stack := .items [] :: p.stack }
  | quote : p.closing = none → p.stack.length + 1 < limit →
    Action limit p .quote { p with stack := .quote :: p.stack }
  | atom {t : TokenKind} {v : Value} : p.closing = none → p.stack.length < limit →
    t.atom? = some v → Action limit p t (complete p.done v p.stack)

variable {limit : Nat} {p q : Parser} {t : TokenKind}

theorem action_of_begin (free : p.closing = none) (h : p.begin limit t = .ok q) :
    Action limit p t q := by
  simp only [begin] at h
  split at h
  · cases h
  · rename_i room
    have below : p.stack.length < limit := Nat.lt_of_not_le room
    cases t with
    | opening =>
      cases h
      exact .opening free below
    | closing => cases h
    | dot => cases h
    | quote =>
      dsimp only at h
      split at h
      · cases h
      · rename_i deeper
        cases h
        exact .quote free (Nat.lt_of_not_le deeper)
    | number n =>
      cases h
      exact .atom free below rfl
    | string s =>
      cases h
      exact .atom free below rfl
    | bool b =>
      cases h
      exact .atom free below rfl
    | nil =>
      cases h
      exact .atom free below rfl
    | symbol s =>
      cases h
      exact .atom free below rfl

theorem action_of_step (h : p.step limit t = .ok q) : Action limit p t q := by
  obtain ⟨stack, closing, done⟩ := p
  cases closing with
  | some pair =>
    simp only [step] at h
    split at h
    · rename_i closes
      cases h
      rw [closes]
      exact .closeTail rfl
    · cases h
  | none =>
    simp only [step] at h
    -- Inside a list: its bracket, a point with no item before it, and one with an item.
    split at h
    · cases h
      exact .closeList rfl rfl
    · cases h
    · split at h
      · cases h
      · rename_i room
        cases h
        exact .dot rfl rfl (Nat.lt_of_not_le room)
    · exact action_of_begin rfl h

theorem run_cons (limit : Nat) (p : Parser) (t : TokenKind) (ts : List TokenKind) :
    p.run limit (t :: ts) = p.step limit t >>= fun next => next.run limit ts :=
  List.foldlM_cons

theorem run_append (limit : Nat) (p : Parser) (first second : List TokenKind) :
    p.run limit (first ++ second) = p.run limit first >>= fun next => next.run limit second :=
  List.foldlM_append

/-- Nothing is open. -/
def atRest (p : Parser) : Prop :=
  p.closing = none ∧ p.stack = []

theorem finish_eq_ok {p : Parser} {es : List Value} :
    p.finish = .ok es ↔ p.atRest ∧ p.done.reverse = es := by
  obtain ⟨stack, closing, done⟩ := p
  constructor
  · intro h
    cases closing with
    | some pair => cases h
    | none =>
      cases stack with
      | cons frame outer => cases h
      | nil =>
        cases h
        exact ⟨⟨rfl, rfl⟩, rfl⟩
  · rintro ⟨⟨rfl, rfl⟩, rfl⟩
    rfl

end Parser

theorem readSource_eq_ok {limit : Nat} {source : String} {es : List Value} :
    readSource limit source = .ok es ↔
      ∃ tokens p, tokenize source = .ok tokens ∧
        Parser.start.run limit (tokens.map Token.kind) = .ok p ∧ p.finish = .ok es := by
  rw [readSource]
  constructor
  · intro h
    cases cut : tokenize source with
    | error fault =>
      rw [cut] at h
      cases h
    | ok tokens =>
      rw [cut] at h
      obtain ⟨p, run, finish⟩ := bind_eq_ok.1 h
      exact ⟨tokens, p, rfl, run, finish⟩
  · rintro ⟨tokens, p, cut, run, finish⟩
    rw [cut]
    exact bind_eq_ok.2 ⟨p, run, finish⟩

end LispRepl

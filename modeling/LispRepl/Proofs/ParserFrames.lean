import LispRepl.Proofs.ParserStep
import LispRepl.Reader
import Mathlib.Algebra.Ring.Nat

/-!
# Open frames and open brackets

The judgement on a text counts brackets, while the parser keeps a stack of the lists and quotes
that are open. Where the parser gets through some tokens without an error the two agree: a bracket
is open for each list on the stack, and for a list whose tail has been read; and a quote mark waits
for its datum exactly where it is the last token.

What the parser does with a token does not depend on the data it has read outside all frames, so
that the tokens behind a whole number of data are read as they would be alone.

- `Parser.brackets`, `Parser.openBrackets_of_run`: the brackets open behind a run.
- `Parser.awaitsDatum`, `Parser.awaitsDatum_of_run`: a quote mark without a datum.
- `Parser.behind`, `Parser.run_behind`, `Parser.finish_behind`: a run behind other data.
-/

set_option autoImplicit false

namespace LispRepl

/-- How many brackets the frame stands behind. -/
def Frame.brackets : Frame → Nat
  | .quote => 0
  | .items _ => 1
  | .tail _ => 1

namespace Parser

variable {limit : Nat} {p q : Parser} {t : TokenKind}

/-! ## Brackets -/

/-- The brackets that are open. -/
def brackets (p : Parser) : Nat :=
  (p.stack.map Frame.brackets).sum + p.closing.isSome.toNat

/-- A datum closes no bracket; the quotes around it end with it. -/
theorem brackets_complete (done : List Value) (v : Value) (stack : List Frame) :
    (complete done v stack).brackets = (stack.map Frame.brackets).sum := by
  induction stack generalizing v with
  | nil => rfl
  | cons frame outer ih =>
    cases frame with
    | quote =>
      rw [complete, ih, List.map_cons, List.sum_cons, Frame.brackets, Nat.zero_add]
    | items items => rfl
    | tail items =>
      rw [complete, brackets, List.map_cons, List.sum_cons, Frame.brackets, Nat.add_comm]
      rfl

theorem brackets_le_length (stack : List Frame) :
    (stack.map Frame.brackets).sum ≤ stack.length := by
  induction stack with
  | nil => exact Nat.le_refl 0
  | cons frame outer ih =>
    rw [List.map_cons, List.sum_cons, List.length_cons]
    cases frame <;> simp only [Frame.brackets] <;> omega

theorem brackets_of_free (free : p.closing = none) :
    p.brackets = (p.stack.map Frame.brackets).sum := by
  rw [brackets, free]
  rfl

theorem brackets_push (p : Parser) (frame : Frame) :
    ({ p with stack := frame :: p.stack } : Parser).brackets = frame.brackets + p.brackets := by
  rw [brackets, brackets, List.map_cons, List.sum_cons, Nat.add_assoc]

/-- No token but a bracket changes how many are open. -/
theorem openBrackets_cons (opens : t ≠ .opening) (closes : t ≠ .closing) (depth : Nat)
    (ts : List TokenKind) : openBrackets limit depth (t :: ts) = openBrackets limit depth ts := by
  cases t with
  | opening => exact absurd rfl opens
  | closing => exact absurd rfl closes
  | _ => cases depth <;> rfl

/-- The judgement counts the brackets of the parser, and finds them within the limit because the
frames are. -/
theorem openBrackets_of_step (h : p.step limit t = .ok q) (ts : List TokenKind) :
    openBrackets limit p.brackets (t :: ts) = openBrackets limit q.brackets ts := by
  cases action_of_step h with
  | @closeTail items tail closing =>
    have one : p.brackets = (complete p.done (.join items.reverse tail) p.stack).brackets + 1 := by
      rw [brackets_complete, brackets, closing]
      rfl
    rw [one, openBrackets]
  | @closeList items outer closing stack =>
    have one : p.brackets = (complete p.done (.list items.reverse) outer).brackets + 1 := by
      rw [brackets_complete, brackets_of_free closing, stack, List.map_cons, List.sum_cons,
        Frame.brackets, Nat.add_comm]
    rw [one, openBrackets]
  | @dot v items outer closing stack =>
    have same :
        p.brackets = ({ p with stack := .tail (v :: items) :: outer } : Parser).brackets := by
      rw [brackets, brackets, stack]
      rfl
    rw [← same]
    exact openBrackets_cons (fun same => by cases same) (fun same => by cases same) _ ts
  | opening closing room =>
    -- The stack holds a frame for each bracket, so that its height bounds their number.
    have few : p.brackets < limit := by
      rw [brackets_of_free closing]
      exact Nat.lt_of_le_of_lt (brackets_le_length p.stack) room
    rw [brackets_push, Frame.brackets, Nat.add_comm, openBrackets, if_neg (Nat.not_le_of_lt few)]
  | quote =>
    rw [brackets_push, Frame.brackets, Nat.zero_add]
    exact openBrackets_cons (fun same => by cases same) (fun same => by cases same) _ ts
  | @atom _ v closing room value =>
    rw [brackets_complete, ← brackets_of_free closing]
    refine openBrackets_cons ?_ ?_ _ ts
    · intro opening
      rw [opening] at value
      cases value
    · intro closing
      rw [closing] at value
      cases value

/-- Where the parser gets through some tokens, the judgement finds the brackets that are open on
its stack. -/
theorem openBrackets_of_run {ts : List TokenKind} (h : p.run limit ts = .ok q) :
    openBrackets limit p.brackets ts = .ok q.brackets := by
  induction ts generalizing p with
  | nil =>
    cases h
    rw [openBrackets]
  | cons t ts ih =>
    rw [run_cons] at h
    obtain ⟨next, first, rest⟩ := bind_eq_ok.1 h
    rw [openBrackets_of_step first, ih rest]

/-! ## Quote marks -/

/-- A quote mark waits for its datum. -/
def awaitsDatum (p : Parser) : Bool :=
  match p.closing, p.stack with
  | none, .quote :: _ => true
  | _, _ => false

theorem awaitsDatum_complete (done : List Value) (v : Value) (stack : List Frame) :
    (complete done v stack).awaitsDatum = false := by
  induction stack generalizing v with
  | nil => rfl
  | cons frame outer ih =>
    cases frame with
    | quote => exact ih _
    | items items => rfl
    | tail items => rfl

/-- Behind a token, a quote mark waits for its datum exactly if it is the token. -/
theorem awaitsDatum_of_step (h : p.step limit t = .ok q) :
    q.awaitsDatum = (t == .quote) := by
  cases action_of_step h with
  | closeTail => exact awaitsDatum_complete _ _ _
  | closeList => exact awaitsDatum_complete _ _ _
  | dot closing => simp only [awaitsDatum, closing]; rfl
  | opening closing => simp only [awaitsDatum, closing]; rfl
  | quote closing => simp only [awaitsDatum, closing]; rfl
  | atom closing room value =>
    rw [awaitsDatum_complete, eq_comm, beq_eq_false_iff_ne]
    intro quote
    rw [quote] at value
    cases value

theorem awaitsDatum_of_run {ts : List TokenKind} (h : p.run limit ts = .ok q)
    (free : p.awaitsDatum = false) : q.awaitsDatum = (ts.getLast? == some .quote) := by
  -- The last token decides alone, so no induction is needed.
  rcases List.eq_nil_or_concat ts with rfl | ⟨first, last, rfl⟩
  · cases h
    exact free
  · rw [List.concat_eq_append, run_append] at h
    obtain ⟨mid, -, step⟩ := bind_eq_ok.1 h
    rw [run_cons] at step
    obtain ⟨next, step, ends⟩ := bind_eq_ok.1 step
    cases ends
    rw [awaitsDatum_of_step step, List.concat_eq_append, List.getLast?_concat]
    rfl

/-- Nothing is open exactly if no bracket is and no quote mark waits for its datum. -/
theorem atRest_iff : p.atRest ↔ p.brackets = 0 ∧ p.awaitsDatum = false := by
  obtain ⟨stack, closing, done⟩ := p
  constructor
  · rintro ⟨rfl, rfl⟩
    exact ⟨rfl, rfl⟩
  · rintro ⟨none, free⟩
    cases closing with
    | some pair => simp [brackets] at none
    | none =>
      refine ⟨rfl, ?_⟩
      cases stack with
      | nil => rfl
      | cons frame outer =>
        cases frame with
        | quote => cases free
        | items items => simp [brackets, Frame.brackets] at none
        | tail items => simp [brackets, Frame.brackets] at none

/-! ## Data read before -/

/-- The parser with other data read before. -/
def behind (before : List Value) (p : Parser) : Parser :=
  { p with done := p.done ++ before }

theorem complete_behind (before done : List Value) (v : Value) (stack : List Frame) :
    complete (done ++ before) v stack = (complete done v stack).behind before := by
  induction stack generalizing v with
  | nil => rfl
  | cons frame outer ih =>
    cases frame with
    | quote => exact ih _
    | items items => rfl
    | tail items => rfl

theorem begin_behind (before : List Value) (p : Parser) (t : TokenKind) :
    (p.behind before).begin limit t = (p.begin limit t).map (behind before) := by
  have same : (p.behind before).stack = p.stack := rfl
  by_cases deep : limit ≤ p.stack.length
  · simp only [begin, same, if_pos deep]
    rfl
  · simp only [begin, same, if_neg deep]
    cases t with
    | opening => rfl
    | closing => rfl
    | dot => rfl
    | quote =>
      by_cases deeper : limit ≤ p.stack.length + 1
      · simp only [if_pos deeper]
        rfl
      · simp only [if_neg deeper]
        rfl
    | _ => exact congrArg Except.ok (complete_behind before p.done _ p.stack)

theorem step_behind (before : List Value) (p : Parser) (t : TokenKind) :
    (p.behind before).step limit t = (p.step limit t).map (behind before) := by
  have other := @begin_behind limit before p t
  obtain ⟨stack, closing, done⟩ := p
  cases closing with
  | some pair =>
    simp only [step, behind]
    split
    · exact congrArg Except.ok (complete_behind before done _ stack)
    · rfl
  | none =>
    cases stack with
    | nil => exact other
    | cons frame outer =>
      cases frame with
      | quote => exact other
      | tail items => exact other
      | items items =>
        -- Only inside a list do a closing bracket and a point mean something of their own.
        cases t with
        | closing => exact congrArg Except.ok (complete_behind before done _ outer)
        | dot =>
          cases items with
          | nil => rfl
          | cons v items =>
            have dot (data : List Value) :
                step limit ⟨.items (v :: items) :: outer, none, data⟩ .dot =
                  if limit ≤ outer.length + 1 then .error (.tooDeep limit)
                  else .ok ⟨.tail (v :: items) :: outer, none, data⟩ := rfl
            rw [behind, dot, dot]
            split <;> rfl
        | _ => exact other

theorem run_behind (before : List Value) (ts : List TokenKind) (p : Parser) :
    (p.behind before).run limit ts = (p.run limit ts).map (behind before) := by
  induction ts generalizing p with
  | nil => rfl
  | cons t ts ih =>
    rw [run_cons, run_cons, step_behind]
    cases p.step limit t with
    | error e => rfl
    | ok next => exact ih next

theorem finish_behind (before : List Value) (p : Parser) :
    (p.behind before).finish = p.finish.map (before.reverse ++ ·) := by
  obtain ⟨stack, closing, done⟩ := p
  cases closing with
  | some pair => rfl
  | none =>
    cases stack with
    | nil => simp [behind, finish, Except.map]
    | cons frame outer => rfl

end Parser

end LispRepl

import LispRepl.Proofs.BuiltinResults
import LispRepl.Proofs.DatumGrammar
import LispRepl.Proofs.EvaluationCongruence
import LispRepl.Proofs.ReplyHistory
import LispRepl.Proofs.ValueInvariant

/-!
# How deep a printed value nests

The limit bounds the nesting of what is read and the levels of evaluation, so that neither the
parser nor the evaluator recurses any deeper. The printer recurses on values, and these are not
bounded by it: a procedure such as `list` puts values into a new one, a definition keeps the result,
and the next line starts from there. Each line is as shallow as the limit wants it, and the value
grows from line to line.

Three levels are enough for such a line, a definition that has a call in it. With fewer, no
expression but the outermost has parts, so that nothing but atoms and the empty list is ever bound,
and what is printed stays within the limit.

- `Value.nesting`, `nesting_le_of_readSource`: what is read stays within the limit.
- `Value.Bare`, `Value.Shallow`: the values that are bound and read with two levels.
- `stays_eval`, `LispWorker.bare_run`: a session with two levels.
- `deepening`, `LispWorker.deepened_run`: a session with three levels.
- `PrintsAlong`, `printed_nesting_bounded_iff`: the result.
-/

set_option autoImplicit false

namespace LispRepl

/-! ## Nesting -/

namespace Value

mutual

/-- How many lists stand inside one another in the text of the value. -/
def nesting : Value → Nat
  | .list items => itemNesting items + 1
  | .dotted items tail => max (itemNesting items) tail.nesting + 1
  | _ => 0

/-- The greatest nesting of the items. -/
def itemNesting : List Value → Nat
  | [] => 0
  | v :: vs => max v.nesting (itemNesting vs)

end

variable {items : List Value} {tail v : Value} {n : Nat}

theorem itemNesting_le_iff : itemNesting items ≤ n ↔ ∀ v ∈ items, v.nesting ≤ n := by
  induction items with
  | nil => simp [itemNesting]
  | cons v vs ih => rw [itemNesting, Nat.max_le, ih, List.forall_mem_cons]

theorem nesting_list_le_iff : (Value.list items).nesting ≤ n + 1 ↔ ∀ v ∈ items, v.nesting ≤ n := by
  rw [nesting, Nat.add_le_add_iff_right, itemNesting_le_iff]

theorem nesting_dotted_le_iff :
    (Value.dotted items tail).nesting ≤ n + 1 ↔ (∀ v ∈ items, v.nesting ≤ n) ∧ tail.nesting ≤ n := by
  rw [nesting, Nat.add_le_add_iff_right, Nat.max_le, itemNesting_le_iff]

/-- A tail that is spliced in nests no deeper than it did by itself. -/
theorem nesting_join_le (each : ∀ v ∈ items, v.nesting ≤ n) (last : tail.nesting ≤ n) :
    (join items tail).nesting ≤ n + 1 := by
  cases tail with
  | list rest =>
    have inside : ∀ v ∈ rest, v.nesting ≤ n :=
      nesting_list_le_iff.1 (Nat.le_succ_of_le last)
    exact nesting_list_le_iff.2 (List.forall_mem_append.2 ⟨each, inside⟩)
  | dotted rest tail =>
    obtain ⟨inside, behind⟩ := nesting_dotted_le_iff.1 (Nat.le_succ_of_le last)
    exact nesting_dotted_le_iff.2 ⟨List.forall_mem_append.2 ⟨each, inside⟩, behind⟩
  | _ => exact nesting_dotted_le_iff.2 ⟨each, last⟩

theorem nesting_of_atom {t : TokenKind} (value : t.atom? = some v) : v.nesting = 0 := by
  cases t <;> cases value <;> rfl

end Value

/-- A datum nests no deeper than the levels that it has. -/
theorem nesting_le_of_datum {n : Nat} {ts : List TokenKind} {v : Value} (h : Datum n ts v) :
    v.nesting ≤ n := by
  induction h with
  | atom value =>
    rw [Value.nesting_of_atom value]
    exact Nat.zero_le _
  | quote datum ih =>
    refine Value.nesting_list_le_iff.2 (List.forall_mem_cons.2 ⟨Nat.zero_le _, ?_⟩)
    exact List.forall_mem_singleton.2 ih
  | list each ih => exact Value.nesting_list_le_iff.2 (List.forall_mem_map.2 ih)
  | dotted some each datum ih last => exact Value.nesting_join_le (List.forall_mem_map.2 ih) last

theorem nesting_le_of_readSource {limit : Nat} {source : String} {es : List Value}
    (h : readSource limit source = .ok es) : ∀ e ∈ es, e.nesting ≤ limit := by
  intro e member
  obtain ⟨ts, datum, -⟩ := datum_of_readSource h member
  exact nesting_le_of_datum datum

/-! ## Two levels -/

namespace Value

/-- An atom or the empty list; a lambda is neither. -/
def Bare : Value → Prop
  | .list items => items = []
  | .dotted .. | .lambda .. => False
  | _ => True

/-- What can be read with two levels: a bare value, or a list of such. -/
inductive Shallow : Value → Prop where
  | bare {v : Value} : v.Bare → Shallow v
  | list {items : List Value} : (∀ v ∈ items, v.Bare) → Shallow (.list items)
  | dotted (items : List Value) (tail : Value) : Shallow (.dotted items tail)

theorem Bare.nesting_le {v : Value} (bare : v.Bare) : v.nesting ≤ 1 := by
  cases v with
  | list items =>
    cases bare
    exact Nat.le_refl 1
  | dotted => exact bare.elim
  | lambda => exact bare.elim
  | _ => exact Nat.zero_le 1

theorem bare_of_atom {t : TokenKind} {v : Value} (value : t.atom? = some v) : v.Bare := by
  cases t <;> cases value <;> trivial

theorem bare_of_datum {ts : List TokenKind} {v : Value} (h : Datum 1 ts v) : v.Bare := by
  cases h with
  | atom value => exact bare_of_atom value
  | quote datum => exact absurd datum.pos (Nat.lt_irrefl 0)
  | @list _ parts each =>
    cases parts with
    | nil => rfl
    | cons p parts => exact absurd (each p List.mem_cons_self).pos (Nat.lt_irrefl 0)
  | dotted some each datum => exact absurd datum.pos (Nat.lt_irrefl 0)

theorem shallow_of_datum {ts : List TokenKind} {v : Value} (h : Datum 2 ts v) : v.Shallow := by
  cases h with
  | atom value => exact .bare (bare_of_atom value)
  | quote datum =>
    exact .list (List.forall_mem_cons.2 ⟨trivial, List.forall_mem_singleton.2 (bare_of_datum datum)⟩)
  | list each => exact .list (List.forall_mem_map.2 fun p part => bare_of_datum (each p part))
  | @dotted _ parts _ tail some each datum =>
    have items : ∀ v ∈ parts.map Prod.snd, v.Bare :=
      List.forall_mem_map.2 fun p part => bare_of_datum (each p part)
    -- The tail is spliced in if it is a list, which is then empty.
    have last := bare_of_datum datum
    cases tail with
    | list rest =>
      cases last
      rw [join, List.append_nil]
      exact .list items
    | dotted => exact last.elim
    | _ => exact .dotted _ _

end Value

open Value (Bare Shallow)
open Eval

section TwoLevels

variable {α : Type} {Q : Value → Prop} {R S : α → Prop} {m : Eval α}

theorem Eval.Keeps.mono (h : Keeps Q R m) (weaker : ∀ a, R a → S a) : Keeps Q S m := by
  intro st every
  obtain ⟨next, ends⟩ := h st every
  refine ⟨next, ?_⟩
  cases result : (m st).1 with
  | error e =>
    rw [result] at ends
    exact ends
  | ok a =>
    rw [result] at ends
    exact weaker a ends

/-- The value nests no deeper than two levels. -/
def Value.Low (v : Value) : Prop :=
  v.nesting ≤ 2

theorem Value.Bare.low {v : Value} (bare : v.Bare) : v.Low :=
  Nat.le_succ_of_le bare.nesting_le

/-- A bare expression has a bare value, if nothing else is bound. -/
theorem keeps_bare_eval (limit levels : Nat) : KeepsCode Bare (eval limit levels) := by
  intro e scope bare
  cases levels with
  | zero => exact .fail trivial
  | succ levels =>
    rw [eval_succ]
    cases e with
    | symbol name => exact keeps_lookup scope bare
    | list items =>
      cases bare
      exact .pure rfl
    | dotted => exact bare.elim
    | lambda => exact bare.elim
    | _ => exact .pure trivial

theorem low_cons {head tail : Value} (first : head.Bare) (last : tail.Bare) :
    (Value.cons head tail).Low := by
  have single : ∀ v ∈ [head], v.nesting ≤ 1 := List.forall_mem_singleton.2 first.nesting_le
  cases tail with
  | list items =>
    cases last
    exact Value.nesting_list_le_iff.2 single
  | nil => exact Value.nesting_list_le_iff.2 single
  | dotted => exact last.elim
  | _ => exact Value.nesting_dotted_le_iff.2 ⟨single, last.nesting_le⟩

/-- A bare list is empty, and has no part to take. -/
theorem car_ne_ok {v part : Value} (bare : v.Bare) : v.car ≠ .ok part := by
  cases v with
  | list items =>
    cases bare
    nofun
  | dotted => exact bare.elim
  | _ => nofun

theorem cdr_ne_ok {v part : Value} (bare : v.Bare) : v.cdr ≠ .ok part := by
  cases v with
  | list items =>
    cases bare
    nofun
  | dotted => exact bare.elim
  | _ => nofun

/-- A builtin procedure adds one level at most to bare arguments. -/
theorem low_of_apply {b : Builtin} {args : List Value} {v : Value} (bare : ∀ a ∈ args, a.Bare)
    (h : b.apply args = .ok v) : v.Low := by
  cases gives_of_apply h with
  | number | bool => exact Nat.zero_le 2
  | list => exact Value.nesting_list_le_iff.2 fun a member => (bare a member).nesting_le
  | cons two =>
    subst two
    obtain ⟨first, last⟩ := List.forall_mem_cons.1 bare
    exact low_cons first (List.forall_mem_singleton.1 last)
  | car one part =>
    subst one
    exact absurd part (car_ne_ok (List.forall_mem_singleton.1 bare))
  | cdr one part =>
    subst one
    exact absurd part (cdr_ne_ok (List.forall_mem_singleton.1 bare))

theorem keeps_low_call {below : Evaluation} {procedure : Value} {args : List Value}
    (bare : procedure.Bare) (each : ∀ a ∈ args, a.Bare) :
    Keeps Bare Value.Low (call below procedure args) := by
  cases procedure with
  | builtin b =>
    refine .ofResult ?_
    cases result : b.apply args with
    | error e => exact tells_of_apply_error each result
    | ok v => exact low_of_apply each result
  | lambda => exact bare.elim
  | _ => exact .fail ⟨_, bare, rfl⟩

/-- A procedure may be made, but it is no bare value and cannot be bound. -/
theorem keeps_low_makeLambda {params : Value} {body : List Value} (scope : ScopeId)
    (bare : params.Bare) : Keeps Bare Value.Low (makeLambda none params body scope) := by
  have named : Ends Bare (fun _ => True) (parameters params) := by
    cases params with
    | list items =>
      cases bare
      trivial
    | nil => trivial
    | symbol name => trivial
    | dotted => exact bare.elim
    | lambda => exact bare.elim
    | _ => exact ⟨_, bare, rfl⟩
  rw [makeLambda]
  split
  · exact .fail trivial
  · refine .bind (.ofResult named) fun p _ => ?_
    exact .bind keeps_freshId fun id _ => .pure (Nat.zero_le 2)

section Forms

variable {ev below : Evaluation} (hev : KeepsCode Bare ev) {args : List Value}
  (bare : ∀ a ∈ args, a.Bare) (scope : ScopeId)

include hev bare

theorem keeps_bare_evalIf : Keeps Bare Bare (evalIf ev args scope) := by
  simp only [evalIf]
  split
  · refine .bind (hev _ scope (bare _ (by simp))) fun v _ => ?_
    split
    · exact hev _ scope (bare _ (by simp))
    · exact .pure trivial
  · refine .bind (hev _ scope (bare _ (by simp))) fun v _ => ?_
    split
    · exact hev _ scope (bare _ (by simp))
    · exact hev _ scope (bare _ (by simp))
  · exact .fail trivial

/-- Only a name can be defined, because a signature is a list. -/
theorem keeps_bare_evalDefine : Keeps Bare Bare (evalDefine ev args scope) := by
  simp only [evalDefine]
  split
  · rename_i name e
    refine .bind (hev e scope (bare e (by simp))) fun v value => ?_
    exact .bind (keeps_define scope name value) fun _ _ => .pure trivial
  · exact .fail trivial
  · exact absurd (bare _ List.mem_cons_self) (List.cons_ne_nil _ _)
  · exact (bare _ List.mem_cons_self).elim
  · exact (bare _ List.mem_cons_self).elim
  · exact .fail trivial

theorem keeps_bare_evalLet : Keeps Bare Bare (evalLet ev args scope) := by
  simp only [evalLet]
  split
  · rename_i bindings body
    split
    · exact .fail trivial
    · have empty : bindings = [] := bare (.list bindings) List.mem_cons_self
      subst empty
      refine .bind (keeps_enclose scope (List.forall_mem_nil _)) fun inner _ => ?_
      refine .bind (.pure (R := fun _ => True) trivial) fun _ _ => ?_
      exact keeps_evalBody hev inner trivial fun e member => bare e (List.mem_cons_of_mem _ member)
  · exact .fail trivial

/-- The value of a form whose parts are bare has one list around bare values at most. -/
theorem keeps_low_evalForm (form : SpecialForm) :
    Keeps Bare Value.Low (evalForm ev below form args scope) := by
  have low : ∀ v : Value, v.Bare → v.Low := fun _ => Value.Bare.low
  cases form with
  | quote =>
    simp only [evalForm]
    split
    · exact .pure (bare _ List.mem_cons_self).low
    · exact .fail trivial
  | ifForm => exact (keeps_bare_evalIf hev bare scope).mono low
  | define => exact (keeps_bare_evalDefine hev bare scope).mono low
  | lambda =>
    simp only [evalForm]
    split
    · exact keeps_low_makeLambda scope (bare _ List.mem_cons_self)
    · exact .fail trivial
  | letForm => exact (keeps_bare_evalLet hev bare scope).mono low
  | andForm =>
    have last : (Value.bool true).Bare := trivial
    exact (keeps_evalAnd hev scope last bare).mono low
  | orForm =>
    have last : (Value.bool false).Bare := trivial
    exact (keeps_evalOr hev scope last bare).mono low
  | begin =>
    have last : Value.unspecified.Bare := trivial
    exact (keeps_evalBody hev scope last bare).mono low
  | eval =>
    simp only [evalForm]
    split
    · refine .bind (hev _ scope (bare _ List.mem_cons_self)) fun v value => ?_
      exact (hev v scope value).mono low
    · exact .fail trivial
  | apply =>
    simp only [evalForm]
    split
    · refine .bind (hev _ scope (bare _ (by simp))) fun procedure callable => ?_
      refine .bind (hev _ scope (bare _ (by simp))) fun list value => ?_
      split
      · cases value
        exact keeps_low_call callable (List.forall_mem_nil _)
      · exact keeps_low_call callable (List.forall_mem_nil _)
      · exact .fail ⟨_, value, rfl⟩
    · exact .fail trivial

end Forms

/-- A list of bare expressions, evaluated with bare bindings. -/
theorem keeps_low_list {ev below : Evaluation} (hev : KeepsCode Bare ev) {items : List Value}
    (bare : ∀ v ∈ items, v.Bare) (scope : ScopeId) :
    Keeps Bare Value.Low (evalOne ev below (.list items) scope) := by
  cases items with
  | nil => exact .pure (by decide : (Value.list []).nesting ≤ 2)
  | cons head args =>
    obtain ⟨first, rest⟩ := List.forall_mem_cons.1 bare
    simp only [evalOne]
    split
    · exact keeps_low_evalForm hev rest scope _
    · refine .bind (hev head scope first) fun procedure callable => ?_
      exact .bind (keeps_evalEach hev scope rest) fun values each => keeps_low_call callable each

/-- The computation leaves bare bindings, and if it has a value, it nests no deeper than `n`. -/
def Eval.Stays (n : Nat) (m : Eval Value) : Prop :=
  ∀ st, st.Every Bare → (m st).2.Every Bare ∧ ∀ v, (m st).1 = .ok v → v.nesting ≤ n

theorem Eval.Keeps.stays {R : Value → Prop} {m : Eval Value} {n : Nat} (h : Keeps Bare R m)
    (low : ∀ v, R v → v.nesting ≤ n) : Stays n m := by
  intro st every
  obtain ⟨next, ends⟩ := h st every
  refine ⟨next, fun v value => ?_⟩
  rw [value] at ends
  exact low v ends

theorem stays_bare (limit levels : Nat) {e : Value} (bare : e.Bare) (scope : ScopeId) :
    Stays 1 (eval limit levels e scope) :=
  (keeps_bare_eval limit levels e scope bare).stays fun _ => Bare.nesting_le

theorem stays_shallow (limit levels : Nat) {e : Value} (shallow : e.Shallow) (scope : ScopeId) :
    Stays 2 (eval limit levels e scope) := by
  cases shallow with
  | bare bare =>
    exact (keeps_bare_eval limit levels e scope bare).stays fun _ bare => bare.low
  | @list items bare =>
    cases levels with
    | zero => exact fun st every => ⟨every, nofun⟩
    | succ levels =>
      rw [eval_succ]
      exact (keeps_low_list (keeps_bare_eval limit levels) bare scope).stays fun _ => id
  | dotted items tail =>
    -- A list with a tail is no expression.
    cases levels with
    | zero => exact fun st every => ⟨every, nofun⟩
    | succ levels =>
      rw [eval_succ]
      exact fun st every => ⟨every, nofun⟩

theorem stays_evalBody {ev : Evaluation} {scope : ScopeId} {n : Nat} {last : Value}
    {es : List Value} (begun : last.nesting ≤ n) (each : ∀ e ∈ es, Stays n (ev e scope)) :
    Stays n (evalBody ev scope last es) := by
  intro st every
  induction es generalizing last st with
  | nil =>
    refine ⟨every, fun v value => ?_⟩
    cases value
    exact begun
  | cons e es ih =>
    obtain ⟨first, rest⟩ := List.forall_mem_cons.1 each
    obtain ⟨next, low⟩ := first st every
    rw [evalBody_cons]
    rcases result : ev e scope st with ⟨fault | v, after⟩
    · rw [result] at next
      exact ⟨next, nofun⟩
    · rw [result] at next low
      exact ih (low v rfl) rest after next

/-- What two levels let a text do: bare bindings stay bare, and the value keeps to the limit. -/
theorem stays_evalSequence {limit : Nat} (small : limit ≤ 2) {source : String} {es : List Value}
    (read : readSource limit source = .ok es) : Stays limit (evalSequence limit es) := by
  refine stays_evalBody (Nat.zero_le limit) fun e member => ?_
  obtain ⟨ts, datum, -⟩ := datum_of_readSource read member
  match limit, small, datum with
  | 0, _, datum => exact absurd datum.pos (Nat.lt_irrefl 0)
  | 1, _, datum => exact stays_bare 1 _ (Value.bare_of_datum datum) _
  | 2, _, datum => exact stays_shallow 2 _ (Value.shallow_of_datum datum) _

end TwoLevels

/-! ## Sessions -/

/-- The worker answers the command with the text of a value, which is that of the lines held and the
new one. -/
def LispWorker.Prints (w : LispWorker) (c : Command) (v : Value) : Prop :=
  ∃ g line es, c = .eval g line ∧
    (w.answer c).1 = .reply (.finished g (.success v.text)) ∧
    readSource w.backend.reader.limit (w.sourceWith g line) = .ok es ∧
    (evalSequence w.backend.reader.limit es w.backend.store).1 = .ok v

/-- One of the commands makes a fresh worker print the value. -/
def PrintsAlong (limit : Nat) (cs : List Command) (v : Value) : Prop :=
  ∃ before c after, cs = before ++ c :: after ∧
    ((LispWorker.new limit).replies before).2.Prints c v

namespace LispWorker

theorem answer_of_value {w : LispWorker} {g : Generation} {line : String} {es : List Value}
    {v : Value} {next : Store}
    (judged : verdict w.backend.reader.limit (w.sourceWith g line) = .ok true)
    (read : readSource w.backend.reader.limit (w.sourceWith g line) = .ok es)
    (value : evalSequence w.backend.reader.limit es w.backend.store = (.ok v, next)) :
    w.answer (.eval g line) =
      (.reply (.finished g (.success v.text)),
        ⟨⟨w.backend.reader.clear, next⟩, g, w.evalCount + 1, w.errorCount⟩) := by
  have handled := handle_of_complete w g line judged
  rw [LispBackend.evaluate_value read value] at handled
  exact answer_eq_of_handle handled

/-- With two levels, everything that a session binds is bare. -/
theorem bare_answer {w : LispWorker} (small : w.backend.reader.limit ≤ 2)
    (every : w.backend.store.Every Bare) (c : Command) :
    (w.answer c).2.backend.store.Every Bare := by
  cases c with
  | eval g line =>
    cases judged : verdict w.backend.reader.limit (w.sourceWith g line) with
    | error e =>
      rw [answer_eq_of_handle (handle_of_rejected w g line judged)]
      exact every
    | ok complete =>
      cases complete with
      | false =>
        rw [answer_eq_of_handle (handle_of_incomplete w g line judged)]
        exact every
      | true =>
        rw [answer_eq_of_handle (handle_of_complete w g line judged)]
        cases read : readSource w.backend.reader.limit (w.sourceWith g line) with
        | error e =>
          simp only [LispBackend.evaluate, read]
          exact every
        | ok es =>
          have next := (stays_evalSequence small read w.backend.store every).1
          rcases run : evalSequence w.backend.reader.limit es w.backend.store with ⟨e | v, after⟩
          · rw [run] at next
            rw [LispBackend.evaluate_error read run]
            exact next
          · rw [run] at next
            rw [LispBackend.evaluate_value read run]
            exact next
  | reset g => exact every
  | shutdown => exact every

theorem bare_from {limit : Nat} (small : limit ≤ 2) {s : Standing} {w : LispWorker}
    (stands : Stands limit s w) (every : w.backend.store.Every Bare) (cs : List Command) :
    (w.replies cs).2.backend.store.Every Bare := by
  induction cs generalizing s w with
  | nil => exact every
  | cons c cs ih =>
    exact ih (stands_answer stands c) (bare_answer (stands.limit_eq.symm ▸ small) every c)

theorem bare_run {limit : Nat} (small : limit ≤ 2) (cs : List Command) :
    ((LispWorker.new limit).replies cs).2.backend.store.Every Bare :=
  bare_from small (stands_new limit) (every_initial_of_builtin fun _ => trivial) cs

/-- With two levels or fewer, what a session prints stays within the limit. -/
theorem nesting_le_of_printsAlong {limit : Nat} (small : limit ≤ 2) {cs : List Command} {v : Value}
    (prints : PrintsAlong limit cs v) : v.nesting ≤ limit := by
  obtain ⟨before, c, after, -, g, line, es, -, -, read, value⟩ := prints
  have limit_eq := (stands_run limit before).limit_eq
  rw [limit_eq] at read value
  exact (stays_evalSequence small read _ (bare_run small before)).2 v value

end LispWorker

/-! ## Three levels -/

/-- Numbers in lists inside one another. -/
def Value.boxed : Nat → Value
  | 0 => .number .one
  | n + 1 => .list [boxed n]

theorem Value.nesting_boxed (n : Nat) : (boxed n).nesting = n := by
  induction n with
  | zero => rfl
  | succ n ih => rw [boxed, nesting, itemNesting, itemNesting, ih, Nat.max_zero]

/-- A definition, and then a list around the value as often as wanted, each in a line of its own. -/
def deepening (n : Nat) : List Command :=
  .eval 0 "(define x 1)" :: List.replicate n (.eval 0 "(define x (list x))")

section Lookup

variable {st : Store} {name : String} {v : Value}

/-- From the global scope a name is looked up in that scope alone. -/
theorem lookup?_global (st : Store) (name : String) :
    st.lookup? name Store.globalId = st.scopes[0]?.bind fun s => bound? name s.bindings := by
  rw [Store.lookup?, Store.globalId]
  cases st.scopes[0]? with
  | none => rfl
  | some scope =>
    cases found : bound? name scope.bindings with
    | some v => simp [found]
    | none =>
      simp only [Option.bind_some, found, Nat.not_lt_zero, if_false]
      cases scope.outer <;> rfl

/-- A definition in the global scope is seen there, once the scope has some other name. -/
theorem lookup?_define_global {present : Value} {known : String}
    (global : st.lookup? known Store.globalId = some present) (name other : String) (v : Value) :
    (st.define Store.globalId name v).lookup? other Store.globalId =
      if name = other then some v else st.lookup? other Store.globalId := by
  rw [lookup?_global] at global ⊢
  obtain ⟨scope, first, -⟩ := Option.bind_eq_some_iff.1 global
  rw [lookup?_global, first]
  simp [Store.define, Store.globalId, first, Array.getElem?_modify, bound?_rebind]

theorem eval_symbol {scope : ScopeId} (bound : st.lookup? name scope = some v)
    (limit levels : Nat) : eval limit (levels + 1) (.symbol name) scope st = (.ok v, st) := by
  rw [eval_succ]
  simp only [evalOne, Eval.lookup, bound]

/-- A definition in the global scope, of what an expression gives without a change of the store. -/
theorem evalSequence_define {limit : Nat} {e : Value} (name : String)
    (value : eval limit limit e Store.globalId st = (.ok v, st)) :
    evalSequence limit [.list [.symbol "define", .symbol name, e]] st =
      (.ok .unspecified, st.define Store.globalId name v) := by
  have defined : eval limit (limit + 1) (.list [.symbol "define", .symbol name, e])
      Store.globalId st = (.ok .unspecified, st.define Store.globalId name v) := by
    rw [eval_succ]
    change (eval limit limit e Store.globalId >>= _) st = _
    rw [Eval.bind_of_ok value]
    rfl
  change evalBody _ _ _ _ _ = _
  rw [evalBody_cons, defined]
  rfl

/-- A call of `list` needs one level more than the name of its argument. -/
theorem eval_list_call (list : st.lookup? "list" Store.globalId = some (.builtin .list))
    (bound : st.lookup? name Store.globalId = some v) (limit levels : Nat) :
    eval limit (levels + 2) (.list [.symbol "list", .symbol name]) Store.globalId st =
      (.ok (.list [v]), st) := by
  have values : evalEach (eval limit (levels + 1)) Store.globalId [.symbol name] st =
      (.ok [v], st) := by
    rw [evalEach, Eval.bind_of_ok (eval_symbol bound limit levels)]
    rfl
  have call : (Value.symbol "list").formName? = none := by decide
  rw [eval_succ]
  simp only [evalOne, call]
  rw [Eval.bind_of_ok (eval_symbol list limit levels), Eval.bind_of_ok values]
  rfl

end Lookup

namespace LispWorker

/-- The worker holds no lines, and has bound `x` to so many lists around a number. -/
structure Deepened (limit n : Nat) (w : LispWorker) : Prop where
  generation : w.generation = 0
  reader : w.backend.reader = .new limit
  list : w.backend.store.lookup? "list" Store.globalId = some (.builtin .list)
  bound : w.backend.store.lookup? "x" Store.globalId = some (.boxed n)

variable {limit m n : Nat} {w : LispWorker}

theorem sourceWith_of_empty (generation : w.generation = 0) (reader : w.backend.reader = .new limit)
    (line : String) : w.sourceWith 0 line = "" ++ line ++ "\n" := by
  rw [sourceWith, ← generation, readerFor_generation, reader]
  rfl

/-- A line that defines `x`, for a worker that holds no lines. -/
theorem answer_define {line : String} {e v : Value} (generation : w.generation = 0)
    (reader : w.backend.reader = .new limit)
    (read : readSource limit ("" ++ line ++ "\n") =
      .ok [.list [.symbol "define", .symbol "x", e]])
    (value : eval limit limit e Store.globalId w.backend.store = (.ok v, w.backend.store)) :
    (w.answer (.eval 0 line)).2.generation = 0 ∧
      (w.answer (.eval 0 line)).2.backend =
        ⟨.new limit, w.backend.store.define Store.globalId "x" v⟩ := by
  have limit_eq : w.backend.reader.limit = limit := by
    rw [reader]
    rfl
  rw [← limit_eq, ← sourceWith_of_empty generation reader] at read
  have result := evalSequence_define "x" value
  rw [← limit_eq] at result
  rw [answer_of_value (verdict_of_readSource read) read result, Reader.clear, limit_eq]
  exact ⟨rfl, rfl⟩

theorem deepened_first (m : Nat) :
    Deepened (m + 3) 0 ((LispWorker.new (m + 3)).answer (.eval 0 "(define x 1)")).2 := by
  have read : readSource (m + 3) ("" ++ "(define x 1)" ++ "\n") =
      .ok [.list [.symbol "define", .symbol "x", .number .one]] := rfl
  have initial : Store.initial.lookup? "list" Store.globalId = some (.builtin .list) := by
    rw [lookup?_global]
    rfl
  obtain ⟨generation, backend⟩ := answer_define (w := LispWorker.new (m + 3)) rfl rfl read rfl
  refine ⟨generation, by rw [backend], ?_, ?_⟩
  · rw [backend]
    change (Store.initial.define Store.globalId "x" _).lookup? _ _ = _
    rw [lookup?_define_global initial, if_neg (by decide)]
    exact initial
  · rw [backend]
    change (Store.initial.define Store.globalId "x" _).lookup? _ _ = _
    rw [lookup?_define_global initial, if_pos rfl]
    rfl

/-- One line, which fits into three levels, puts another list around the value. -/
theorem deepened_next (deepened : Deepened (m + 3) n w) :
    Deepened (m + 3) (n + 1) (w.answer (.eval 0 "(define x (list x))")).2 := by
  have read : readSource (m + 3) ("" ++ "(define x (list x))" ++ "\n") =
      .ok [.list [.symbol "define", .symbol "x", .list [.symbol "list", .symbol "x"]]] := rfl
  obtain ⟨generation, backend⟩ := answer_define deepened.generation deepened.reader read
    (eval_list_call deepened.list deepened.bound (m + 3) (m + 1))
  refine ⟨generation, by rw [backend], ?_, ?_⟩
  · rw [backend, lookup?_define_global deepened.bound, if_neg (by decide)]
    exact deepened.list
  · rw [backend, lookup?_define_global deepened.bound, if_pos rfl]
    rfl

theorem deepened_run (m n : Nat) :
    Deepened (m + 3) n ((LispWorker.new (m + 3)).replies (deepening n)).2 := by
  induction n with
  | zero => exact deepened_first m
  | succ n ih =>
    have longer : deepening (n + 1) = deepening n ++ [.eval 0 "(define x (list x))"] := by
      rw [deepening, List.replicate_succ']
      rfl
    rw [longer, replies_append, replies_cons]
    exact deepened_next ih

/-- Three levels are enough to print a value that nests as deep as wanted. -/
theorem printsAlong_deepening (m n : Nat) :
    PrintsAlong (m + 3) (deepening n ++ [.eval 0 "x"]) (.boxed n) := by
  have deepened := deepened_run m n
  refine ⟨deepening n, _, [], rfl, ?_⟩
  generalize ((LispWorker.new (m + 3)).replies (deepening n)).2 = w at deepened
  have limit_eq : w.backend.reader.limit = m + 3 := by
    rw [deepened.reader]
    rfl
  have read : readSource w.backend.reader.limit (w.sourceWith 0 "x") = .ok [.symbol "x"] := by
    rw [limit_eq, sourceWith_of_empty deepened.generation deepened.reader]
    rfl
  have value : evalSequence w.backend.reader.limit [.symbol "x"] w.backend.store =
      (.ok (.boxed n), w.backend.store) := by
    change evalBody _ _ _ _ _ = _
    rw [evalBody_cons, eval_symbol deepened.bound]
    rfl
  refine ⟨0, "x", _, rfl, ?_, read, by rw [value]⟩
  rw [answer_of_value (verdict_of_readSource read) read value]

end LispWorker

/-- What a session prints is bounded by the limit exactly if the limit is two or less, although what
is read always is. With three levels or more, some session prints a value of any nesting, so that the
printer can be made to recurse as deep as wanted. -/
theorem printed_nesting_bounded_iff (limit : Nat) :
    (∀ source es, readSource limit source = .ok es → ∀ e ∈ es, e.nesting ≤ limit) ∧
      ((∀ cs v, PrintsAlong limit cs v → v.nesting ≤ limit) ↔ limit ≤ 2) ∧
      (3 ≤ limit → ∀ n, ∃ cs v, PrintsAlong limit cs v ∧ v.nesting = n) := by
  have deep (three : 3 ≤ limit) (n : Nat) : ∃ cs v, PrintsAlong limit cs v ∧ v.nesting = n := by
    obtain ⟨m, rfl⟩ := Nat.exists_eq_add_of_le' three
    exact ⟨_, _, LispWorker.printsAlong_deepening m n, Value.nesting_boxed n⟩
  refine ⟨fun _ _ => nesting_le_of_readSource, ⟨fun bounded => ?_, fun small cs v =>
    LispWorker.nesting_le_of_printsAlong small⟩, deep⟩
  by_contra large
  obtain ⟨cs, v, prints, nests⟩ := deep (by omega) (limit + 1)
  have bound := bounded cs v prints
  omega

/-- Five definitions, none of which nests deeper than two lists, make a worker with three levels
print a list that nests four deep. -/
theorem printed_nesting_of_definitions :
    ¬ ∀ limit cs v, 1 ≤ limit → PrintsAlong limit cs v → v.nesting ≤ limit := by
  intro bounded
  have prints : PrintsAlong 3 (deepening 4 ++ [.eval 0 "x"]) (.boxed 4) :=
    LispWorker.printsAlong_deepening 0 4
  have nests := bounded 3 _ _ (by decide) prints
  rw [Value.nesting_boxed] at nests
  omega

end LispRepl

import LispRepl.Proofs.BatchAgreement
import LispRepl.Proofs.BuiltinResults
import LispRepl.Proofs.PrintedText
import LispRepl.Proofs.ValueInvariant

/-!
# Pairs

A list and a list with a tail are both made of pairs, and a pair comes from reading a text or from
`cons`. Both splice a tail that is a list, so that the tail of a value never is one, and the parts
of a pair make the same pair again. They differ on the tail `nil`: for `cons`, as for every builtin
procedure that takes a list, it is the end of a list, and reading leaves it behind the point. The
pair of an item and `nil` that is read is the one pair that its parts do not make again.

- `Value.Spliced`: no list has a list as its tail.
- `hereditary_spliced`, `spliced_of_readSource`: reading and evaluation keep to that.
- `Producible`, `spliced_of_producible`: the values that reading and evaluation can give.
- `producible_of_evalSequence`: every value of a session is one of them.
- `pairs_of_parts`: the laws of `cons`, `car` and `cdr`.
-/

set_option autoImplicit false

namespace LispRepl

variable {v part head tail : Value} {items args : List Value}

/-! ## Values without a list as a tail -/

/-- The value is a list, with or without a tail. -/
def Value.isList : Value → Bool
  | .list _ | .dotted .. => true
  | _ => false

mutual

/-- Every tail inside the value stands behind an item and is no list. -/
def Value.Spliced : Value → Prop
  | .list items => Value.AllSpliced items
  | .dotted items tail =>
    items ≠ [] ∧ Value.AllSpliced items ∧ tail.isList = false ∧ tail.Spliced
  | .lambda _ _ _ _ body _ => Value.AllSpliced body
  | _ => True

/-- Every tail inside the values stands behind an item and is no list. -/
def Value.AllSpliced : List Value → Prop
  | [] => True
  | v :: vs => v.Spliced ∧ Value.AllSpliced vs

end

theorem allSpliced_iff : Value.AllSpliced items ↔ ∀ v ∈ items, v.Spliced := by
  induction items with
  | nil => simp [Value.AllSpliced]
  | cons v vs ih => simp [Value.AllSpliced, ih]

/-! ## Parts and pairs -/

theorem spliced_cons (first : head.Spliced) (last : tail.Spliced) :
    (Value.cons head tail).Spliced := by
  have single : Value.AllSpliced [head] := ⟨first, trivial⟩
  cases tail with
  | nil => exact single
  | list items => exact ⟨first, last⟩
  | dotted items tail => exact ⟨List.cons_ne_nil _ _, ⟨first, last.2.1⟩, last.2.2⟩
  | _ => exact ⟨List.cons_ne_nil _ _, single, rfl, last⟩

/-- What has a rest is a list with a first item: one without a tail, one item in front of a tail, or
more items in front of it. -/
theorem parts_of_cdr (spliced : v.Spliced) (rest : v.cdr = .ok tail) :
    ∃ head, v.car = .ok head ∧
      ((∃ items, v = .list (head :: items) ∧ tail = .list items) ∨
        (v = .dotted [head] tail ∧ tail.isList = false) ∨
        ∃ next items last, v = .dotted (head :: next :: items) last ∧
          tail = .dotted (next :: items) last) := by
  cases v with
  | list items =>
    cases items with
    | nil => cases rest
    | cons head items =>
      cases rest
      exact ⟨head, rfl, .inl ⟨items, rfl, rfl⟩⟩
  | dotted items last =>
    obtain ⟨some, -, behind, -⟩ := spliced
    rcases items with _ | ⟨head, _ | ⟨next, items⟩⟩
    · exact absurd rfl some
    · cases rest
      exact ⟨head, rfl, .inr (.inl ⟨rfl, behind⟩)⟩
    · cases rest
      exact ⟨head, rfl, .inr (.inr ⟨next, items, last, rfl, rfl⟩)⟩
  | _ => cases rest

theorem spliced_car (spliced : v.Spliced) (first : v.car = .ok part) : part.Spliced := by
  simp only [Value.car] at first
  split at first
  all_goals cases first
  · exact spliced.1
  · exact spliced.2.1.1

theorem spliced_cdr (spliced : v.Spliced) (rest : v.cdr = .ok part) : part.Spliced := by
  obtain ⟨head, -, ⟨items, rfl, rfl⟩ | ⟨rfl, -⟩ | ⟨next, items, last, rfl, rfl⟩⟩ :=
    parts_of_cdr spliced rest
  · exact spliced.2
  · exact spliced.2.2.2
  · exact ⟨List.cons_ne_nil _ _, spliced.2.1.2, spliced.2.2⟩

/-- The parts of a pair make it again, unless `nil` stands behind the point. -/
theorem cons_of_parts (spliced : v.Spliced) (first : v.car = .ok head) (rest : v.cdr = .ok tail)
    (ends : v ≠ .dotted [head] .nil) : Value.cons head tail = v := by
  obtain ⟨item, same, parts⟩ := parts_of_cdr spliced rest
  cases first.symm.trans same
  obtain ⟨items, rfl, rfl⟩ | ⟨rfl, behind⟩ | ⟨next, items, last, rfl, rfl⟩ := parts
  · rfl
  · cases tail with
    | nil => exact absurd rfl ends
    | list | dotted => cases behind
    | _ => rfl
  · rfl

theorem car_cons (head tail : Value) : (Value.cons head tail).car = .ok head := by
  cases tail <;> rfl

theorem cdr_cons (spliced : tail.Spliced) (some : tail ≠ .nil) :
    (Value.cons head tail).cdr = .ok tail := by
  cases tail with
  | nil => exact absurd rfl some
  | dotted items last =>
    obtain ⟨next, items, rfl⟩ := List.exists_cons_of_ne_nil spliced.1
    rfl
  | _ => rfl

/-! ## Where values come from -/

/-- Evaluation makes no list with a list as its tail. -/
theorem hereditary_spliced : Hereditary Value.Spliced where
  nil := trivial
  unspecified := trivial
  bool _ := trivial
  builtin _ := trivial
  list := allSpliced_iff.2
  lambda _ _ _ := allSpliced_iff.2
  items := allSpliced_iff.1
  dotted h := ⟨allSpliced_iff.1 h.2.1, h.2.2.2⟩
  name _ := trivial
  body := allSpliced_iff.1
  apply hargs h := by
    cases gives_of_apply h with
    | number | bool => trivial
    | list => exact allSpliced_iff.2 hargs
    | cons two =>
      subst two
      obtain ⟨first, last⟩ := List.forall_mem_cons.1 hargs
      exact spliced_cons first (List.forall_mem_singleton.1 last)
    | car one first =>
      subst one
      exact spliced_car (List.forall_mem_singleton.1 hargs) first
    | cdr one rest =>
      subst one
      exact spliced_cdr (List.forall_mem_singleton.1 hargs) rest

theorem isList_of_atom {t : TokenKind} (value : t.atom? = some v) : v.isList = false := by
  cases t <;> cases value <;> rfl

theorem spliced_of_atom {t : TokenKind} (value : t.atom? = some v) : v.Spliced := by
  cases t <;> cases value <;> trivial

theorem spliced_of_readable {n : Nat} (h : v.Readable n) : v.Spliced := by
  induction h with
  | atom value => exact spliced_of_atom value
  | list each ih => exact allSpliced_iff.2 ih
  | dotted some each last value ih last_ih =>
    exact ⟨some, allSpliced_iff.2 ih, isList_of_atom value, last_ih⟩

theorem spliced_of_readSource {limit : Nat} {source : String} {es : List Value}
    (h : readSource limit source = .ok es) (member : v ∈ es) : v.Spliced := by
  obtain ⟨ts, datum, spelled⟩ := datum_of_readSource h member
  exact spliced_of_readable (readable_of_datum datum spelled)

/-- A value that reading or evaluation can give. Evaluation takes place at any depth and with any
bindings that can have been made. -/
inductive Producible : Value → Prop where
  | read {limit : Nat} {source : String} {es : List Value} {v : Value} :
    readSource limit source = .ok es → v ∈ es → Producible v
  | builtin (b : Builtin) : Producible (.builtin b)
  | applied {b : Builtin} {args : List Value} {v : Value} :
    (∀ a ∈ args, Producible a) → b.apply args = .ok v → Producible v
  | evaluated {limit levels : Nat} {e v : Value} {scope : ScopeId} {st : Store} :
    Producible e → (∀ s ∈ st.scopes, ∀ b ∈ s.bindings, Producible b.2) →
    (eval limit levels e scope st).1 = .ok v → Producible v
  /-- A binding that evaluation has made. -/
  | bound {limit levels : Nat} {e : Value} {scope : ScopeId} {st : Store} {s : Scope}
    {name : String} {v : Value} :
    Producible e → (∀ s ∈ st.scopes, ∀ b ∈ s.bindings, Producible b.2) →
    s ∈ (eval limit levels e scope st).2.scopes → (name, v) ∈ s.bindings → Producible v

theorem spliced_of_producible (h : Producible v) : v.Spliced := by
  induction h with
  | read parsed member => exact spliced_of_readSource parsed member
  | builtin => trivial
  | applied each result ih => exact hereditary_spliced.apply ih result
  | @evaluated limit levels e v scope st code every result ih every_ih =>
    have ends := (keeps_eval hereditary_spliced limit levels e scope ih st every_ih).2
    rw [result] at ends
    exact ends
  | @bound limit levels e scope st s name v code every member binding ih every_ih =>
    have next := (keeps_eval hereditary_spliced limit levels e scope ih st every_ih).1
    exact next s member _ binding

theorem producible_unspecified : Producible .unspecified := by
  have read : readSource 2 "(begin)" = .ok [.list [.symbol "begin"]] := rfl
  have every : Store.initial.Every Producible := every_initial_of_builtin .builtin
  have value : (eval 2 2 (.list [.symbol "begin"]) Store.globalId Store.initial).1 =
      .ok .unspecified := rfl
  exact .evaluated (.read read List.mem_cons_self) every value

/-- Expressions that are evaluated one after another give what is producible and leave it bound. -/
theorem producible_of_evalBody {limit levels : Nat} {scope : ScopeId} {last : Value}
    {es : List Value} {st : Store} (begun : Producible last) (code : ∀ e ∈ es, Producible e)
    (every : st.Every Producible) :
    (evalBody (eval limit levels) scope last es st).2.Every Producible ∧
      ∀ v, (evalBody (eval limit levels) scope last es st).1 = .ok v → Producible v := by
  induction es generalizing last st with
  | nil =>
    refine ⟨every, fun v value => ?_⟩
    cases value
    exact begun
  | cons e es ih =>
    obtain ⟨first, others⟩ := List.forall_mem_cons.1 code
    have next : (eval limit levels e scope st).2.Every Producible :=
      fun s member binding bound => .bound first every member bound
    rw [evalBody_cons]
    rcases result : eval limit levels e scope st with ⟨fault | v, after⟩
    · rw [result] at next
      exact ⟨next, nofun⟩
    · rw [result] at next
      exact ih (.evaluated first every (by rw [result])) others next

/-- So do the texts of a session, which begins with the builtin procedures. -/
theorem producible_of_evalSequence {limit : Nat} {source : String} {es : List Value} {st : Store}
    (read : readSource limit source = .ok es) (every : st.Every Producible) :
    (evalSequence limit es st).2.Every Producible ∧
      ∀ v, (evalSequence limit es st).1 = .ok v → Producible v :=
  producible_of_evalBody producible_unspecified (fun _ => .read read) every

/-! ## The laws -/

/-- The parts of a producible value make it again, and a pair with the value as its rest has the
item and the value as its parts. The exception on either side is `nil` behind an item: what is read
with `nil` as its tail is made again as a list, and the rest of what `cons` has made with `nil` is
the empty list. -/
theorem pairs_of_parts (producible : Producible v) (item : Value) :
    (∀ head tail, Builtin.car.apply [v] = .ok head → Builtin.cdr.apply [v] = .ok tail →
      (Builtin.cons.apply [head, tail] = .ok v ↔ v ≠ .dotted [head] .nil) ∧
      (v = .dotted [head] .nil → Builtin.cons.apply [head, tail] = .ok (.list [head]))) ∧
    ∃ pair, Builtin.cons.apply [item, v] = .ok pair ∧
      Builtin.car.apply [pair] = .ok item ∧
      (v ≠ .nil → Builtin.cdr.apply [pair] = .ok v) ∧
      (v = .nil → Builtin.cdr.apply [pair] = .ok (.list [])) := by
  have spliced := spliced_of_producible producible
  constructor
  · intro head tail first rest
    have ending (ends : v = .dotted [head] .nil) :
        Builtin.cons.apply [head, tail] = .ok (.list [head]) := by
      subst ends
      cases rest
      rfl
    refine ⟨⟨fun made ends => ?_, fun other => ?_⟩, ending⟩
    · rw [ending ends, ends] at made
      cases made
    · exact congrArg Except.ok (cons_of_parts spliced first rest other)
  · refine ⟨.cons item v, rfl, car_cons item v, cdr_cons spliced, ?_⟩
    rintro rfl
    rfl

/-- The value of a text is made again from its parts, and `nil` that is read ends a list. -/
theorem pairs_of_parts_evaluated :
    Builtin.cons.apply [.symbol "a", .symbol "b"] = .ok (.dotted [.symbol "a"] (.symbol "b")) ∧
      ∃ pair, Builtin.cons.apply [.symbol "a", .nil] = .ok pair ∧
        Builtin.cdr.apply [pair] = .ok (.list []) := by
  have source : readSource 3 "'(a . b)" =
      .ok [.list [.symbol "quote", .dotted [.symbol "a"] (.symbol "b")]] := rfl
  have producible : Producible (.dotted [.symbol "a"] (.symbol "b")) :=
    (producible_of_evalSequence source (every_initial_of_builtin .builtin)).2 _ rfl
  have atom : readSource 1 "nil" = .ok [.nil] := rfl
  obtain ⟨made, -⟩ := (pairs_of_parts producible .nil).1 _ _ rfl rfl
  obtain ⟨pair, result, -, -, ends⟩ :=
    (pairs_of_parts (.read atom List.mem_cons_self) (.symbol "a")).2
  exact ⟨made.2 (by simp), pair, result, ends rfl⟩

/-- What is read from `(a . nil)` has `a` and `nil` as its parts, which `cons` makes the list of `a`
of. -/
theorem pair_of_nil_tail_not_remade :
    ¬ ∀ v head tail pair, Producible v → Builtin.car.apply [v] = .ok head →
      Builtin.cdr.apply [v] = .ok tail → Builtin.cons.apply [head, tail] = .ok pair →
      pair.same v = true := by
  intro laws
  have read : readSource 2 "(a . nil)" = .ok [.dotted [.symbol "a"] .nil] := rfl
  have same := laws _ (.symbol "a") .nil (.list [.symbol "a"])
    (.read read List.mem_cons_self) rfl rfl rfl
  cases same

end LispRepl

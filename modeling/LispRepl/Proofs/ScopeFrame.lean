import LispRepl.Proofs.EvaluationCongruence

/-!
# Evaluation writes its own scope alone

Procedures share the scopes that they were made in, and a body may define names at any depth. Still
an evaluation in a scope binds names in that scope and in scopes that it makes itself, and nowhere
else: whatever it evaluates, and whether it ends with a value or an error, every other scope that
was there before has the bindings and the outer scope that it had (`eval_writes_own_scope`).

- `Store.GrowsIn`: the stores that may follow a store when a scope is written.
- `Eval.WritesIn`, `congruence_writesIn`: computations that write one scope, and how they compose.
- `writesIn_eval`, `eval_writes_own_scope`: the result.
-/

set_option autoImplicit false

namespace LispRepl

/-- The second store may follow the first when names are bound in one scope and scopes are made: no
scope is lost, none is moved to another place, and only the one scope has other bindings. -/
structure Store.GrowsIn (scope : ScopeId) (before after : Store) : Prop where
  size : before.scopes.size ≤ after.scopes.size
  outer : ∀ id < before.scopes.size,
    after.scopes[id]?.map Scope.outer = before.scopes[id]?.map Scope.outer
  others : ∀ id < before.scopes.size, id ≠ scope → after.scopes[id]? = before.scopes[id]?

namespace Store.GrowsIn

variable {scope : ScopeId} {before mid after : Store}

theorem refl (scope : ScopeId) (store : Store) : store.GrowsIn scope store :=
  ⟨Nat.le_refl _, fun _ _ => rfl, fun _ _ _ => rfl⟩

theorem trans (first : before.GrowsIn scope mid) (second : mid.GrowsIn scope after) :
    before.GrowsIn scope after where
  size := Nat.le_trans first.size second.size
  outer id old := (second.outer id (Nat.lt_of_lt_of_le old first.size)).trans (first.outer id old)
  others id old other :=
    (second.others id (Nat.lt_of_lt_of_le old first.size) other).trans (first.others id old other)

theorem define (scope : ScopeId) (name : String) (value : Value) (store : Store) :
    store.GrowsIn scope (store.define scope name value) where
  size := by simp [Store.define]
  outer id _ := by
    simp only [Store.define, Array.getElem?_modify]
    split
    · cases store.scopes[id]? <;> rfl
    · rfl
  others id _ other := by
    simp [Store.define, Array.getElem?_modify, Ne.symm other]

/-- What is written in a scope made just now is written in no scope that was there before. -/
theorem enclose {outer : ScopeId} {bindings : List (String × Value)}
    (inside : (before.enclose outer bindings).2.GrowsIn (before.enclose outer bindings).1 after) :
    before.GrowsIn scope after := by
  have old : ∀ id < before.scopes.size,
      (before.enclose outer bindings).2.scopes[id]? = before.scopes[id]? := fun id old => by
    simp [Store.enclose, Array.getElem?_push, Nat.ne_of_lt old]
  have size : (before.enclose outer bindings).2.scopes.size = before.scopes.size + 1 := by
    simp [Store.enclose]
  refine ⟨?_, fun id bound => ?_, fun id bound _ => ?_⟩
  · have := inside.size
    omega
  · rw [inside.outer id (by omega), old id bound]
  · -- The new scope has the number that is the first free one.
    rw [inside.others id (by omega) (Nat.ne_of_lt bound), old id bound]

end Store.GrowsIn

/-- From every store, the computation binds names in one scope and in scopes that it makes. -/
def Eval.WritesIn {α : Type} (scope : ScopeId) (m : Eval α) : Prop :=
  ∀ store : Store, store.GrowsIn scope (m store).2

/-- Writing one scope alone is a property of computations that evaluation keeps. -/
theorem congruence_writesIn : Congruence fun scope {_} m _ => Eval.WritesIn scope m where
  ofResult scope _ store := .refl scope store
  bind {_ _ _ m _ f _} first second store := by
    have grows := first store
    rcases result : m store with ⟨e | a, next⟩
    · -- An error leaves the store of the first computation, with all that it has written.
      rw [Eval.bind_of_error result]
      rwa [result] at grows
    · rw [Eval.bind_of_ok result]
      rw [result] at grows
      exact grows.trans (second a next)
  lookup scope name store := by
    rw [Eval.lookup]
    split <;> exact .refl scope store
  define scope name value store := .define scope name value store
  freshId scope store := ⟨Nat.le_refl _, fun _ _ => rfl, fun _ _ _ => rfl⟩
  enclosed scope outer bindings f _ inside store :=
    .enclose (inside (store.enclose outer bindings).1 (store.enclose outer bindings).2)

/-- An evaluation writes in its own scope when those of its parts do, and those of the bodies of
procedures in theirs. -/
theorem writesIn_evalOne {ev below : Evaluation} (parts : ∀ e scope, (ev e scope).WritesIn scope)
    (bodies : ∀ e scope, (below e scope).WritesIn scope) (e : Value) (scope : ScopeId) :
    (evalOne ev below e scope).WritesIn scope := by
  have hparts : RelatesCode (fun scope {_} m _ => Eval.WritesIn scope m) ev ev := parts
  have hbodies : RelatesCode (fun scope {_} m _ => Eval.WritesIn scope m) below below := bodies
  exact related_evalOne congruence_writesIn hparts hbodies e scope

/-- Evaluation with any number of levels writes in its own scope. -/
theorem writesIn_eval (limit levels : Nat) (e : Value) (scope : ScopeId) :
    (eval limit levels e scope).WritesIn scope := by
  -- Bodies of procedures are two levels below, so that the induction is on all lower levels.
  induction levels using Nat.strongRecOn generalizing e scope with
  | ind levels ih =>
    cases levels with
    | zero => exact congruence_writesIn.fail scope _
    | succ n =>
      rw [eval_succ]
      exact writesIn_evalOne (ih n (by omega)) (ih (n - 1) (by omega)) e scope

/-- For every expression, every scope it is evaluated in and every store, at every number of levels
left: an evaluation leaves every other scope that was there before with exactly the bindings and the
outer scope it had, whether it ends with a value or an error. The scope itself keeps its place. -/
theorem eval_writes_own_scope (limit levels : Nat) (e : Value) (scope : ScopeId) (store : Store)
    (id : ScopeId) (old : id < store.scopes.size) :
    let after := (eval limit levels e scope store).2
    (id ≠ scope → after.scopes[id]? = store.scopes[id]?) ∧
      after.scopes[id]?.map Scope.outer = store.scopes[id]?.map Scope.outer := by
  intro after
  have grows : store.GrowsIn scope after := writesIn_eval limit levels e scope store
  exact ⟨grows.others id old, grows.outer id old⟩

/-- A procedure binds the parameter of the scope around it anew, in its own scope, and then fails.
The scope around it, which is neither global nor new, is as before. -/
theorem eval_writes_own_scope_on_error :
    let define : Value := .symbol "define"
    let x : Value := .symbol "x"
    let make : Value := .list [define, .list [.symbol "make", x],
      .list [.symbol "lambda", .nil, .list [define, x, .bool true], .list [.symbol "car", x]]]
    let use : Value := .list [define, .symbol "use", .list [.symbol "make", .bool false]]
    let store := (evalSequence 8 [make, use] Store.initial).2
    let e : Value := .list [.symbol "begin", .list [define, x, .nil], .list [.symbol "use"]]
    let result := eval 8 9 e Store.globalId store
    1 < store.scopes.size ∧ 1 ≠ Store.globalId ∧
      (match result.1 with | .ok v => v.text | .error e => e.message) =
        "Expected a list, found true" ∧
      (store.lookup? "x" Store.globalId).isNone ∧ (result.2.lookup? "x" Store.globalId).isSome ∧
      result.2.scopes.size = 3 ∧ result.2.scopes[1]? = store.scopes[1]? := by
  intro define x make use store e result
  have old : 1 < store.scopes.size := by decide +kernel
  have other : 1 ≠ Store.globalId := by decide
  have same := (eval_writes_own_scope 8 9 e Store.globalId store 1 old).1 other
  refine ⟨old, other, ?_, ?_, ?_, ?_, same⟩
  all_goals decide +kernel

end LispRepl

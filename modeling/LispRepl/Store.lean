import LispRepl.LispError
import LispRepl.Value

/-!
# Scopes

A scope binds names to values and may be enclosed by another. All scopes live in a store, where
they are numbered in the order they were made; a scope is enclosed by an older one, so that a
look-up through the enclosing scopes ends. Scope zero is the global one.

- `Scope`, `Store`: the scopes.
- `Store.lookup?`: the value of a name, seen from a scope.
- `Store.define`: binds a name in one scope.
- `Store.enclose`: makes a new scope inside another.
- `Store.freshId`: a number for a new procedure.
- `Store.initial`: the global scope with every builtin procedure.
-/

set_option autoImplicit false

namespace LispRepl

/-- The names bound in a scope, and the scope around it. -/
structure Scope where
  bindings : List (String × Value)
  outer : Option ScopeId
deriving Inhabited

/-- The scopes by number, and the number that the next procedure gets. -/
structure Store where
  scopes : Array Scope
  nextId : Nat

/-- The value bound to a name. -/
def bound? (name : String) : List (String × Value) → Option Value
  | [] => none
  | (key, value) :: rest => if key = name then some value else bound? name rest

/-- The bindings with `name` bound to `value`: in place of its old value, or else at the end. -/
def rebind (name : String) (value : Value) : List (String × Value) → List (String × Value)
  | [] => [(name, value)]
  | (key, old) :: rest =>
    if key = name then (key, value) :: rest else (key, old) :: rebind name value rest

/-- A name has the value it was bound to last. -/
theorem bound?_rebind (name other : String) (value : Value) (bs : List (String × Value)) :
    bound? other (rebind name value bs) = if name = other then some value else bound? other bs := by
  induction bs with
  | nil => simp [rebind, bound?]
  | cons b bs ih =>
    obtain ⟨key, old⟩ := b
    by_cases hk : key = name
    · subst hk; by_cases ho : key = other <;> simp [rebind, bound?, ho]
    · by_cases ho : key = other
      · subst ho; simp [rebind, bound?, hk, Ne.symm hk]
      · simp [rebind, bound?, hk, ho, ih]

namespace Store

/-- The value of a name in a scope or the nearest scope around it that binds it. Only a scope
older than the one it encloses is looked at. -/
def lookup? (st : Store) (name : String) (id : ScopeId) : Option Value :=
  match st.scopes[id]? with
  | none => none
  | some scope =>
    match bound? name scope.bindings with
    | some v => some v
    | none =>
      match scope.outer with
      | none => none
      | some outer => if outer < id then st.lookup? name outer else none
termination_by id

/-- Binds a name in a scope. -/
def define (st : Store) (id : ScopeId) (name : String) (value : Value) : Store :=
  { st with scopes := st.scopes.modify id fun s =>
      { s with bindings := rebind name value s.bindings } }

/-- A new scope inside `outer`, with these bindings, and its number. -/
def enclose (st : Store) (outer : ScopeId) (bindings : List (String × Value)) : ScopeId × Store :=
  (st.scopes.size, { st with scopes := st.scopes.push ⟨bindings, some outer⟩ })

/-- A number that no procedure has yet. -/
def freshId (st : Store) : Nat × Store :=
  (st.nextId, { st with nextId := st.nextId + 1 })

/-- The number of the global scope. -/
def globalId : ScopeId := 0

/-- The global scope alone, with every builtin procedure bound to its name. -/
def initial : Store :=
  ⟨#[⟨Builtin.all.map fun b => (b.name, .builtin b), none⟩], 0⟩

end Store

end LispRepl

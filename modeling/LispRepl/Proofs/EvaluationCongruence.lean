import LispRepl.Eval

/-!
# Relations that the evaluator respects

The evaluator is the same code at every level: what differs from one level to the next is only how
the parts of a list and the body of a procedure are evaluated. A relation between computations that
agrees with the few operations on the store, and with doing one thing after another, is therefore
respected by every form and every call: related evaluations of the parts make related evaluations
of the whole (`related_evalOne`).

The relation may depend on the scope that the computation runs in. A computation in a scope that
has just been made is related in the scope around it too.

- `Congruence`: the conditions on a relation.
- `RelatesCode`: two ways to evaluate an expression that are related on every one.
- `related_evalForm`, `related_call`, `related_evalOne`: the evaluator respects the relation.
-/

set_option autoImplicit false

namespace LispRepl

namespace Eval

variable {α β : Type} {m : Eval α} {store next : Store}

theorem bind_of_ok {a : α} (h : m store = (.ok a, next)) (f : α → Eval β) :
    (m >>= f) store = f a next := by
  show andThen m f store = f a next
  rw [andThen, h]

theorem bind_of_error {e : LispError} (h : m store = (.error e, next)) (f : α → Eval β) :
    (m >>= f) store = (.error e, next) := by
  show andThen m f store = (.error e, next)
  rw [andThen, h]

end Eval

/-- A relation between computations in a scope that agrees with the operations on the store. A
binary relation may also ignore one side, and say something of each computation by itself. -/
structure Congruence (R : ScopeId → ∀ {α : Type}, Eval α → Eval α → Prop) : Prop where
  ofResult : ∀ {α : Type} (scope : ScopeId) (r : Except LispError α),
    R scope (Eval.ofResult r) (Eval.ofResult r)
  bind : ∀ {α β : Type} {scope : ScopeId} {m m' : Eval α} {f f' : α → Eval β},
    R scope m m' → (∀ a, R scope (f a) (f' a)) → R scope (m >>= f) (m' >>= f')
  lookup : ∀ scope name, R scope (Eval.lookup scope name) (Eval.lookup scope name)
  /-- A name may be bound in the scope itself alone. -/
  define : ∀ scope name value, R scope (Eval.define scope name value) (Eval.define scope name value)
  freshId : ∀ scope, R scope Eval.freshId Eval.freshId
  /-- What runs in a new scope alone. -/
  enclosed : ∀ {α : Type} (scope outer : ScopeId) (bindings : List (String × Value))
    {f f' : ScopeId → Eval α}, (∀ inner, R inner (f inner) (f' inner)) →
    R scope (Eval.enclose outer bindings >>= f) (Eval.enclose outer bindings >>= f')

/-- Two ways to evaluate expressions are related on every expression in every scope. -/
def RelatesCode (R : ScopeId → ∀ {α : Type}, Eval α → Eval α → Prop)
    (ev ev' : Evaluation) : Prop :=
  ∀ e scope, R scope (ev e scope) (ev' e scope)

variable {R : ScopeId → ∀ {α : Type}, Eval α → Eval α → Prop}

namespace Congruence

theorem pure {α : Type} (hR : Congruence R) (scope : ScopeId) (a : α) :
    R scope (Pure.pure a) (Pure.pure a) :=
  hR.ofResult scope (.ok a)

theorem fail {α : Type} (hR : Congruence R) (scope : ScopeId) (e : LispError) :
    R scope (Eval.fail e : Eval α) (Eval.fail e) :=
  hR.ofResult scope (.error e)

end Congruence

variable {ev ev' below below' : Evaluation}

/-! ## Procedures -/

theorem related_makeLambda (hR : Congruence R) (name : Option String) (params : Value)
    (body : List Value) (scope : ScopeId) :
    R scope (makeLambda name params body scope) (makeLambda name params body scope) := by
  rw [makeLambda]
  split
  · exact hR.fail scope _
  · refine hR.bind (hR.ofResult scope _) fun _ => ?_
    exact hR.bind (hR.freshId scope) fun _ => hR.pure scope _

theorem related_evalBody (hR : Congruence R) (hev : RelatesCode R ev ev') (scope : ScopeId)
    (last : Value) (es : List Value) :
    R scope (evalBody ev scope last es) (evalBody ev' scope last es) := by
  induction es generalizing last with
  | nil => exact hR.pure scope last
  | cons e es ih => exact hR.bind (hev e scope) ih

theorem related_evalEach (hR : Congruence R) (hev : RelatesCode R ev ev') (scope : ScopeId)
    (es : List Value) : R scope (evalEach ev scope es) (evalEach ev' scope es) := by
  induction es with
  | nil => exact hR.pure scope _
  | cons e es ih =>
    exact hR.bind (hev e scope) fun _ => hR.bind ih fun _ => hR.pure scope _

/-- The body of a procedure runs in a scope of its own, whatever scope the call is made in. -/
theorem related_call (hR : Congruence R) (hbelow : RelatesCode R below below') (procedure : Value)
    (args : List Value) (scope : ScopeId) :
    R scope (call below procedure args) (call below' procedure args) := by
  unfold call
  split
  · exact hR.ofResult scope _
  · dsimp only
    split
    · exact hR.enclosed scope _ _ fun inner => related_evalBody hR hbelow inner _ _
    · exact hR.fail scope _
  · exact hR.fail scope _

/-! ## Special forms -/

theorem related_evalIf (hR : Congruence R) (hev : RelatesCode R ev ev') (args : List Value)
    (scope : ScopeId) : R scope (evalIf ev args scope) (evalIf ev' args scope) := by
  simp only [evalIf]
  split
  · refine hR.bind (hev _ scope) fun _ => ?_
    split
    · exact hev _ scope
    · exact hR.pure scope _
  · refine hR.bind (hev _ scope) fun _ => ?_
    split
    · exact hev _ scope
    · exact hev _ scope
  · exact hR.fail scope _

theorem related_defineProcedure (hR : Congruence R) (name params : Value) (body : List Value)
    (scope : ScopeId) :
    R scope (defineProcedure name params body scope) (defineProcedure name params body scope) := by
  rw [defineProcedure]
  split
  · exact hR.fail scope _
  · refine hR.bind (related_makeLambda hR _ params body scope) fun _ => ?_
    exact hR.bind (hR.define scope _ _) fun _ => hR.pure scope _

theorem related_evalDefine (hR : Congruence R) (hev : RelatesCode R ev ev') (args : List Value)
    (scope : ScopeId) : R scope (evalDefine ev args scope) (evalDefine ev' args scope) := by
  simp only [evalDefine]
  split
  · refine hR.bind (hev _ scope) fun _ => ?_
    exact hR.bind (hR.define scope _ _) fun _ => hR.pure scope _
  · exact hR.fail scope _
  · exact related_defineProcedure hR _ _ _ scope
  · exact related_defineProcedure hR _ _ _ scope
  · exact related_defineProcedure hR _ _ _ scope
  · exact hR.fail scope _

theorem related_evalBindings (hR : Congruence R) (hev : RelatesCode R ev ev') (scope : ScopeId)
    (bindings : List Value) :
    R scope (evalBindings ev scope bindings) (evalBindings ev' scope bindings) := by
  induction bindings with
  | nil => exact hR.pure scope _
  | cons binding bindings ih =>
    unfold evalBindings
    split
    · rename_i heq
      cases heq
    · rename_i heq
      cases heq
      split
      · exact hR.fail scope _
      · refine hR.bind (hev _ scope) fun _ => ?_
        exact hR.bind (hR.define scope _ _) fun _ => ih
    · exact hR.fail scope _

theorem related_evalLet (hR : Congruence R) (hev : RelatesCode R ev ev') (args : List Value)
    (scope : ScopeId) : R scope (evalLet ev args scope) (evalLet ev' args scope) := by
  simp only [evalLet]
  split
  · split
    · exact hR.fail scope _
    · refine hR.enclosed scope _ _ fun inner => ?_
      refine hR.bind (related_evalBindings hR hev inner _) fun _ => ?_
      exact related_evalBody hR hev inner _ _
  · exact hR.fail scope _

theorem related_evalAnd (hR : Congruence R) (hev : RelatesCode R ev ev') (scope : ScopeId)
    (last : Value) (es : List Value) :
    R scope (evalAnd ev scope last es) (evalAnd ev' scope last es) := by
  induction es generalizing last with
  | nil => exact hR.pure scope last
  | cons e es ih =>
    refine hR.bind (hev e scope) fun v => ?_
    split
    · exact ih v
    · exact hR.pure scope v

theorem related_evalOr (hR : Congruence R) (hev : RelatesCode R ev ev') (scope : ScopeId)
    (last : Value) (es : List Value) :
    R scope (evalOr ev scope last es) (evalOr ev' scope last es) := by
  induction es generalizing last with
  | nil => exact hR.pure scope last
  | cons e es ih =>
    refine hR.bind (hev e scope) fun v => ?_
    split
    · exact hR.pure scope v
    · exact ih v

theorem related_evalForm (hR : Congruence R) (hev : RelatesCode R ev ev')
    (hbelow : RelatesCode R below below') (form : SpecialForm) (args : List Value)
    (scope : ScopeId) :
    R scope (evalForm ev below form args scope) (evalForm ev' below' form args scope) := by
  cases form with
  | quote =>
    simp only [evalForm]
    split
    · exact hR.pure scope _
    · exact hR.fail scope _
  | ifForm => exact related_evalIf hR hev args scope
  | define => exact related_evalDefine hR hev args scope
  | lambda =>
    simp only [evalForm]
    split
    · exact related_makeLambda hR _ _ _ scope
    · exact hR.fail scope _
  | letForm => exact related_evalLet hR hev args scope
  | andForm => exact related_evalAnd hR hev scope _ args
  | orForm => exact related_evalOr hR hev scope _ args
  | begin => exact related_evalBody hR hev scope _ args
  | eval =>
    simp only [evalForm]
    split
    · -- The code that is computed runs in the same scope, as the expression that computed it.
      exact hR.bind (hev _ scope) fun v => hev v scope
    · exact hR.fail scope _
  | apply =>
    simp only [evalForm]
    split
    · refine hR.bind (hev _ scope) fun procedure => ?_
      refine hR.bind (hev _ scope) fun list => ?_
      split
      · exact related_call hR hbelow procedure _ scope
      · exact related_call hR hbelow procedure _ scope
      · exact hR.fail scope _
    · exact hR.fail scope _

/-! ## Expressions -/

/-- Related evaluations of the parts of an expression, and of the bodies of procedures, make related
evaluations of the expression. -/
theorem related_evalOne (hR : Congruence R) (hev : RelatesCode R ev ev')
    (hbelow : RelatesCode R below below') :
    RelatesCode R (evalOne ev below) (evalOne ev' below') := by
  intro e scope
  simp only [evalOne]
  split
  · exact hR.lookup scope _
  · exact hR.pure scope _
  · split
    · exact related_evalForm hR hev hbelow _ _ scope
    · refine hR.bind (hev _ scope) fun procedure => ?_
      refine hR.bind (related_evalEach hR hev scope _) fun values => ?_
      exact related_call hR hbelow procedure values scope
  · exact hR.fail scope _
  · exact hR.pure scope _

/-- Evaluation with a positive number of levels: the parts are one level below, and the bodies of
procedures two, or none where there are not so many. -/
theorem eval_succ (limit levels : Nat) :
    eval limit (levels + 1) = evalOne (eval limit levels) (eval limit (levels - 1)) := by
  cases levels <;> rfl

end LispRepl

import LispRepl.Eval

/-!
# Properties of values that evaluation keeps

Evaluation builds values out of the code, the bindings and the results of builtin procedures. A
property of values is hereditary when all of these ways of building a value keep it; then every
value that evaluation gives or binds has the property, if the code and the bindings so far have
it, and every text that an error carries is that of such a value (`keeps_eval`).

- `Hereditary`: the conditions on the property.
- `Store.Every`, `LispError.Tells`: what they mean for bindings and for errors.
- `Eval.Keeps`: the statement about a computation, with one lemma for each way of composing
  computations and one for each function of the evaluator.
- `keeps_eval`, `keeps_evalSequence`: the results.
-/

set_option autoImplicit false

namespace LispRepl

/-- A property of values that evaluation cannot leave. -/
structure Hereditary (Q : Value → Prop) : Prop where
  nil : Q .nil
  unspecified : Q .unspecified
  bool : ∀ b, Q (.bool b)
  builtin : ∀ b, Q (.builtin b)
  list : ∀ {items}, (∀ v ∈ items, Q v) → Q (.list items)
  /-- A procedure whose names are those of symbols with the property. -/
  lambda : ∀ {id name params rest body scope}, (∀ n ∈ name, Q (.symbol n)) →
    (∀ p ∈ params, Q (.symbol p)) → (∀ r ∈ rest, Q (.symbol r)) → (∀ e ∈ body, Q e) →
    Q (.lambda id name params rest body scope)
  items : ∀ {items}, Q (.list items) → ∀ v ∈ items, Q v
  dotted : ∀ {items tail}, Q (.dotted items tail) → (∀ v ∈ items, Q v) ∧ Q tail
  name : ∀ {id name params rest body scope}, Q (.lambda id (some name) params rest body scope) →
    Q (.symbol name)
  body : ∀ {id name params rest body scope}, Q (.lambda id name params rest body scope) →
    ∀ e ∈ body, Q e
  apply : ∀ {b : Builtin} {args v}, (∀ a ∈ args, Q a) → b.apply args = .ok v → Q v

/-- Every bound value has the property. -/
def Store.Every (Q : Value → Prop) (st : Store) : Prop :=
  ∀ scope ∈ st.scopes, ∀ b ∈ scope.bindings, Q b.2

/-- The text of a value with the property. -/
def IsTextOf (Q : Value → Prop) (text : String) : Prop :=
  ∃ v, Q v ∧ text = v.text

/-- The error is one of evaluation, and the names and texts in it are those of values with the
property. -/
def LispError.Tells (Q : Value → Prop) : LispError → Prop
  | .lex _ | .unexpectedClose | .unexpectedEof | .tooDeep _ => False
  | .unbound name => Q (.symbol name)
  | .arity procedure _ _ =>
    procedure = "lambda" ∨ (∃ b : Builtin, procedure = b.name) ∨ Q (.symbol procedure)
  | .type _ text | .notCallable text | .malformed (.improperList text)
  | .badForm (.parameterName text) | .badForm (.parameterList text) | .badForm (.binding text) =>
    IsTextOf Q text
  | _ => True

namespace Eval

/-- A result has the property `R`, and an error tells only of values with the property `Q`. -/
def Ends (Q : Value → Prop) {α : Type} (R : α → Prop) : Except LispError α → Prop
  | .ok a => R a
  | .error e => e.Tells Q

/-- The computation leaves a store whose values have the property `Q`, and ends well. -/
def Keeps (Q : Value → Prop) {α : Type} (R : α → Prop) (m : Eval α) : Prop :=
  ∀ st, st.Every Q → (m st).2.Every Q ∧ Ends Q R (m st).1

section Composition

variable {Q : Value → Prop} {α β : Type} {R : α → Prop} {S : β → Prop}

theorem Keeps.pure {a : α} (h : R a) : Keeps Q R (Pure.pure a) :=
  fun _ hst => ⟨hst, h⟩

theorem Keeps.fail {e : LispError} (h : e.Tells Q) : Keeps Q R (Eval.fail e) :=
  fun _ hst => ⟨hst, h⟩

theorem Keeps.bind {m : Eval α} {f : α → Eval β} (hm : Keeps Q R m)
    (hf : ∀ a, R a → Keeps Q S (f a)) : Keeps Q S (m >>= f) := by
  intro st hst
  obtain ⟨hnext, hresult⟩ := hm st hst
  show (andThen m f st).2.Every Q ∧ Ends Q S (andThen m f st).1
  rw [andThen]
  -- An error leaves the store of the first computation, and the second is not begun.
  rcases hr : m st with ⟨_ | a, next⟩
  · rw [hr] at hnext hresult
    exact ⟨hnext, hresult⟩
  · rw [hr] at hnext hresult
    exact hf a hresult next hnext

theorem Keeps.ofResult {r : Except LispError α} (h : Ends Q R r) : Keeps Q R (Eval.ofResult r) :=
  fun _ hst => ⟨hst, h⟩

end Composition

end Eval

open Eval

variable {Q : Value → Prop}

/-! ## Bindings -/

theorem forall_rebind {name : String} {value : Value} {bs : List (String × Value)} (hv : Q value)
    (hbs : ∀ b ∈ bs, Q b.2) : ∀ b ∈ rebind name value bs, Q b.2 := by
  induction bs with
  | nil => simpa [rebind] using hv
  | cons head rest ih =>
    obtain ⟨key, old⟩ := head
    simp only [List.forall_mem_cons] at hbs
    rw [rebind]
    split
    · exact List.forall_mem_cons.2 ⟨hv, hbs.2⟩
    · exact List.forall_mem_cons.2 ⟨hbs.1, ih hbs.2⟩

theorem forall_foldl_rebind {pairs bs : List (String × Value)} (hpairs : ∀ p ∈ pairs, Q p.2)
    (hbs : ∀ b ∈ bs, Q b.2) :
    ∀ b ∈ pairs.foldl (fun bs (name, v) => rebind name v bs) bs, Q b.2 := by
  induction pairs generalizing bs with
  | nil => exact hbs
  | cons p rest ih =>
    simp only [List.forall_mem_cons] at hpairs
    exact ih hpairs.2 (forall_rebind hpairs.1 hbs)

theorem of_bound? {name : String} {v : Value} {bs : List (String × Value)}
    (h : bound? name bs = some v) (hbs : ∀ b ∈ bs, Q b.2) : Q v := by
  induction bs with
  | nil => simp [bound?] at h
  | cons head rest ih =>
    obtain ⟨key, value⟩ := head
    simp only [List.forall_mem_cons] at hbs
    rw [bound?] at h
    split at h
    · cases h
      exact hbs.1
    · exact ih h hbs.2

/-- A look-up, which may pass through enclosing scopes, gives a bound value. -/
theorem of_lookup? {st : Store} {name : String} {id : ScopeId} {v : Value}
    (h : st.lookup? name id = some v) (hst : st.Every Q) : Q v := by
  -- The induction is on the scope, because a scope lies in an older one.
  induction id using Nat.strongRecOn with
  | ind id ih =>
    rw [Store.lookup?] at h
    split at h
    · simp at h
    · rename_i scope hscope
      have hbs := hst scope (Array.mem_of_getElem? hscope)
      split at h
      · rename_i found hfound
        cases h
        exact of_bound? hfound hbs
      · split at h
        · simp at h
        · rename_i outer _
          split at h
          · exact ih outer ‹outer < id› h
          · simp at h

theorem keeps_lookup {name : String} (scope : ScopeId) (hname : Q (.symbol name)) :
    Keeps Q Q (Eval.lookup scope name) := by
  intro st hst
  rw [Eval.lookup]
  cases h : st.lookup? name scope with
  | none => exact ⟨hst, hname⟩
  | some v => exact ⟨hst, of_lookup? h hst⟩

theorem keeps_define {value : Value} (scope : ScopeId) (name : String) (hv : Q value) :
    Keeps Q (fun _ => True) (Eval.define scope name value) := by
  intro st hst
  refine ⟨?_, trivial⟩
  intro s hs
  obtain ⟨i, hi, rfl⟩ := Array.getElem_of_mem hs
  simp only [Eval.define, Store.define, Array.getElem_modify]
  simp only [Eval.define, Store.define, Array.size_modify] at hi
  have hbs := hst st.scopes[i] (Array.getElem_mem hi)
  split
  · exact forall_rebind hv hbs
  · exact hbs

theorem keeps_enclose {bindings : List (String × Value)} (outer : ScopeId)
    (hbs : ∀ b ∈ bindings, Q b.2) : Keeps Q (fun _ => True) (Eval.enclose outer bindings) := by
  intro st hst
  refine ⟨?_, trivial⟩
  intro s hs
  simp only [Eval.enclose, Store.enclose, Array.mem_push] at hs
  rcases hs with hs | rfl
  · exact hst s hs
  · exact hbs

theorem keeps_freshId : Keeps Q (fun _ => True) Eval.freshId :=
  fun _ hst => ⟨hst, trivial⟩

/-- Nothing but the builtin procedures is bound at first. -/
theorem every_initial_of_builtin (hbuiltin : ∀ b, Q (.builtin b)) : Store.initial.Every Q := by
  intro scope hs b hb
  simp only [Store.initial, List.mem_toArray, List.mem_singleton] at hs
  subst hs
  obtain ⟨procedure, -, rfl⟩ := List.mem_map.1 hb
  exact hbuiltin procedure

theorem every_initial (hQ : Hereditary Q) : Store.initial.Every Q :=
  every_initial_of_builtin hQ.builtin

/-! ## Builtin procedures -/

section Builtins

theorem ends_bind {α β : Type} {R : α → Prop} {S : β → Prop} {r : Except LispError α}
    {f : α → Except LispError β} (hr : Ends Q R r) (hf : ∀ a, R a → Ends Q S (f a)) :
    Ends Q S (r >>= f) := by
  cases r with
  | error e => exact hr
  | ok a => exact hf a hr

/-- The arguments are numbers, or one that is no number is told of. -/
theorem ends_toNumbers {args : List Value} (hargs : ∀ a ∈ args, Q a) :
    Ends Q (fun _ => True) (args.mapM Value.toNumber) := by
  induction args with
  | nil => trivial
  | cons a rest ih =>
    simp only [List.forall_mem_cons] at hargs
    have hhead : Ends Q (fun _ => True) a.toNumber := by
      cases a with
      | number n => trivial
      | _ => exact ⟨_, hargs.1, rfl⟩
    rw [List.mapM_cons]
    exact ends_bind hhead fun _ _ => ends_bind (ih hargs.2) fun _ _ => trivial

theorem ends_fitted (result : Option Rational) : Ends Q (fun _ => True) (fitted result) := by
  cases result <;> trivial

theorem ends_quotient (a b : Rational) : Ends Q (fun _ => True) (quotient a b) := by
  rw [quotient]
  split
  · trivial
  · exact ends_fitted _

theorem ends_foldlM {f : Rational → Rational → Except LispError Rational}
    (hf : ∀ a b, Ends Q (fun _ => True) (f a b)) (ns : List Rational) (first : Rational) :
    Ends Q (fun _ => True) (ns.foldlM f first) := by
  induction ns generalizing first with
  | nil => trivial
  | cons n rest ih =>
    rw [List.foldlM_cons]
    exact ends_bind (hf first n) fun a _ => ih a

theorem ends_difference (ns : List Rational) :
    Ends Q (fun _ => True) (Builtin.difference ns) := by
  rcases ns with _ | ⟨a, _ | ⟨b, rest⟩⟩
  · trivial
  · exact ends_fitted _
  · exact ends_foldlM (fun _ _ => ends_fitted _) _ a

theorem ends_ratio (ns : List Rational) : Ends Q (fun _ => True) (Builtin.ratio ns) := by
  rcases ns with _ | ⟨a, _ | ⟨b, rest⟩⟩
  · trivial
  · exact ends_quotient _ _
  · exact ends_foldlM ends_quotient _ a

/-- An arithmetic procedure fails for want of numbers, or without a text. -/
theorem ends_arithmetic {args : List Value} {f : List Rational → Except LispError Rational}
    (hargs : ∀ a ∈ args, Q a) (hf : ∀ ns, Ends Q (fun _ => True) (f ns)) :
    Ends Q (fun _ => True) (Builtin.onNumbers args fun ns => Value.number <$> f ns) := by
  refine ends_bind (ends_toNumbers hargs) fun ns _ => ?_
  have h := hf ns
  show Ends Q _ (Value.number <$> f ns)
  cases hr : f ns with
  | error e =>
    rw [hr] at h
    exact h
  | ok n => trivial

theorem ends_comparison {args : List Value} {f : List Rational → Bool}
    (hargs : ∀ a ∈ args, Q a) :
    Ends Q (fun _ => True) (Builtin.onNumbers args fun ns => .ok (.bool (f ns))) :=
  ends_bind (ends_toNumbers hargs) fun _ _ => trivial

theorem ends_car {v : Value} (hv : Q v) : Ends Q (fun _ => True) v.car := by
  simp only [Value.car]
  split
  all_goals first | trivial | exact ⟨_, hv, rfl⟩

theorem ends_cdr {v : Value} (hv : Q v) : Ends Q (fun _ => True) v.cdr := by
  simp only [Value.cdr]
  split
  all_goals first | trivial | exact ⟨_, hv, rfl⟩

/-- An error of a builtin procedure tells of its arguments alone. -/
theorem tells_of_apply_error {b : Builtin} {args : List Value} {e : LispError}
    (hargs : ∀ a ∈ args, Q a) (h : b.apply args = .error e) : e.Tells Q := by
  -- Only the error matters here; the value is a matter of `Hereditary.apply`.
  suffices hends : Ends Q (fun _ => True) (b.apply args) by
    rw [h] at hends
    exact hends
  rw [Builtin.apply]
  split
  case isFalse => exact .inr (.inl ⟨b, rfl⟩)
  case isTrue =>
    simp only [Builtin.result]
    split
    case h_1 => exact ends_arithmetic hargs fun ns => ends_foldlM (fun _ _ => ends_fitted _) ns _
    case h_2 => exact ends_arithmetic hargs fun ns => ends_foldlM (fun _ _ => ends_fitted _) ns _
    case h_3 => exact ends_arithmetic hargs ends_difference
    case h_4 => exact ends_arithmetic hargs ends_ratio
    case h_14 => exact ends_car (hargs _ List.mem_cons_self)
    case h_15 => exact ends_cdr (hargs _ List.mem_cons_self)
    case h_21 => exact .inr (.inl ⟨_, rfl⟩)
    all_goals first | exact ends_comparison hargs | trivial

/-- A builtin procedure gives a value with the property, or tells of its arguments. -/
theorem ends_apply (hQ : Hereditary Q) (b : Builtin) {args : List Value}
    (hargs : ∀ a ∈ args, Q a) : Ends Q Q (b.apply args) := by
  cases h : b.apply args with
  | ok v => exact hQ.apply hargs h
  | error e => exact tells_of_apply_error hargs h

end Builtins

/-! ## Procedures -/

/-- The names of parameters are those of symbols among the items. -/
theorem ends_parameterNames {items : List Value} (hitems : ∀ v ∈ items, Q v) :
    Ends Q (fun names => ∀ n ∈ names, Q (.symbol n)) (parameterNames items) := by
  rw [parameterNames]
  induction items with
  | nil => exact fun n hn => absurd hn (by simp)
  | cons item rest ih =>
    simp only [List.forall_mem_cons] at hitems
    rw [List.mapM_cons]
    refine @ends_bind _ _ _ (fun n => Q (.symbol n)) _ _ _ ?_ fun n hn =>
      ends_bind (ih hitems.2) fun names hnames => ?_
    · cases item with
      | symbol name => exact hitems.1
      | _ => exact ⟨_, hitems.1, rfl⟩
    · exact List.forall_mem_cons.2 ⟨hn, hnames⟩

theorem ends_parameters (hQ : Hereditary Q) {v : Value} (hv : Q v) :
    Ends Q (fun p => (∀ n ∈ p.1, Q (.symbol n)) ∧ ∀ r ∈ p.2, Q (.symbol r)) (parameters v) := by
  simp only [parameters]
  split
  · exact ends_bind (ends_parameterNames (hQ.items hv)) fun names hnames => ⟨hnames, by simp⟩
  · exact ⟨by simp, by simp⟩
  · exact ⟨by simp, by simpa using hv⟩
  · rename_i items tail
    obtain ⟨hitems, htail⟩ := hQ.dotted hv
    split
    · rename_i rest hrest
      refine ends_bind (ends_parameterNames hitems) fun names hnames => ⟨hnames, ?_⟩
      have hsymbol : tail = .symbol rest := by
        cases tail <;> simp [Value.symbolName?] at hrest
        rw [hrest]
      simpa [hsymbol] using htail
    · trivial
  · exact ⟨_, hv, rfl⟩

theorem keeps_makeLambda (hQ : Hereditary Q) {name : Option String} {params : Value}
    {body : List Value} (scope : ScopeId) (hname : ∀ n ∈ name, Q (.symbol n)) (hparams : Q params)
    (hbody : ∀ e ∈ body, Q e) : Keeps Q Q (makeLambda name params body scope) := by
  rw [makeLambda]
  split
  · exact .fail trivial
  · refine .bind (.ofResult (ends_parameters hQ hparams)) fun p hp => ?_
    exact .bind keeps_freshId fun id _ => .pure (hQ.lambda hname hp.1 hp.2 hbody)

/-- How a computation that evaluates code keeps the property. -/
def KeepsCode (Q : Value → Prop) (ev : Evaluation) : Prop :=
  ∀ e scope, Q e → Keeps Q Q (ev e scope)

section Evaluation

variable {ev below : Evaluation}

theorem keeps_evalBody (hev : KeepsCode Q ev) (scope : ScopeId) {last : Value} {es : List Value}
    (hlast : Q last) (hes : ∀ e ∈ es, Q e) : Keeps Q Q (evalBody ev scope last es) := by
  induction es generalizing last with
  | nil => exact .pure hlast
  | cons e rest ih =>
    simp only [List.forall_mem_cons] at hes
    exact .bind (hev e scope hes.1) fun v hv => ih hv hes.2

theorem keeps_evalEach (hev : KeepsCode Q ev) (scope : ScopeId) {es : List Value}
    (hes : ∀ e ∈ es, Q e) : Keeps Q (fun vs => ∀ v ∈ vs, Q v) (evalEach ev scope es) := by
  induction es with
  | nil => exact .pure (by simp)
  | cons e rest ih =>
    simp only [List.forall_mem_cons] at hes
    refine .bind (hev e scope hes.1) fun v hv => .bind (ih hes.2) fun vs hvs => ?_
    exact .pure (List.forall_mem_cons.2 ⟨hv, hvs⟩)

theorem forall_callBindings (hQ : Hereditary Q) {params : List String} {rest : Option String}
    {args : List Value} (hargs : ∀ a ∈ args, Q a) :
    ∀ b ∈ callBindings params rest args, Q b.2 := by
  have hzip : ∀ p ∈ params.zip args, Q p.2 := fun p hp => hargs _ (List.of_mem_zip hp).2
  have hfixed := forall_foldl_rebind hzip (List.forall_mem_nil _)
  simp only [callBindings]
  split
  · refine forall_rebind (hQ.list fun v hv => ?_) hfixed
    exact hargs v (List.mem_of_mem_drop hv)
  · exact hfixed

theorem keeps_call (hQ : Hereditary Q) (hbelow : KeepsCode Q below) {procedure : Value}
    {args : List Value} (hp : Q procedure) (hargs : ∀ a ∈ args, Q a) :
    Keeps Q Q (call below procedure args) := by
  unfold call
  split
  · rename_i b
    exact .ofResult (ends_apply hQ b hargs)
  · rename_i name params rest body scope
    dsimp only
    -- The body was stored in the value, so that it has the property as the value has.
    split
    · refine .bind (keeps_enclose _ (forall_callBindings hQ hargs)) fun inner _ => ?_
      exact keeps_evalBody hbelow inner hQ.unspecified (hQ.body hp)
    · refine .fail ?_
      cases name with
      | none => exact .inl rfl
      | some name => exact .inr (.inr (hQ.name hp))
  · exact .fail ⟨_, hp, rfl⟩

/-! ## Special forms -/

theorem keeps_evalIf (hQ : Hereditary Q) (hev : KeepsCode Q ev) {args : List Value}
    (scope : ScopeId) (hargs : ∀ a ∈ args, Q a) : Keeps Q Q (evalIf ev args scope) := by
  simp only [evalIf]
  split
  · rename_i test thenPart
    refine .bind (hev test scope (hargs _ (by simp))) fun v _ => ?_
    split
    · exact hev thenPart scope (hargs _ (by simp))
    · exact .pure hQ.unspecified
  · rename_i test thenPart elsePart
    refine .bind (hev test scope (hargs _ (by simp))) fun v _ => ?_
    split
    · exact hev thenPart scope (hargs _ (by simp))
    · exact hev elsePart scope (hargs _ (by simp))
  · exact .fail trivial

theorem keeps_defineProcedure (hQ : Hereditary Q) {name params : Value} {body : List Value}
    (scope : ScopeId) (hname : Q name) (hparams : Q params) (hbody : ∀ e ∈ body, Q e) :
    Keeps Q Q (defineProcedure name params body scope) := by
  cases name with
  | symbol n =>
    have hnames : ∀ m ∈ some n, Q (.symbol m) := by simpa using hname
    refine .bind (keeps_makeLambda hQ scope hnames hparams hbody) fun procedure hp => ?_
    exact .bind (keeps_define scope n hp) fun _ _ => .pure hQ.unspecified
  | _ => exact .fail trivial

/-- The items behind the first of a dotted list and its tail, as a list of their own. -/
theorem Hereditary.dotted_tail (hQ : Hereditary Q) {v w : Value} {items : List Value}
    {tail : Value} (h : Q (.dotted (v :: w :: items) tail)) : Q (.dotted (w :: items) tail) :=
  hQ.apply (b := .cdr) (List.forall_mem_singleton.2 h) rfl

theorem keeps_evalDefine (hQ : Hereditary Q) (hev : KeepsCode Q ev) {args : List Value}
    (scope : ScopeId) (hargs : ∀ a ∈ args, Q a) : Keeps Q Q (evalDefine ev args scope) := by
  simp only [evalDefine]
  split
  · rename_i name e
    refine .bind (hev e scope (hargs _ (by simp))) fun v hv => ?_
    exact .bind (keeps_define scope name hv) fun _ _ => .pure hQ.unspecified
  · exact .fail trivial
  · rename_i name params body
    have hitems := hQ.items (hargs (.list (name :: params)) (by simp))
    refine keeps_defineProcedure hQ scope (hitems name (by simp)) ?_ ?_
    · exact hQ.list fun v hv => hitems v (by simp [hv])
    · exact fun e he => hargs e (by simp [he])
  · rename_i name tail body
    have hparts := hQ.dotted (hargs (.dotted [name] tail) (by simp))
    refine keeps_defineProcedure hQ scope (hparts.1 name (by simp)) hparts.2 ?_
    exact fun e he => hargs e (by simp [he])
  -- A signature with a tail: what is behind the name is the `cdr` of the signature.
  · rename_i name params tail body hne
    have hsignature := hargs (.dotted (name :: params) tail) (by simp)
    have hname := (hQ.dotted hsignature).1 name (by simp)
    refine keeps_defineProcedure hQ scope hname ?_ (fun e he => hargs e (by simp [he]))
    cases params with
    | nil => exact (hne rfl).elim
    | cons p params => exact hQ.dotted_tail hsignature
  · exact .fail trivial

theorem keeps_evalBindings (hQ : Hereditary Q) (hev : KeepsCode Q ev) (scope : ScopeId)
    {bindings : List Value} (hbs : ∀ b ∈ bindings, Q b) :
    Keeps Q (fun _ => True) (evalBindings ev scope bindings) := by
  induction bindings with
  | nil => exact .pure trivial
  | cons binding rest ih =>
    simp only [List.forall_mem_cons] at hbs
    unfold evalBindings
    split
    · rename_i heq
      cases heq
    · rename_i name e bindings heq
      cases heq
      split
      · exact .fail trivial
      · rename_i n _
        refine .bind (hev e scope (hQ.items hbs.1 e (by simp))) fun v hv => ?_
        exact .bind (keeps_define scope n hv) fun _ _ => ih hbs.2
    · rename_i heq
      cases heq
      exact .fail ⟨_, hbs.1, rfl⟩

theorem keeps_evalLet (hQ : Hereditary Q) (hev : KeepsCode Q ev) {args : List Value}
    (scope : ScopeId) (hargs : ∀ a ∈ args, Q a) : Keeps Q Q (evalLet ev args scope) := by
  simp only [evalLet]
  split
  · rename_i bindings body
    split
    · exact .fail trivial
    · refine .bind (keeps_enclose scope (by simp)) fun inner _ => ?_
      have hbindings := hQ.items (hargs (.list bindings) (by simp))
      refine .bind (keeps_evalBindings hQ hev inner hbindings) fun _ _ => ?_
      exact keeps_evalBody hev inner hQ.unspecified fun e he => hargs e (by simp [he])
  · exact .fail trivial

theorem keeps_evalAnd (hev : KeepsCode Q ev) (scope : ScopeId) {last : Value} {es : List Value}
    (hlast : Q last) (hes : ∀ e ∈ es, Q e) : Keeps Q Q (evalAnd ev scope last es) := by
  induction es generalizing last with
  | nil => exact .pure hlast
  | cons e rest ih =>
    simp only [List.forall_mem_cons] at hes
    refine .bind (hev e scope hes.1) fun v hv => ?_
    split
    · exact ih hv hes.2
    · exact .pure hv

theorem keeps_evalOr (hev : KeepsCode Q ev) (scope : ScopeId) {last : Value} {es : List Value}
    (hlast : Q last) (hes : ∀ e ∈ es, Q e) : Keeps Q Q (evalOr ev scope last es) := by
  induction es generalizing last with
  | nil => exact .pure hlast
  | cons e rest ih =>
    simp only [List.forall_mem_cons] at hes
    refine .bind (hev e scope hes.1) fun v hv => ?_
    split
    · exact .pure hv
    · exact ih hv hes.2

theorem keeps_evalForm (hQ : Hereditary Q) (hev : KeepsCode Q ev) (hbelow : KeepsCode Q below)
    (form : SpecialForm) {args : List Value} (scope : ScopeId) (hargs : ∀ a ∈ args, Q a) :
    Keeps Q Q (evalForm ev below form args scope) := by
  cases form with
  | quote =>
    simp only [evalForm]
    split
    · exact .pure (hargs _ (by simp))
    · exact .fail trivial
  | ifForm => exact keeps_evalIf hQ hev scope hargs
  | define => exact keeps_evalDefine hQ hev scope hargs
  | lambda =>
    simp only [evalForm]
    split
    · rename_i params body
      exact keeps_makeLambda hQ scope (by simp) (hargs _ (by simp))
        fun e he => hargs e (by simp [he])
    · exact .fail trivial
  | letForm => exact keeps_evalLet hQ hev scope hargs
  | andForm => exact keeps_evalAnd hev scope (hQ.bool true) hargs
  | orForm => exact keeps_evalOr hev scope (hQ.bool false) hargs
  | begin => exact keeps_evalBody hev scope hQ.unspecified hargs
  | eval =>
    simp only [evalForm]
    split
    · rename_i e
      -- The value is evaluated as code in its turn.
      exact .bind (hev e scope (hargs _ (by simp))) fun v hv => hev v scope hv
    · exact .fail trivial
  | apply =>
    simp only [evalForm]
    split
    · rename_i procedure list
      refine .bind (hev procedure scope (hargs _ (by simp))) fun p hp => ?_
      refine .bind (hev list scope (hargs _ (by simp))) fun l hl => ?_
      split
      · exact keeps_call hQ hbelow hp (hQ.items hl)
      · exact keeps_call hQ hbelow hp (by simp)
      · exact .fail ⟨_, hl, rfl⟩
    · exact .fail trivial

/-! ## Expressions -/

theorem keeps_evalOne (hQ : Hereditary Q) (hev : KeepsCode Q ev) (hbelow : KeepsCode Q below) :
    KeepsCode Q (evalOne ev below) := by
  intro e scope he
  simp only [evalOne]
  split
  · exact keeps_lookup scope he
  · exact .pure he
  · rename_i head args
    have hitems := hQ.items he
    have hargs : ∀ a ∈ args, Q a := fun a ha => hitems a (by simp [ha])
    split
    · exact keeps_evalForm hQ hev hbelow _ scope hargs
    · refine .bind (hev head scope (hitems head (by simp))) fun procedure hp => ?_
      exact .bind (keeps_evalEach hev scope hargs) fun values hvs => keeps_call hQ hbelow hp hvs
  · exact .fail ⟨_, he, rfl⟩
  · exact .pure he

end Evaluation

/-- Evaluation with any number of levels keeps a hereditary property. -/
theorem keeps_eval (hQ : Hereditary Q) (limit : Nat) : ∀ levels, KeepsCode Q (eval limit levels)
  | 0 => fun _ _ _ => .fail trivial
  | 1 => keeps_evalOne hQ (keeps_eval hQ limit 0) (keeps_eval hQ limit 0)
  | n + 2 => keeps_evalOne hQ (keeps_eval hQ limit (n + 1)) (keeps_eval hQ limit n)

/-- The evaluation of a sequence of expressions keeps a hereditary property. -/
theorem keeps_evalSequence (hQ : Hereditary Q) (limit : Nat) {es : List Value}
    (hes : ∀ e ∈ es, Q e) : Keeps Q Q (evalSequence limit es) :=
  keeps_evalBody (keeps_eval hQ limit _) _ hQ.unspecified hes

end LispRepl

import LispRepl.Builtin.Apply
import LispRepl.Store
import LispRepl.Value.Parser

/-!
# Evaluation

An expression is evaluated in a scope, against a store that keeps every binding made so far,
also those made before an error. A symbol stands for its value; a list is a special form, by the
symbol at its head, or a call; every other value but a dotted list stands for itself.

Evaluation is bounded by levels. An expression needs a level; the parts of a list are evaluated
one level below it and the body of a called procedure two below. Where no level is left, the
result is the recursion limit.

- `Eval`: a computation over the store that may fail.
- `evalOne`: the value of an expression, given how to evaluate one and two levels below.
- `eval`: the value of an expression with a number of levels.
- `evalSequence`: the last value of a sequence of expressions.
-/

set_option autoImplicit false

namespace LispRepl

/-- A computation over the store: it gives a value or an error, and the store it leaves. -/
def Eval (α : Type) : Type :=
  Store → Except LispError α × Store

namespace Eval

/-- The value, with the store as it is. -/
def ret {α : Type} (a : α) : Eval α :=
  fun st => (.ok a, st)

/-- The first computation and then the one that its value asks for; an error ends both. -/
def andThen {α β : Type} (m : Eval α) (f : α → Eval β) : Eval β :=
  fun st =>
    match m st with
    | (.ok a, next) => f a next
    | (.error e, next) => (.error e, next)

instance : Monad Eval where
  pure := ret
  bind := andThen

/-- The error, with the store as it is. -/
def fail {α : Type} (e : LispError) : Eval α :=
  fun st => (.error e, st)

/-- A result that does not depend on the store. -/
def ofResult {α : Type} (r : Except LispError α) : Eval α :=
  fun st => (r, st)

/-- Binds a name in a scope. -/
def define (scope : ScopeId) (name : String) (value : Value) : Eval Unit :=
  fun st => (.ok (), st.define scope name value)

/-- Makes a scope inside another. -/
def enclose (outer : ScopeId) (bindings : List (String × Value)) : Eval ScopeId :=
  fun st => (.ok (st.enclose outer bindings).1, (st.enclose outer bindings).2)

/-- A number that no procedure has yet. -/
def freshId : Eval Nat :=
  fun st => (.ok st.freshId.1, st.freshId.2)

/-- The value of a name, seen from a scope. -/
def lookup (scope : ScopeId) (name : String) : Eval Value :=
  fun st =>
    match st.lookup? name scope with
    | some v => (.ok v, st)
    | none => (.error (.unbound name), st)

end Eval

/-- How to evaluate an expression in a scope. -/
abbrev Evaluation : Type :=
  Value → ScopeId → Eval Value

/-- The name of a symbol. -/
def Value.symbolName? : Value → Option String
  | .symbol name => some name
  | _ => none

/-! ## Procedures -/

/-- The names of a list of parameters. -/
def parameterNames (items : List Value) : Except LispError (List String) :=
  items.mapM fun item =>
    match item.symbolName? with
    | some name => .ok name
    | none => .error (.badForm (.parameterName item.text))

/-- The parameters that a parameter list names, and the one for all further arguments: a list of
symbols, such a list with a symbol as its tail, one symbol for all arguments, or `nil`. -/
def parameters : Value → Except LispError (List String × Option String)
  | .list items => do return (← parameterNames items, none)
  | .nil => .ok ([], none)
  | .symbol rest => .ok ([], some rest)
  | .dotted items tail =>
    match tail.symbolName? with
    | some rest => do return (← parameterNames items, some rest)
    | none => .error (.badForm .restParameter)
  | v => .error (.badForm (.parameterList v.text))

/-- The procedure with these parameters and this body, made in a scope. -/
def makeLambda (name : Option String) (params : Value) (body : List Value) (scope : ScopeId) :
    Eval Value := do
  if body.isEmpty then Eval.fail (.badForm .missingLambdaBody)
  else
    let (params, rest) ← Eval.ofResult (parameters params)
    let id ← Eval.freshId
    return .lambda id name params rest body scope

/-- How many arguments a procedure with these parameters takes. -/
def lambdaArguments (params : List String) (rest : Option String) : ArgumentCount :=
  match rest with
  | some _ => .atLeast params.length
  | none => .exactly params.length

/-- The bindings of a call: each parameter to its argument in order, and then the rest parameter
to the list of the arguments left over. -/
def callBindings (params : List String) (rest : Option String) (args : List Value) :
    List (String × Value) :=
  let fixed := (params.zip args).foldl (fun bs (name, v) => rebind name v bs) []
  match rest with
  | some name => rebind name (.list (args.drop params.length)) fixed
  | none => fixed

/-- The value of the last expression of a body, `last` when it has none. -/
def evalBody (ev : Evaluation) (scope : ScopeId) : Value → List Value → Eval Value
  | last, [] => pure last
  | _, e :: es => do evalBody ev scope (← ev e scope) es

/-- The values of some expressions, in order. -/
def evalEach (ev : Evaluation) (scope : ScopeId) : List Value → Eval (List Value)
  | [] => pure []
  | e :: es => do
    let v ← ev e scope
    let vs ← evalEach ev scope es
    return v :: vs

/-- The result of calling a value; the body of a procedure is evaluated by `below`. -/
def call (below : Evaluation) (procedure : Value) (args : List Value) : Eval Value :=
  match procedure with
  | .builtin b => Eval.ofResult (b.apply args)
  | .lambda _ name params rest body scope =>
    let count := lambdaArguments params rest
    if count.allows args.length then do
      let inner ← Eval.enclose scope (callBindings params rest args)
      evalBody below inner .unspecified body
    else Eval.fail (.arity (name.getD "lambda") count args.length)
  | v => Eval.fail (.notCallable v.text)

/-! ## Special forms -/

/-- The value of `(if test then [else])`. -/
def evalIf (ev : Evaluation) (args : List Value) (scope : ScopeId) : Eval Value :=
  match args with
  | [test, thenPart] => do
    if (← ev test scope).isTruthy then ev thenPart scope else pure .unspecified
  | [test, thenPart, elsePart] => do
    if (← ev test scope).isTruthy then ev thenPart scope else ev elsePart scope
  | _ => Eval.fail (.badForm .ifArguments)

/-- Defines the procedure `name` in the scope it is made in. -/
def defineProcedure (name : Value) (params : Value) (body : List Value) (scope : ScopeId) :
    Eval Value :=
  match name.symbolName? with
  | none => Eval.fail (.badForm .procedureName)
  | some name => do
    let procedure ← makeLambda (some name) params body scope
    Eval.define scope name procedure
    return .unspecified

/-- Binds a name, or the procedure that a signature names, in the scope. -/
def evalDefine (ev : Evaluation) (args : List Value) (scope : ScopeId) : Eval Value :=
  match args with
  | [.symbol name, e] => do
    let v ← ev e scope
    Eval.define scope name v
    return .unspecified
  | .symbol _ :: _ => Eval.fail (.badForm .defineArguments)
  | .list (name :: params) :: body => defineProcedure name (.list params) body scope
  | .dotted [name] tail :: body => defineProcedure name tail body scope
  | .dotted (name :: params) tail :: body => defineProcedure name (.dotted params tail) body scope
  | _ => Eval.fail (.badForm .signature)

/-- Binds the names of a binding list in order; an expression sees the names before it. -/
def evalBindings (ev : Evaluation) (scope : ScopeId) : List Value → Eval Unit
  | [] => pure ()
  | .list [name, e] :: bindings =>
    match name.symbolName? with
    | none => Eval.fail (.badForm .bindingName)
    | some name => do
      let v ← ev e scope
      Eval.define scope name v
      evalBindings ev scope bindings
  | binding :: _ => Eval.fail (.badForm (.binding binding.text))

/-- The value of a body in a new scope with the names of a binding list. -/
def evalLet (ev : Evaluation) (args : List Value) (scope : ScopeId) : Eval Value :=
  match args with
  | .list bindings :: body =>
    if body.isEmpty then Eval.fail (.badForm .missingLetBody)
    else do
      let inner ← Eval.enclose scope []
      evalBindings ev inner bindings
      evalBody ev inner .unspecified body
  | _ => Eval.fail (.badForm .bindingList)

/-- The first value that counts as false, or else the last one. -/
def evalAnd (ev : Evaluation) (scope : ScopeId) : Value → List Value → Eval Value
  | last, [] => pure last
  | _, e :: es => do
    let v ← ev e scope
    if v.isTruthy then evalAnd ev scope v es else pure v

/-- The first value that counts as true, or else the last one. -/
def evalOr (ev : Evaluation) (scope : ScopeId) : Value → List Value → Eval Value
  | last, [] => pure last
  | _, e :: es => do
    let v ← ev e scope
    if v.isTruthy then pure v else evalOr ev scope v es

/-- The value of a special form; `ev` evaluates its parts and `below` the body of a procedure. -/
def evalForm (ev below : Evaluation) (form : SpecialForm) (args : List Value) (scope : ScopeId) :
    Eval Value :=
  match form with
  | .quote =>
    match args with
    | [datum] => pure datum
    | _ => Eval.fail (.badForm .quoteArguments)
  | .ifForm => evalIf ev args scope
  | .define => evalDefine ev args scope
  | .lambda =>
    match args with
    | params :: body => makeLambda none params body scope
    | [] => Eval.fail (.badForm .missingParameters)
  | .letForm => evalLet ev args scope
  | .andForm => evalAnd ev scope (.bool true) args
  | .orForm => evalOr ev scope (.bool false) args
  | .begin => evalBody ev scope .unspecified args
  | .eval =>
    match args with
    | [e] => do ev (← ev e scope) scope
    | _ => Eval.fail (.badForm .evalArguments)
  | .apply =>
    match args with
    | [procedure, list] => do
      let procedure ← ev procedure scope
      match ← ev list scope with
      | .list items => call below procedure items
      | .nil => call below procedure []
      | v => Eval.fail (.type .list v.text)
    | _ => Eval.fail (.badForm .applyArguments)

/-! ## Expressions -/

/-- The special form that a list with this head is. -/
def Value.formName? (head : Value) : Option SpecialForm :=
  head.symbolName?.bind SpecialForm.ofName?

/-- The value of an expression; `ev` evaluates the parts of a list and `below` the body of a
procedure. -/
def evalOne (ev below : Evaluation) (e : Value) (scope : ScopeId) : Eval Value :=
  match e with
  | .symbol name => Eval.lookup scope name
  | .list [] => pure (.list [])
  | .list (head :: args) =>
    match head.formName? with
    | some form => evalForm ev below form args scope
    | none => do
      let procedure ← ev head scope
      let values ← evalEach ev scope args
      call below procedure values
  | .dotted items tail => Eval.fail (.malformed (.improperList (Value.dotted items tail).text))
  | v => pure v

/-- The value of an expression with a number of levels. -/
def eval (limit : Nat) : Nat → Evaluation
  | 0 => fun _ _ => Eval.fail (.recursionLimit limit)
  | 1 => evalOne (eval limit 0) (eval limit 0)
  | n + 2 => evalOne (eval limit (n + 1)) (eval limit n)

/-- The value of the last of some expressions in the global scope, where evaluation nests at most
`limit` deep. -/
def evalSequence (limit : Nat) (es : List Value) : Eval Value :=
  evalBody (eval limit (limit + 1)) Store.globalId .unspecified es

/-- The bound on nesting where none is given. -/
def defaultMaxDepth : Nat := 512

/-- The text of the value of a whole text, in a global scope of its own; nesting of data and of
evaluation is bounded by the same limit. -/
def evalSource (limit : Nat) (source : String) : Except LispError String := do
  let es ← readSource limit source
  let v ← (evalSequence limit es Store.initial).1
  return v.text

end LispRepl

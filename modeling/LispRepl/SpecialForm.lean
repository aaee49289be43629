/-!
# Special forms

The forms that are evaluated by rules of their own. A list is one of them when its head is the
symbol of that name, whatever the name is bound to.

- `SpecialForm`, `SpecialForm.all`: the forms, in their listed order.
- `SpecialForm.name`, `SpecialForm.ofName?`: a form and its symbol.
- `FormFault`: what can be wrong with the shape of a form.
-/

set_option autoImplicit false

namespace LispRepl

/-- The forms with rules of their own. -/
inductive SpecialForm where
  | define
  | letForm
  | lambda
  | ifForm
  | andForm
  | orForm
  | quote
  | eval
  | apply
  | begin
deriving DecidableEq

namespace SpecialForm

/-- Every special form. -/
def all : List SpecialForm :=
  [.define, .letForm, .lambda, .ifForm, .andForm, .orForm, .quote, .eval, .apply, .begin]

/-- The symbol that a form is written with. -/
def name : SpecialForm → String
  | .define => "define"
  | .letForm => "let"
  | .lambda => "lambda"
  | .ifForm => "if"
  | .andForm => "and"
  | .orForm => "or"
  | .quote => "quote"
  | .eval => "eval"
  | .apply => "apply"
  | .begin => "begin"

/-- The form with this name, if there is one. -/
def ofName? (s : String) : Option SpecialForm :=
  all.find? fun form => form.name == s

theorem mem_all (form : SpecialForm) : form ∈ all := by
  cases form <;> decide

theorem name_injective {a b : SpecialForm} (h : a.name = b.name) : a = b := by
  cases a <;> cases b <;> first | rfl | exact absurd h (by decide)

theorem ofName?_name (form : SpecialForm) : ofName? form.name = some form := by
  cases form <;> rfl

end SpecialForm

/-- What can be wrong with the shape of a special form. Texts are the printed form of the
offending part. -/
inductive FormFault where
  | ifArguments
  | defineArguments
  | procedureName
  | signature
  | missingParameters
  | missingLambdaBody
  | parameterName (text : String)
  | restParameter
  | parameterList (text : String)
  | bindingList
  | missingLetBody
  | bindingName
  | binding (text : String)
  | quoteArguments
  | evalArguments
  | applyArguments
deriving DecidableEq

namespace FormFault

/-- The form that the fault belongs to. -/
def form : FormFault → SpecialForm
  | .ifArguments => .ifForm
  | .defineArguments | .procedureName | .signature => .define
  | .missingParameters | .missingLambdaBody | .parameterName _ | .restParameter
  | .parameterList _ => .lambda
  | .bindingList | .missingLetBody | .bindingName | .binding _ => .letForm
  | .quoteArguments => .quote
  | .evalArguments => .eval
  | .applyArguments => .apply

/-- The wording of what the form should have been. -/
def reason : FormFault → String
  | .ifArguments => "expected (if test then [else])"
  | .defineArguments => "expected (define name value)"
  | .procedureName => "procedure name must be a symbol"
  | .signature => "expected a name or a signature"
  | .missingParameters => "missing parameter list"
  | .missingLambdaBody => "missing body"
  | .parameterName text => "parameter " ++ text ++ " is not a symbol"
  | .restParameter => "rest parameter must be a symbol"
  | .parameterList text => "invalid parameter list " ++ text
  | .bindingList => "expected a binding list"
  | .missingLetBody => "missing body"
  | .bindingName => "binding name must be a symbol"
  | .binding text => "malformed binding " ++ text
  | .quoteArguments => "expected exactly one datum"
  | .evalArguments => "expected exactly one expression"
  | .applyArguments => "expected (apply procedure list)"

end FormFault

end LispRepl

import LispRepl.SpecialForm
import LispRepl.Token

/-!
# Errors of reading and evaluation

One type for everything that can go wrong between a text and its value. An error carries its
cause; the wording is in one place. Values stand in an error by their printed form.

- `SyntaxFault`, `ArgumentCount`, `ListPart`, `Expectation`: the details of some errors.
- `LispError`: the errors.
- `LispError.message`: their wording.
-/

set_option autoImplicit false

namespace LispRepl

/-- A sequence of tokens, or a form, that is not well formed. -/
inductive SyntaxFault where
  /-- A point where a datum should begin. -/
  | strayDot
  /-- A point right behind an opening bracket. -/
  | leadingDot
  /-- Something other than a closing bracket behind the tail of a list. -/
  | tailNotClosed
  /-- A list with a tail is no expression. -/
  | improperList (text : String)
deriving DecidableEq

/-- The wording of a syntax fault. -/
def SyntaxFault.reason : SyntaxFault → String
  | .strayDot => "unexpected '.'"
  | .leadingDot => "'.' needs a preceding item"
  | .tailNotClosed => "expected ')' after dotted tail"
  | .improperList text => "cannot evaluate improper list " ++ text

/-- How many arguments a procedure takes. -/
inductive ArgumentCount where
  | exactly (count : Nat)
  | atLeast (count : Nat)
deriving DecidableEq

namespace ArgumentCount

/-- The count is one that the procedure takes. -/
def allows : ArgumentCount → Nat → Bool
  | .exactly n, got => got == n
  | .atLeast n, got => n ≤ got

/-- The wording of an argument count. -/
def text : ArgumentCount → String
  | .exactly n => Text.natText n
  | .atLeast n => "at least " ++ Text.natText n

end ArgumentCount

/-- The parts that an empty list does not have. -/
inductive ListPart where
  | car
  | cdr
deriving DecidableEq

/-- The procedure that takes the part. -/
def ListPart.name : ListPart → String
  | .car => "car"
  | .cdr => "cdr"

/-- The kinds of value that an argument may have to be. -/
inductive Expectation where
  | number
  | list
deriving DecidableEq

/-- The wording of an expected kind. -/
def Expectation.text : Expectation → String
  | .number => "a number"
  | .list => "a list"

/-- Everything that can go wrong between a text and its value. -/
inductive LispError where
  | lex (fault : LexError)
  | unexpectedClose
  | unexpectedEof
  | malformed (fault : SyntaxFault)
  /-- Lists and quotes nest deeper than the limit on data. -/
  | tooDeep (limit : Nat)
  | unbound (name : String)
  | type (expected : Expectation) (found : String)
  | arity (procedure : String) (expected : ArgumentCount) (got : Nat)
  | divisionByZero
  | overflow
  | notCallable (text : String)
  | emptyList (part : ListPart)
  | badForm (fault : FormFault)
  /-- Evaluation nests deeper than the limit. -/
  | recursionLimit (limit : Nat)
deriving DecidableEq

/-- The wording of an error. -/
def LispError.message : LispError → String
  | .lex fault => fault.message
  | .unexpectedClose => "Unexpected ')'"
  | .unexpectedEof => "Unexpected EOF while parsing"
  | .malformed fault => "Syntax error: " ++ fault.reason
  | .tooDeep limit => "Expression nested deeper than " ++ Text.natText limit ++ " levels"
  | .unbound name => "Symbol " ++ name ++ " not found"
  | .type expected found => "Expected " ++ expected.text ++ ", found " ++ found
  | .arity procedure expected got =>
    procedure ++ " expects " ++ expected.text ++ " argument(s), got " ++ Text.natText got
  | .divisionByZero => "Division by zero"
  | .overflow => "Arithmetic overflow"
  | .notCallable text => text ++ " is not a procedure"
  | .emptyList part => part.name ++ " called on empty list"
  | .badForm fault => "Invalid " ++ fault.form.name ++ " form: " ++ fault.reason
  | .recursionLimit limit => "Recursion limit of " ++ Text.natText limit ++ " exceeded"

end LispRepl

import LispRepl.LispError
import LispRepl.Value.Printer

/-!
# What the builtin procedures do

Every builtin procedure is a function of its arguments alone. A procedure with a fixed count of
arguments checks the count before it looks at any of them; the arithmetic procedures then need
every argument to be a number. Sums, differences, products and quotients go from left to right,
and each partial result has to fit.

- `Builtin.arguments`: how many arguments a procedure takes.
- `Builtin.apply`: its result on some arguments.
- `Value.cons`, `Value.car`, `Value.cdr`: the pair operations on lists.
-/

set_option autoImplicit false

namespace LispRepl

namespace Value

/-- The list with one more item in front; a tail that is no list makes a dotted list. -/
def cons (head : Value) : Value → Value
  | .nil => .list [head]
  | .list items => .list (head :: items)
  | .dotted items tail => .dotted (head :: items) tail
  | tail => .dotted [head] tail

/-- The first item of a list. -/
def car : Value → Except LispError Value
  | .list (v :: _) => .ok v
  | .dotted (v :: _) _ => .ok v
  | .nil | .list [] | .dotted [] _ => .error (.emptyList .car)
  | v => .error (.type .list v.text)

/-- What a list holds behind its first item. -/
def cdr : Value → Except LispError Value
  | .list (_ :: items) => .ok (.list items)
  | .dotted [_] tail => .ok tail
  | .dotted items tail => .ok (.dotted items.tail tail)
  | .nil | .list [] => .error (.emptyList .cdr)
  | v => .error (.type .list v.text)

/-- The number that a value is. -/
def toNumber : Value → Except LispError Rational
  | .number n => .ok n
  | v => .error (.type .number v.text)

end Value

/-- The result of an operation, an overflow when it has none. -/
def fitted (result : Option Rational) : Except LispError Rational :=
  match result with
  | some n => .ok n
  | none => .error .overflow

/-- Neighbours in the sequence are all related. -/
def chained (holds : Rational → Rational → Bool) : List Rational → Bool
  | a :: b :: rest => holds a b && chained holds (b :: rest)
  | _ => true

/-- The quotient of two numbers. -/
def quotient (a b : Rational) : Except LispError Rational :=
  if b.isZero then .error .divisionByZero else fitted (a.div? b)

namespace Builtin

/-- How many arguments a procedure takes. -/
def arguments : Builtin → ArgumentCount
  | .add | .mul | .list => .atLeast 0
  | .sub | .div | .numEq | .less | .greater | .lessEq | .greaterEq => .atLeast 1
  | .eq | .cons => .exactly 2
  | .not | .car | .cdr | .isNull | .isNumber | .isSymbol | .isBoolean | .isProcedure =>
    .exactly 1

/-- The sum of numbers. -/
def sum (numbers : List Rational) : Except LispError Rational :=
  numbers.foldlM (fun a b => fitted (a.add? b)) Rational.zero

/-- The product of numbers. -/
def product (numbers : List Rational) : Except LispError Rational :=
  numbers.foldlM (fun a b => fitted (a.mul? b)) Rational.one

/-- The first number less all others; a number alone with the other sign. -/
def difference : List Rational → Except LispError Rational
  | [] => .ok Rational.zero
  | [a] => fitted a.neg?
  | a :: rest => rest.foldlM (fun a b => fitted (a.sub? b)) a

/-- The first number divided by all others; the reciprocal of a number alone. -/
def ratio : List Rational → Except LispError Rational
  | [] => .ok Rational.one
  | [a] => quotient Rational.one a
  | a :: rest => rest.foldlM quotient a

/-- The result of an arithmetic procedure on numbers. -/
def onNumbers (args : List Value) (f : List Rational → Except LispError Value) :
    Except LispError Value :=
  args.mapM Value.toNumber >>= f

/-- The empty list or `nil`. -/
def nullValue : Value → Bool
  | .nil => true
  | .list [] => true
  | _ => false

/-- The relation that a comparison asks of neighbours. -/
def relation : Builtin → Rational → Rational → Bool
  | .less, a, b => a.cmp b == .lt
  | .greater, a, b => a.cmp b == .gt
  | .lessEq, a, b => a.cmp b != .gt
  | .greaterEq, a, b => a.cmp b != .lt
  | _, a, b => decide (a = b)

/-- The result of a procedure on as many arguments as it takes. -/
def result : Builtin → List Value → Except LispError Value
  | .add, args => onNumbers args fun ns => .number <$> sum ns
  | .mul, args => onNumbers args fun ns => .number <$> product ns
  | .sub, args => onNumbers args fun ns => .number <$> difference ns
  | .div, args => onNumbers args fun ns => .number <$> ratio ns
  | .numEq, args => onNumbers args fun ns => .ok (.bool (chained (relation .numEq) ns))
  | .less, args => onNumbers args fun ns => .ok (.bool (chained (relation .less) ns))
  | .greater, args => onNumbers args fun ns => .ok (.bool (chained (relation .greater) ns))
  | .lessEq, args => onNumbers args fun ns => .ok (.bool (chained (relation .lessEq) ns))
  | .greaterEq, args => onNumbers args fun ns => .ok (.bool (chained (relation .greaterEq) ns))
  | .list, args => .ok (.list args)
  | .eq, [a, b] => .ok (.bool (a.same b))
  | .cons, [a, b] => .ok (.cons a b)
  | .not, [v] => .ok (.bool (!v.isTruthy))
  | .car, [v] => v.car
  | .cdr, [v] => v.cdr
  | .isNull, [v] => .ok (.bool (nullValue v))
  | .isNumber, [v] => .ok (.bool (v.typeName == "number"))
  | .isSymbol, [v] => .ok (.bool (v.typeName == "symbol"))
  | .isBoolean, [v] => .ok (.bool (v.typeName == "boolean"))
  | .isProcedure, [v] => .ok (.bool v.isProcedure)
  | b, args => .error (.arity b.name b.arguments args.length)

/-- The result of a procedure on some arguments. -/
def apply (b : Builtin) (args : List Value) : Except LispError Value :=
  if b.arguments.allows args.length then b.result args
  else .error (.arity b.name b.arguments args.length)

end Builtin

end LispRepl

/-!
# Builtin procedures

The procedures that the global scope starts with, named. What they do is in
`LispRepl.Builtin.Apply`.

- `Builtin`, `Builtin.all`: the procedures, in their listed order.
- `Builtin.name`: the symbol each is bound to.
-/

set_option autoImplicit false

namespace LispRepl

/-- The builtin procedures. -/
inductive Builtin where
  | add
  | sub
  | mul
  | div
  | numEq
  | less
  | greater
  | lessEq
  | greaterEq
  | eq
  | not
  | list
  | cons
  | car
  | cdr
  | isNull
  | isNumber
  | isSymbol
  | isBoolean
  | isProcedure
deriving DecidableEq

namespace Builtin

/-- Every builtin procedure. -/
def all : List Builtin :=
  [.add, .sub, .mul, .div, .numEq, .less, .greater, .lessEq, .greaterEq, .eq, .not,
   .list, .cons, .car, .cdr, .isNull, .isNumber, .isSymbol, .isBoolean, .isProcedure]

/-- The symbol that a procedure is bound to. -/
def name : Builtin → String
  | .add => "+"
  | .sub => "-"
  | .mul => "*"
  | .div => "/"
  | .numEq => "="
  | .less => "<"
  | .greater => ">"
  | .lessEq => "<="
  | .greaterEq => ">="
  | .eq => "eq?"
  | .not => "not"
  | .list => "list"
  | .cons => "cons"
  | .car => "car"
  | .cdr => "cdr"
  | .isNull => "null?"
  | .isNumber => "number?"
  | .isSymbol => "symbol?"
  | .isBoolean => "boolean?"
  | .isProcedure => "procedure?"

theorem mem_all (b : Builtin) : b ∈ all := by
  cases b <;> decide

theorem name_injective {a b : Builtin} (h : a.name = b.name) : a = b := by
  cases a <;> cases b <;> first | rfl | exact absurd h (by decide)

end Builtin

end LispRepl

import LispRepl.Builtin
import LispRepl.Rational

/-!
# Values

Code and data share one type: reading a text gives values, and evaluation takes a value and gives
a value. A list keeps its items side by side; a dotted list has items and a tail. A lambda holds
the scope it was made in by number, and a number of its own, by which alone it is compared.

- `Value`: the values.
- `Value.same`: equality by structure, of lambdas by identity.
- `Value.join`: items before a tail, the tail spliced in when it is a list.
- `Value.isTruthy`, `Value.isProcedure`, `Value.typeName`: small observations.
- `Value.height`: how deep a value nests.
-/

set_option autoImplicit false

namespace LispRepl

/-- The number of a scope in the store. -/
abbrev ScopeId := Nat

/-- A value. -/
inductive Value where
  | nil
  /-- The result of a form that is evaluated for its effect alone. -/
  | unspecified
  | bool (value : Bool)
  | number (value : Rational)
  | string (text : String)
  | symbol (name : String)
  | list (items : List Value)
  /-- Items before a point, and the tail behind it. -/
  | dotted (items : List Value) (tail : Value)
  | builtin (procedure : Builtin)
  /-- A procedure made by evaluation: its identity, the name it was defined under, its parameters,
  the parameter for all further arguments, its body, and the scope it was made in. -/
  | lambda (id : Nat) (name : Option String) (params : List String) (rest : Option String)
      (body : List Value) (scope : ScopeId)

namespace Value

instance : Inhabited Value := ⟨.nil⟩

/-- Every value but `false` and `nil` counts as true. -/
def isTruthy : Value → Bool
  | .bool false => false
  | .nil => false
  | _ => true

/-- The value can be called. -/
def isProcedure : Value → Bool
  | .builtin _ => true
  | .lambda .. => true
  | _ => false

/-- The name of the kind of a value. -/
def typeName : Value → String
  | .nil => "nil"
  | .unspecified => "unspecified"
  | .bool _ => "boolean"
  | .number _ => "number"
  | .string _ => "string"
  | .symbol _ => "symbol"
  | .list _ | .dotted .. => "list"
  | .builtin _ | .lambda .. => "procedure"

mutual

/-- The values are equal: by structure, and lambdas by identity. -/
def same : Value → Value → Bool
  | .nil, .nil => true
  | .unspecified, .unspecified => true
  | .bool a, .bool b => a == b
  | .number a, .number b => decide (a = b)
  | .string a, .string b => a == b
  | .symbol a, .symbol b => a == b
  | .list a, .list b => sameItems a b
  | .dotted a x, .dotted b y => sameItems a b && same x y
  | .builtin a, .builtin b => decide (a = b)
  | .lambda a .., .lambda b .. => a == b
  | _, _ => false

/-- Two sequences are equal item by item. -/
def sameItems : List Value → List Value → Bool
  | [], [] => true
  | a :: as, b :: bs => same a b && sameItems as bs
  | _, _ => false

end

/-- The items before a tail. A tail that is a list, with or without a tail of its own, is spliced
in, so that the tail of a dotted list is never a list. -/
def join (items : List Value) : Value → Value
  | .list rest => .list (items ++ rest)
  | .dotted rest tail => .dotted (items ++ rest) tail
  | tail => .dotted items tail

mutual

/-- How deep a value nests: one for an atom, and one more than its deepest part otherwise. -/
def height : Value → Nat
  | .list items => 1 + heightItems items
  | .dotted items tail => 1 + max (heightItems items) tail.height
  | .lambda _ _ _ _ body _ => 1 + heightItems body
  | _ => 1

/-- The greatest height of the items. -/
def heightItems : List Value → Nat
  | [] => 0
  | v :: vs => max v.height (heightItems vs)

end

end Value

end LispRepl

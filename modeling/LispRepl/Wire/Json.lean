import LispRepl.DoubleRange
import LispRepl.Text.Decimal

/-!
# JSON texts

The values that a JSON text denotes, as far as messages need them. Reading follows the grammar
alone, so that a part of a message that nobody looks at may hold what the grammar allows and no
character or number stands for: an escape that is half of a surrogate pair, or a number too large
for a double. Such parts are kept as what they are, and `Json.isSound` tells whether there are any.

- `Json`: the values. The fields of an object keep their order and may repeat.
- `Json.parse?`: the value of a text, surrounded by JSON's own white space.
- `Json.isSound`: every string is one, every number has a value, and nesting is bounded.
- `Json.stringChars`: the written form of a string.
-/

set_option autoImplicit false

namespace LispRepl

/-- A number of a JSON text. -/
inductive JsonNumber where
  /-- Digits alone, below 2^64. -/
  | word (n : Nat)
  /-- Any other number, and whether its magnitude is within the range of doubles. -/
  | other (inRange : Bool)
deriving DecidableEq

/-- A value of a JSON text. A string is none where an escape is half of a surrogate pair. -/
inductive Json where
  | null
  | bool (value : Bool)
  | number (value : JsonNumber)
  | string (value : Option (List Char))
  | array (items : List Json)
  | object (fields : List (Option (List Char) × Json))

namespace Json

/-! ## Strings -/

/-- A unit of a string: a character, or the number that an escape gives. -/
inductive StringUnit where
  | char (c : Char)
  | code (n : Nat)
deriving DecidableEq

/-- The value of a hexadecimal digit. -/
def hexValue? (c : Char) : Option Nat :=
  if Text.isDigit c then some (c.toNat - 48)
  else if 'a' ≤ c ∧ c ≤ 'f' then some (c.toNat - 87)
  else if 'A' ≤ c ∧ c ≤ 'F' then some (c.toNat - 55)
  else none

/-- The value of four hexadecimal digits. -/
def hex4? (a b c d : Char) : Option Nat := do
  return (((← hexValue? a) * 16 + (← hexValue? b)) * 16 + (← hexValue? c)) * 16 + (← hexValue? d)

/-- The character that a backslash and `c` stand for. -/
def unescape? (c : Char) : Option Char :=
  if c = '"' then some '"'
  else if c = '\\' then some '\\'
  else if c = '/' then some '/'
  else if c = 'b' then some '\x08'
  else if c = 'f' then some '\x0c'
  else if c = 'n' then some '\n'
  else if c = 'r' then some '\r'
  else if c = 't' then some '\t'
  else none

/-- The units of a string up to its closing quote, and the text behind it. -/
def stringUnits? : List Char → Option (List StringUnit × List Char)
  | [] => none
  | '"' :: rest => some ([], rest)
  | '\\' :: 'u' :: a :: b :: c :: d :: rest => do
    let n ← hex4? a b c d
    let (units, rest) ← stringUnits? rest
    return (.code n :: units, rest)
  | '\\' :: c :: rest => do
    let c ← unescape? c
    let (units, rest) ← stringUnits? rest
    return (.char c :: units, rest)
  | c :: rest =>
    if c = '\\' ∨ c < ' ' then none
    else do
      let (units, rest) ← stringUnits? rest
      return (.char c :: units, rest)

/-- The number is the first half of a surrogate pair. -/
def isHigh (n : Nat) : Bool := 0xd800 ≤ n && n ≤ 0xdbff

/-- The number is the second half of a surrogate pair. -/
def isLow (n : Nat) : Bool := 0xdc00 ≤ n && n ≤ 0xdfff

/-- The characters of the units, pairs of surrogates joined; none where half a pair is left. -/
def joinUnits : List StringUnit → Option (List Char)
  | [] => some []
  | .char c :: rest => (joinUnits rest).map (c :: ·)
  | .code high :: .code low :: rest =>
    if isHigh high then
      if isLow low then
        (joinUnits rest).map
          (Char.ofNat (0x10000 + (high - 0xd800) * 0x400 + (low - 0xdc00)) :: ·)
      else none
    else if isLow high then none
    else (joinUnits (.code low :: rest)).map (Char.ofNat high :: ·)
  | .code n :: rest =>
    if isHigh n || isLow n then none else (joinUnits rest).map (Char.ofNat n :: ·)

/-! ## Numbers -/

/-- The digits at the start of a text, and the text behind them. -/
def spanDigits (cs : List Char) : List Char × List Char :=
  (cs.takeWhile Text.isDigit, cs.dropWhile Text.isDigit)

/-- The digits behind a point, if there is one. -/
def fraction? : List Char → Option (List Char × List Char)
  | '.' :: cs =>
    match spanDigits cs with
    | ([], _) => none
    | (digits, rest) => some (digits, rest)
  | cs => some ([], cs)

/-- The power of ten behind the mark of an exponent, if there is one, and whether there is. -/
def exponent? : List Char → Option ((Bool × Int) × List Char)
  | c :: cs =>
    if c = 'e' ∨ c = 'E' then
      let (negative, cs) :=
        match cs with
        | '-' :: cs => (true, cs)
        | '+' :: cs => (false, cs)
        | cs => (false, cs)
      match spanDigits cs with
      | ([], _) => none
      | (digits, rest) =>
        let n : Int := Text.digitsValue digits
        some ((true, if negative then -n else n), rest)
    else some ((false, 0), c :: cs)
  | [] => some ((false, 0), [])

/-- The digits as long as the number stays below 2^64, put behind the digits of `kept`: that
number, and how many digits are left out. -/
def keepDigits (kept : Nat) : List Char → Nat × Nat
  | [] => (kept, 0)
  | c :: cs =>
    let n := 10 * kept + Text.digitValue c
    if n < UInt64.size then keepDigits n cs else (kept, cs.length + 1)

/-- The number with these digits before and behind the point, times ten to the power `power`, is
within the range of doubles. Only the leading digits count; each digit left out before the point
counts as a power of ten. -/
def isWithinRange (whole part : List Char) (power : Int) : Bool :=
  let (n, above) := keepDigits 0 whole
  let (n, below) := keepDigits n part
  isDoubleProduct n (power + above + below - part.length)

/-- The number at the start of a text, behind its sign if it has one. -/
def unsigned? (negative : Bool) (cs : List Char) : Option (JsonNumber × List Char) := do
  let (whole, rest) := spanDigits cs
  if whole = [] ∨ (whole.head? = some '0' ∧ 1 < whole.length) then none
  let (part, rest) ← fraction? rest
  let ((marked, power), rest) ← exponent? rest
  let n := Text.digitsValue whole
  if !negative && part = [] && !marked && n < UInt64.size then return (.word n, rest)
  else return (.other (isWithinRange whole part power), rest)

/-- The number at the start of a text. -/
def number? : List Char → Option (JsonNumber × List Char)
  | '-' :: cs => unsigned? true cs
  | cs => unsigned? false cs

/-! ## Values -/

/-- JSON's own white space. -/
def isSpace (c : Char) : Bool :=
  c == ' ' || c == '\n' || c == '\t' || c == '\r'

/-- The text without white space at its start. -/
def skipSpace (cs : List Char) : List Char :=
  cs.dropWhile isSpace

/-- The text behind a word that it starts with. -/
def afterWord? (word cs : List Char) : Option (List Char) :=
  if word.isPrefixOf cs then some (cs.drop word.length) else none

mutual

/-- The value at the start of a text, white space before it, and the text behind it. -/
def value? : Nat → List Char → Option (Json × List Char)
  | 0, _ => none
  | fuel + 1, cs =>
    match skipSpace cs with
    | [] => none
    | '"' :: cs => do
      let (units, rest) ← stringUnits? cs
      return (.string (joinUnits units), rest)
    | '[' :: cs =>
      match skipSpace cs with
      | ']' :: rest => some (.array [], rest)
      | cs => do
        let (items, rest) ← items? fuel cs
        return (.array items, rest)
    | '\x7b' :: cs =>
      match skipSpace cs with
      | '\x7d' :: rest => some (.object [], rest)
      | cs => do
        let (fields, rest) ← fields? fuel cs
        return (.object fields, rest)
    | 'n' :: cs => do return (.null, ← afterWord? "ull".toList cs)
    | 't' :: cs => do return (.bool true, ← afterWord? "rue".toList cs)
    | 'f' :: cs => do return (.bool false, ← afterWord? "alse".toList cs)
    | cs => do
      let (n, rest) ← number? cs
      return (.number n, rest)

/-- The items of an array that is not empty, up to its bracket. -/
def items? : Nat → List Char → Option (List Json × List Char)
  | 0, _ => none
  | fuel + 1, cs => do
    let (v, rest) ← value? fuel cs
    match skipSpace rest with
    | ']' :: rest => some ([v], rest)
    | ',' :: rest => do
      let (vs, rest) ← items? fuel rest
      return (v :: vs, rest)
    | _ => none

/-- The fields of an object that is not empty, up to its brace. -/
def fields? : Nat → List Char → Option (List (Option (List Char) × Json) × List Char)
  | 0, _ => none
  | fuel + 1, cs =>
    match skipSpace cs with
    | '"' :: cs => do
      let (units, rest) ← stringUnits? cs
      match skipSpace rest with
      | ':' :: rest => do
        let (v, rest) ← value? fuel rest
        match skipSpace rest with
        | '\x7d' :: rest => some ([(joinUnits units, v)], rest)
        | ',' :: rest => do
          let (fs, rest) ← fields? fuel rest
          return ((joinUnits units, v) :: fs, rest)
        | _ => none
      | _ => none
    | _ => none

end

/-- The value of a whole text. A value takes at least a character, and so does each item or field
before it, so that the fuel does not run out. -/
def parse? (cs : List Char) : Option Json := do
  let (v, rest) ← value? (2 * cs.length + 1) cs
  if skipSpace rest = [] then some v else none

mutual

/-- Every string in the value is one, every number is within range, and arrays and objects nest
no deeper than the levels given. -/
def isSound : Nat → Json → Bool
  | _, .null => true
  | _, .bool _ => true
  | _, .number (.word _) => true
  | _, .number (.other inRange) => inRange
  | _, .string s => s.isSome
  | levels, .array items => 0 < levels && areSound (levels - 1) items
  | levels, .object fields => 0 < levels && fieldsSound (levels - 1) fields

/-- The same of every item. -/
def areSound : Nat → List Json → Bool
  | _, [] => true
  | levels, v :: vs => isSound levels v && areSound levels vs

/-- The same of every field and its name. -/
def fieldsSound : Nat → List (Option (List Char) × Json) → Bool
  | _, [] => true
  | levels, (name, v) :: fs => name.isSome && isSound levels v && fieldsSound levels fs

end

/-- The number of a word. -/
def toWord? : Json → Option Nat
  | .number (.word n) => some n
  | _ => none

/-- A truth value. -/
def toBool? : Json → Option Bool
  | .bool b => some b
  | _ => none

/-- The text of a string. -/
def toText? : Json → Option String
  | .string (some cs) => some (String.ofList cs)
  | _ => none

/-! ## Writing -/

/-- The two hexadecimal digits of a number below 256. -/
def hex2 (n : Nat) : List Char :=
  [Nat.digitChar (n / 16), Nat.digitChar (n % 16)]

/-- The written form of one character of a string: the quote, the backslash and five controls
have short escapes, the other controls are written by number, and all else stands for itself. -/
def escapeChar (c : Char) : List Char :=
  if c = '"' then ['\\', '"']
  else if c = '\\' then ['\\', '\\']
  else if c = '\x08' then ['\\', 'b']
  else if c = '\x0c' then ['\\', 'f']
  else if c = '\n' then ['\\', 'n']
  else if c = '\r' then ['\\', 'r']
  else if c = '\t' then ['\\', 't']
  else if c < ' ' then ['\\', 'u', '0', '0'] ++ hex2 c.toNat
  else [c]

/-- The written form of a string. -/
def stringChars (cs : List Char) : List Char :=
  '"' :: cs.flatMap escapeChar ++ ['"']

/-- The written form of a truth value. -/
def boolChars (b : Bool) : List Char :=
  if b then "true".toList else "false".toList

end Json

end LispRepl

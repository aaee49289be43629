import LispRepl.DoubleRange
import LispRepl.Text.Decimal
import LispRepl.Toml

/-!
# TOML literals

The keys and the values of one word, each read at the start of a text and given with the text
behind it: strings in their four forms, integers in four bases, floats, dates and times.

- `Toml.simpleKey?`, `Toml.key?`: a key, and keys joined by points.
- `Toml.string?`: a string.
- `Toml.number?`: a date, a time, a float or an integer.
-/

set_option autoImplicit false

namespace LispRepl.Toml

/-! ## White space and comments -/

/-- A space or tab. -/
def isWs (c : Char) : Bool :=
  c == ' ' || c == '\t'

/-- The text without spaces and tabs at its start. -/
def skipWs (cs : List Char) : List Char :=
  cs.dropWhile isWs

/-- A character of a comment: anything but the controls, of which the tab is one. -/
def isCommentChar (c : Char) : Bool :=
  c == '\t' || (' ' ≤ c && c ≠ '\x7f')

/-- The text behind a line end, which the end of the text is too. -/
def lineEnd? : List Char → Option (List Char)
  | [] => some []
  | '\n' :: rest => some rest
  | '\r' :: '\n' :: rest => some rest
  | _ => none

/-- The text behind the rest of a line that holds nothing but a comment. -/
def lineRest? (cs : List Char) : Option (List Char) :=
  match skipWs cs with
  | '#' :: rest => lineEnd? (rest.dropWhile isCommentChar)
  | cs => lineEnd? cs

/-- The text behind spaces, line ends and comments; fuel for as many of them as there may be. -/
def skipLines? : Nat → List Char → Option (List Char)
  | 0, cs => some cs
  | fuel + 1, cs =>
    match skipWs cs with
    | '#' :: rest =>
      match rest.dropWhile isCommentChar with
      | '\n' :: rest => skipLines? fuel rest
      | '\r' :: '\n' :: rest => skipLines? fuel rest
      | _ => none
    | '\n' :: rest => skipLines? fuel rest
    | '\r' :: '\n' :: rest => skipLines? fuel rest
    | cs => some cs

/-! ## Strings -/

/-- The value of a hexadecimal digit. -/
def hexDigit? (c : Char) : Option Nat :=
  if Text.isDigit c then some (c.toNat - 48)
  else if 'a' ≤ c ∧ c ≤ 'f' then some (c.toNat - 87)
  else if 'A' ≤ c ∧ c ≤ 'F' then some (c.toNat - 55)
  else none

/-- The character with the code point that the hexadecimal digits give. -/
def codePoint? (digits : List Char) : Option Char := do
  let n ← digits.foldlM (fun n c => (hexDigit? c).map (16 * n + ·)) 0
  if n.isValidChar then some (Char.ofNat n) else none

/-- The character that a backslash and `c` stand for. -/
def escape? (c : Char) : Option Char :=
  if c = 'b' then some '\x08'
  else if c = 't' then some '\t'
  else if c = 'n' then some '\n'
  else if c = 'f' then some '\x0c'
  else if c = 'r' then some '\r'
  else if c = '"' then some '"'
  else if c = '\\' then some '\\'
  else none

/-- The characters of a string in double quotes, up to the closing quote. -/
def basic? : List Char → Option (List Char × List Char)
  | [] => none
  | '"' :: rest => some ([], rest)
  | '\\' :: 'u' :: a :: b :: c :: d :: rest => do
    let x ← codePoint? [a, b, c, d]
    let (cs, rest) ← basic? rest
    return (x :: cs, rest)
  | '\\' :: 'U' :: a :: b :: c :: d :: e :: f :: g :: h :: rest => do
    let x ← codePoint? [a, b, c, d, e, f, g, h]
    let (cs, rest) ← basic? rest
    return (x :: cs, rest)
  | '\\' :: c :: rest => do
    let x ← escape? c
    let (cs, rest) ← basic? rest
    return (x :: cs, rest)
  | c :: rest =>
    if c ≠ '\\' ∧ isCommentChar c then do
      let (cs, rest) ← basic? rest
      return (c :: cs, rest)
    else none

/-- The characters of a string in single quotes, up to the closing quote. -/
def literal? : List Char → Option (List Char × List Char)
  | [] => none
  | '\'' :: rest => some ([], rest)
  | c :: rest =>
    if isCommentChar c then do
      let (cs, rest) ← literal? rest
      return (c :: cs, rest)
    else none

/-- Where a string over several lines is. -/
inductive Folding where
  /-- Between characters. -/
  | no
  /-- Behind a backslash and spaces, before the line end that has to follow. -/
  | begun
  /-- Behind such a line end: further blanks are skipped. -/
  | blanks
deriving DecidableEq

/-- The characters of a string in three double quotes, up to the closing quotes, before which up to
two quotes may stand. A backslash before a line end skips all blanks behind it. -/
def multiBasic? : Folding → List Char → Option (List Char × List Char)
  | .begun, '\n' :: rest => multiBasic? .blanks rest
  | .begun, '\r' :: '\n' :: rest => multiBasic? .blanks rest
  | .begun, c :: rest => if isWs c then multiBasic? .begun rest else none
  | .blanks, '\n' :: rest => multiBasic? .blanks rest
  | .blanks, '\r' :: '\n' :: rest => multiBasic? .blanks rest
  | .blanks, ' ' :: rest => multiBasic? .blanks rest
  | .blanks, '\t' :: rest => multiBasic? .blanks rest
  | _, [] => none
  | _, '"' :: '"' :: '"' :: '"' :: '"' :: rest => some (['"', '"'], rest)
  | _, '"' :: '"' :: '"' :: '"' :: rest => some (['"'], rest)
  | _, '"' :: '"' :: '"' :: rest => some ([], rest)
  | _, '\\' :: 'u' :: a :: b :: c :: d :: rest => do
    let x ← codePoint? [a, b, c, d]
    let (cs, rest) ← multiBasic? .no rest
    return (x :: cs, rest)
  | _, '\\' :: 'U' :: a :: b :: c :: d :: e :: f :: g :: h :: rest => do
    let x ← codePoint? [a, b, c, d, e, f, g, h]
    let (cs, rest) ← multiBasic? .no rest
    return (x :: cs, rest)
  | _, '\\' :: c :: rest =>
    match escape? c with
    | some x => do
      let (cs, rest) ← multiBasic? .no rest
      return (x :: cs, rest)
    | none => multiBasic? .begun (c :: rest)
  | _, '\r' :: '\n' :: rest => do
    let (cs, rest) ← multiBasic? .no rest
    return ('\n' :: cs, rest)
  | _, c :: rest =>
    if c ≠ '\\' ∧ (c = '\n' ∨ isCommentChar c) then do
      let (cs, rest) ← multiBasic? .no rest
      return (c :: cs, rest)
    else none

/-- The characters of a string in three single quotes, up to the closing quotes, before which up to
two quotes may stand. -/
def multiLiteral? : List Char → Option (List Char × List Char)
  | [] => none
  | '\'' :: '\'' :: '\'' :: '\'' :: '\'' :: rest => some (['\'', '\''], rest)
  | '\'' :: '\'' :: '\'' :: '\'' :: rest => some (['\''], rest)
  | '\'' :: '\'' :: '\'' :: rest => some ([], rest)
  | '\r' :: '\n' :: rest => do
    let (cs, rest) ← multiLiteral? rest
    return ('\n' :: cs, rest)
  | c :: rest =>
    if c = '\n' ∨ isCommentChar c then do
      let (cs, rest) ← multiLiteral? rest
      return (c :: cs, rest)
    else none

/-- The text without a line end at its start. -/
def dropLineEnd : List Char → List Char
  | '\n' :: rest => rest
  | '\r' :: '\n' :: rest => rest
  | cs => cs

/-- The string at the start of a text. -/
def string? : List Char → Option (List Char × List Char)
  | '"' :: '"' :: '"' :: rest => multiBasic? .no (dropLineEnd rest)
  | '\'' :: '\'' :: '\'' :: rest => multiLiteral? (dropLineEnd rest)
  | '"' :: rest => basic? rest
  | '\'' :: rest => literal? rest
  | _ => none

/-! ## Keys -/

/-- A character of a key without quotes. -/
def isKeyChar (c : Char) : Bool :=
  ('A' ≤ c && c ≤ 'Z') || ('a' ≤ c && c ≤ 'z') || Text.isDigit c || c == '-' || c == '_'

/-- A key of one part. -/
def simpleKey? : List Char → Option (List Char × List Char)
  | '"' :: rest => basic? rest
  | '\'' :: rest => literal? rest
  | cs =>
    match cs.takeWhile isKeyChar with
    | [] => none
    | key => some (key, cs.dropWhile isKeyChar)

/-- The parts of a key, spaces and tabs around each; fuel for as many as there may be. -/
def keyParts? : Nat → List Char → Option (List String × List Char)
  | 0, _ => none
  | fuel + 1, cs => do
    let (part, rest) ← simpleKey? (skipWs cs)
    match skipWs rest with
    | '.' :: rest => do
      let (parts, rest) ← keyParts? fuel rest
      return (String.ofList part :: parts, rest)
    | rest => some ([String.ofList part], rest)

/-- A key has fewer parts than this. -/
def keyPartsBound : Nat := 80

/-- A key at the start of a text: the parts before the last, and the last. -/
def key? (cs : List Char) : Option ((List String × String) × List Char) := do
  let (parts, rest) ← keyParts? keyPartsBound cs
  if keyPartsBound ≤ parts.length then none
  else return ((parts.dropLast, ← parts.getLast?), rest)

/-! ## Numbers -/

/-- Digits with single underscores between them, and the text behind them. The underscores are
dropped. -/
def digitRun (p : Char → Bool) : List Char → List Char × List Char
  | '_' :: c :: rest =>
    if p c then
      let (digits, rest) := digitRun p rest
      (c :: digits, rest)
    else ([], '_' :: c :: rest)
  | c :: rest =>
    if p c then
      let (digits, rest) := digitRun p rest
      (c :: digits, rest)
    else ([], c :: rest)
  | [] => ([], [])

/-- At least one digit, the first without an underscore before it. -/
def digits? (p : Char → Bool) (cs : List Char) : Option (List Char × List Char) :=
  match cs with
  | c :: _ => if p c then some (digitRun p cs) else none
  | [] => none

/-- Decimal digits without a needless zero at the start. -/
def wholeDigits? (cs : List Char) : Option (List Char × List Char) :=
  match cs with
  | '0' :: rest => some (['0'], rest)
  | cs => digits? Text.isDigit cs

/-- A sign, if there is one: whether the number is negative. -/
def sign (cs : List Char) : Bool × List Char :=
  match cs with
  | '-' :: rest => (true, rest)
  | '+' :: rest => (false, rest)
  | cs => (false, cs)

/-- The number of digits in a base. -/
def baseValue (base : Nat) (digits : List Char) : Nat :=
  digits.foldl (fun n c => base * n + (hexDigit? c).getD 0) 0

/-- The integer, if it fits a signed 64-bit word. -/
def fittingInteger? (n : Int) : Option Toml :=
  if -9223372036854775808 ≤ n ∧ n ≤ 9223372036854775807 then some (.integer n) else none

/-- An integer written in a base other than ten. -/
def basedInteger? (base : Nat) (cs : List Char) : Option (Toml × List Char) := do
  let (digits, rest) ← digits? (fun c => ((hexDigit? c).map (decide <| · < base)).getD false) cs
  return (← fittingInteger? (baseValue base digits), rest)

/-- A point and digits, if there is a point. -/
def fractionPart? : List Char → Option (List Char × List Char)
  | '.' :: rest => digits? Text.isDigit rest
  | cs => some ([], cs)

/-- The mark of an exponent and the exponent, if there is a mark. -/
def exponentPart? : List Char → Option (Int × List Char)
  | c :: rest =>
    if c = 'e' ∨ c = 'E' then do
      let (negative, rest) := sign rest
      let (digits, rest) ← digits? Text.isDigit rest
      let n : Int := Text.digitsValue digits
      return (if negative then -n else n, rest)
    else some (0, c :: rest)
  | [] => some (0, [])

/-- The text starts a fraction or an exponent. -/
def goesOn : List Char → Bool
  | c :: _ => c == '.' || c == 'e' || c == 'E'
  | [] => false

/-- A number in base ten. A float may not be too large for a double. -/
def decimal? (cs : List Char) : Option (Toml × List Char) := do
  let (negative, cs) := sign cs
  let (whole, rest) ← wholeDigits? cs
  if goesOn rest then
    let (part, rest) ← fractionPart? rest
    let (power, rest) ← exponentPart? rest
    if negative || isDouble (Text.digitsValue (whole ++ part)) (power - part.length) then
      return (.float, rest)
    else none
  else
    let n : Int := Text.digitsValue whole
    return (← fittingInteger? (if negative then -n else n), rest)

/-- The text behind a word that it starts with. -/
def behind? (word : String) (cs : List Char) : Option (List Char) :=
  if word.toList.isPrefixOf cs then some (cs.drop word.toList.length) else none

/-- An infinite number or one that is none. -/
def specialFloat? (cs : List Char) : Option (Toml × List Char) :=
  let rest := (sign cs).2
  match behind? "inf" rest with
  | some rest => some (.float, rest)
  | none => (behind? "nan" rest).map fun rest => (.float, rest)

/-! ## Dates -/

/-- `count` digits whose value lies in a range. -/
def field? (count low high : Nat) (cs : List Char) : Option (Nat × List Char) :=
  let digits := cs.take count
  if digits.length = count ∧ digits.all Text.isDigit then
    let n := Text.digitsValue digits
    if low ≤ n ∧ n ≤ high then some (n, cs.drop count) else none
  else none

/-- The text behind a character that it starts with. -/
def expect? (c : Char) : List Char → Option (List Char)
  | d :: rest => if c = d then some rest else none
  | [] => none

/-- The length of a month. -/
def daysIn (year month : Nat) : Nat :=
  if month = 2 then
    if year % 4 = 0 ∧ (year % 100 ≠ 0 ∨ year % 400 = 0) then 29 else 28
  else if month = 4 ∨ month = 6 ∨ month = 9 ∨ month = 11 then 30
  else 31

/-- The text behind a date. -/
def date? (cs : List Char) : Option (List Char) := do
  let (year, rest) ← field? 4 0 9999 cs
  let (month, rest) ← field? 2 1 12 (← expect? '-' rest)
  let (_, rest) ← field? 2 1 (daysIn year month) (← expect? '-' rest)
  return rest

/-- The text behind a time of day, with parts of a second if there are some. -/
def time? (cs : List Char) : Option (List Char) := do
  let (_, rest) ← field? 2 0 23 cs
  let (_, rest) ← field? 2 0 59 (← expect? ':' rest)
  let (_, rest) ← field? 2 0 60 (← expect? ':' rest)
  match rest with
  | '.' :: parts =>
    match parts.takeWhile Text.isDigit with
    | [] => some rest
    | _ => some (parts.dropWhile Text.isDigit)
  | rest => some rest

/-- The text behind a time zone, if there is one. -/
def zone? (cs : List Char) : Option (List Char) :=
  match cs with
  | 'Z' :: rest => some rest
  | 'z' :: rest => some rest
  | c :: rest =>
    if c = '+' ∨ c = '-' then do
      let (_, rest) ← field? 2 0 23 rest
      let (_, rest) ← field? 2 0 59 (← expect? ':' rest)
      return rest
    else some cs
  | [] => some []

/-- A date, with a time of day if one follows, or a time alone. -/
def dateTime? (cs : List Char) : Option (Toml × List Char) :=
  match date? cs with
  | some (c :: rest) =>
    if c = 'T' ∨ c = 't' ∨ c = ' ' then
      match time? rest with
      | some rest => (zone? rest).map fun rest => (.date, rest)
      | none => some (.date, c :: rest)
    else some (.date, c :: rest)
  | some [] => some (.date, [])
  | none => (time? cs).map fun rest => (.date, rest)

/-- The date, time or number at the start of a text. -/
def number? (cs : List Char) : Option (Toml × List Char) :=
  match dateTime? cs with
  | some found => some found
  | none =>
    match specialFloat? cs with
    | some found => some found
    | none =>
      match cs with
      | '0' :: 'x' :: rest => basedInteger? 16 rest
      | '0' :: 'o' :: rest => basedInteger? 8 rest
      | '0' :: 'b' :: rest => basedInteger? 2 rest
      | cs => decimal? cs

end LispRepl.Toml

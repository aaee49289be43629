import LispRepl.LispError
import LispRepl.Token.Lexer
import LispRepl.Value

/-!
# Reading values from tokens

A datum is an atom; a quote mark and a datum, which is the list of the symbol `quote` and that
datum; or data between brackets, the last of which may stand behind a point as the tail. The
parser is a stack machine that takes one token at a time: its stack holds the lists and quotes
that are open around the next token, innermost first, so that the depth of a datum is the height
of the stack where it begins. A datum may not begin at or below the limit, and the datum behind a
quote mark begins at the mark.

- `Frame`, `Parser`: the open lists and quotes, and the data already read.
- `Parser.step`, `Parser.finish`: the effect of a token, and of the end.
- `parseTokens`: the data of a whole sequence of tokens.
- `readSource`: the data of a text.
-/

set_option autoImplicit false

namespace LispRepl

/-- A datum that has begun and not ended. Items come latest first. -/
inductive Frame where
  /-- A quote mark waits for its datum. -/
  | quote
  /-- A list waits for its next item. -/
  | items (items : List Value)
  /-- A list with a point behind its items waits for its tail. -/
  | tail (items : List Value)

/-- The parser: what is open around the next token, innermost first; the list whose tail has been
read and which waits for its bracket; and the data read so far, latest first. -/
structure Parser where
  stack : List Frame
  closing : Option (List Value × Value)
  done : List Value

namespace Parser

/-- The parser before any token. -/
def start : Parser := ⟨[], none, []⟩

/-- A datum has ended inside the open frames. -/
def complete (done : List Value) : Value → List Frame → Parser
  | v, [] => ⟨[], none, v :: done⟩
  | v, .quote :: outer => complete done (.list [.symbol "quote", v]) outer
  | v, .items items :: outer => ⟨.items (v :: items) :: outer, none, done⟩
  | v, .tail items :: outer => ⟨outer, some (items, v), done⟩

/-- A datum begins with this token. -/
def begin (limit : Nat) (p : Parser) (t : TokenKind) : Except LispError Parser :=
  if limit ≤ p.stack.length then .error (.tooDeep limit)
  else match t with
  | .opening => .ok { p with stack := .items [] :: p.stack }
  | .closing => .error .unexpectedClose
  | .dot => .error (.malformed .strayDot)
  | .quote =>
    if limit ≤ p.stack.length + 1 then .error (.tooDeep limit)
    else .ok { p with stack := .quote :: p.stack }
  | .number n => .ok (complete p.done (.number n) p.stack)
  | .string s => .ok (complete p.done (.string s) p.stack)
  | .bool b => .ok (complete p.done (.bool b) p.stack)
  | .nil => .ok (complete p.done .nil p.stack)
  | .symbol s => .ok (complete p.done (.symbol s) p.stack)

/-- The effect of one token. -/
def step (limit : Nat) (p : Parser) (t : TokenKind) : Except LispError Parser :=
  match p.closing with
  | some (items, tail) =>
    if t = .closing then .ok (complete p.done (.join items.reverse tail) p.stack)
    else .error (.malformed .tailNotClosed)
  | none =>
    match p.stack, t with
    | .items items :: outer, .closing => .ok (complete p.done (.list items.reverse) outer)
    | .items [] :: _, .dot => .error (.malformed .leadingDot)
    | .items (v :: items) :: outer, .dot =>
      if limit ≤ p.stack.length then .error (.tooDeep limit)
      else .ok { p with stack := .tail (v :: items) :: outer }
    | _, _ => p.begin limit t

/-- The effect of a sequence of tokens, up to the first error. -/
def run (limit : Nat) (p : Parser) (ts : List TokenKind) : Except LispError Parser :=
  ts.foldlM (step limit) p

/-- The data, once the tokens have ended: nothing may still be open. -/
def finish (p : Parser) : Except LispError (List Value) :=
  match p.closing, p.stack with
  | none, [] => .ok p.done.reverse
  | _, _ => .error .unexpectedEof

end Parser

/-- The data of a sequence of tokens, at most `limit` levels deep. -/
def parseTokens (limit : Nat) (tokens : List Token) : Except LispError (List Value) :=
  Parser.start.run limit (tokens.map Token.kind) >>= Parser.finish

/-- The data of a text, at most `limit` levels deep. -/
def readSource (limit : Nat) (source : String) : Except LispError (List Value) :=
  match tokenize source with
  | .ok tokens => parseTokens limit tokens
  | .error fault => .error (.lex fault)

end LispRepl

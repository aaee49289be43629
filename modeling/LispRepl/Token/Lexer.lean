import LispRepl.Text.Blank
import LispRepl.Rational.Literal
import LispRepl.Token

/-!
# Cutting a text into tokens

The lexer is a machine that takes one character at a time. Between tokens it skips blanks and
comments, which run from a semicolon to the end of the line. A string runs to the closing quote
and may hold line ends; a word runs to the next blank, bracket, quote mark, double quote or
semicolon, and its text alone decides what it is.

- `Lexer`, `LexMode`: the machine's state.
- `Lexer.step`: the effect of one character.
- `Lexer.finish`: the tokens once the text has ended.
- `tokenize`: the tokens of a text, or its first fault.
- `TokenKind.ofWord`: what a word is.
-/

set_option autoImplicit false

namespace LispRepl

/-- What the lexer is in the middle of. The characters of a string or word come latest first. -/
inductive LexMode where
  | between
  | comment
  | word (start : Nat) (chars : List Char)
  | string (start : Nat) (chars : List Char)
  /-- Behind a backslash in a string. -/
  | escape (start : Nat) (chars : List Char)
deriving DecidableEq

/-- The lexer: the line it is on, what it is in the middle of, and the tokens so far, latest
first. -/
structure Lexer where
  line : Nat
  mode : LexMode
  tokens : List Token
deriving DecidableEq

/-- A word that starts like a number: with a digit, or with a sign or point before a digit. -/
def looksNumeric : List Char → Bool
  | [] => false
  | c :: cs =>
    Text.isDigit c ||
      ((c == '-' || c == '+' || c == '.') && (cs.head?.map Text.isDigit).getD false)

/-- What a word is: the lone point, a number, one of the constants in any case of letters, or
else a symbol. A word that starts like a number and denotes none is a fault. -/
def TokenKind.ofWord (cs : List Char) : Except LexError TokenKind :=
  if cs = ['.'] then .ok .dot
  else match Rational.ofLiteralChars? cs with
  | some n => .ok (.number n)
  | none =>
    if looksNumeric cs then .error (.invalidNumber (String.ofList cs))
    else
      let small := cs.map Text.lowerAsciiChar
      if small = "true".toList ∨ small = "#t".toList then .ok (.bool true)
      else if small = "false".toList ∨ small = "#f".toList then .ok (.bool false)
      else if small = "nil".toList then .ok .nil
      else .ok (.symbol (String.ofList cs))

/-- The characters that end a word. -/
def endsWord (c : Char) : Bool :=
  Text.isBlank c || c == '(' || c == ')' || c == '[' || c == ']' || c == '\'' || c == '"' ||
    c == ';'

/-- The character that a backslash and `c` stand for in a string. -/
def unescape? (c : Char) : Option Char :=
  if c = 'n' then some '\n'
  else if c = 't' then some '\t'
  else if c = 'r' then some '\r'
  else if c = '\\' then some '\\'
  else if c = '"' then some '"'
  else none

namespace Lexer

/-- The lexer before any text. -/
def start : Lexer := ⟨1, .between, []⟩

/-- The line of the character after `c`. -/
def lineAfter (line : Nat) (c : Char) : Nat :=
  if c = '\n' then line + 1 else line

/-- The effect of a character that is not inside a word, string or comment. -/
def stepBetween (line : Nat) (tokens : List Token) (c : Char) : Lexer :=
  let next := lineAfter line c
  if c = ';' then ⟨next, .comment, tokens⟩
  else if Text.isBlank c then ⟨next, .between, tokens⟩
  else if c = '(' ∨ c = '[' then ⟨next, .between, ⟨.opening, line⟩ :: tokens⟩
  else if c = ')' ∨ c = ']' then ⟨next, .between, ⟨.closing, line⟩ :: tokens⟩
  else if c = '\'' then ⟨next, .between, ⟨.quote, line⟩ :: tokens⟩
  else if c = '"' then ⟨next, .string line [], tokens⟩
  else ⟨next, .word line [c], tokens⟩

/-- The effect of one character. -/
def step (s : Lexer) (c : Char) : Except LexError Lexer :=
  let next := lineAfter s.line c
  match s.mode with
  | .between => .ok (stepBetween s.line s.tokens c)
  | .comment => .ok ⟨next, if c = '\n' then .between else .comment, s.tokens⟩
  | .word start chars =>
    if endsWord c then
      match TokenKind.ofWord chars.reverse with
      | .ok kind => .ok (stepBetween s.line (⟨kind, start⟩ :: s.tokens) c)
      | .error e => .error e
    else .ok ⟨next, .word start (c :: chars), s.tokens⟩
  | .string start chars =>
    if c = '"' then
      .ok ⟨next, .between, ⟨.string (String.ofList chars.reverse), start⟩ :: s.tokens⟩
    else if c = '\\' then .ok ⟨next, .escape start chars, s.tokens⟩
    else .ok ⟨next, .string start (c :: chars), s.tokens⟩
  | .escape start chars =>
    match unescape? c with
    | some d => .ok ⟨next, .string start (d :: chars), s.tokens⟩
    | none => .error (.invalidEscape c)

/-- The effect of a text, up to its first fault. -/
def run (s : Lexer) (cs : List Char) : Except LexError Lexer :=
  cs.foldlM step s

/-- The tokens in order, once the text has ended. -/
def finish (s : Lexer) : Except LexError (List Token) :=
  match s.mode with
  | .between | .comment => .ok s.tokens.reverse
  | .word start chars =>
    match TokenKind.ofWord chars.reverse with
    | .ok kind => .ok (⟨kind, start⟩ :: s.tokens).reverse
    | .error e => .error e
  | .string start _ | .escape start _ => .error (.unterminatedString start)

end Lexer

/-- The tokens of the characters of a text, or its first fault. -/
def tokenizeChars (cs : List Char) : Except LexError (List Token) :=
  Lexer.start.run cs >>= Lexer.finish

/-- The tokens of a text, or its first fault. -/
def tokenize (source : String) : Except LexError (List Token) :=
  tokenizeChars source.toList

end LispRepl

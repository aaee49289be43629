import LispRepl.Text.Printable

/-!
# Quoted text

A string is shown between double quotes. Inside them the quote and the backslash take a
backslash, the NUL, tab, line feed and carriage return have letters of their own, and every other
character stands for itself if it is printable; if not, it is written by its code point in small
hexadecimal digits between braces.

- `escapeChar`: the written form of one character.
- `quoteChars`, `quote`: the written form of a string.
- `hasPlainEscape`: the character is written without a code point or the NUL escape.
-/

set_option autoImplicit false

namespace LispRepl.Text

/-- The code point of a character as small hexadecimal digits, without leading zeros. -/
def hexDigits (c : Char) : List Char :=
  Nat.toDigits 16 c.toNat

/-- The written form of one character between the quotes. -/
def escapeChar (c : Char) : List Char :=
  if c = '\x00' then ['\\', '0']
  else if c = '\t' then ['\\', 't']
  else if c = '\n' then ['\\', 'n']
  else if c = '\r' then ['\\', 'r']
  else if c = '"' then ['\\', '"']
  else if c = '\\' then ['\\', '\\']
  else if isPrintable c then [c]
  else ['\\', 'u', '\x7b'] ++ hexDigits c ++ ['\x7d']

/-- The characters of a quoted text. -/
def quoteChars (cs : List Char) : List Char :=
  '"' :: cs.flatMap escapeChar ++ ['"']

/-- The text between double quotes. -/
def quote (s : String) : String :=
  String.ofList (quoteChars s.toList)

/-- The character is written as itself or by one of the escapes that a string literal has. -/
def hasPlainEscape (c : Char) : Bool :=
  c == '\t' || c == '\n' || c == '\r' || c == '"' || c == '\\' ||
    (c != '\x00' && isPrintable c)

end LispRepl.Text

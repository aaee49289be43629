/-!
# Blank characters

The blank characters are those with the Unicode property `White_Space`: the ASCII controls from
tab to carriage return, the space, next line, the no-break space and the wider spaces. Lines,
literals and tokens are all separated and trimmed by this one class.

- `isBlank`: the class.
- `trimStartChars`, `trimEndChars`, `trim`: without the blanks at the start, the end, or both.
- `isBlankText`: the text holds nothing but blanks.
- `lowerAscii`: the twenty-six ASCII capitals made small, everything else kept.
-/

set_option autoImplicit false

namespace LispRepl.Text

/-- The characters with the property `White_Space`. -/
def isBlank (c : Char) : Bool :=
  let n := c.toNat
  (9 ≤ n && n ≤ 13) || n == 0x20 || n == 0x85 || n == 0xa0 || n == 0x1680 ||
    (0x2000 ≤ n && n ≤ 0x200a) || n == 0x2028 || n == 0x2029 || n == 0x202f ||
    n == 0x205f || n == 0x3000

/-- Every character that core calls white space is blank. -/
theorem isBlank_of_isWhitespace {c : Char} (h : c.isWhitespace = true) : isBlank c = true := by
  simp only [Char.isWhitespace, Bool.or_eq_true, decide_eq_true_eq] at h
  rcases h with ((h | h) | h) | h <;> subst h <;> decide

/-- The characters without the blanks at the start. -/
def trimStartChars (cs : List Char) : List Char :=
  cs.dropWhile isBlank

/-- The characters without the blanks at the end. -/
def trimEndChars (cs : List Char) : List Char :=
  (cs.reverse.dropWhile isBlank).reverse

/-- The text without the blanks at either end. -/
def trim (s : String) : String :=
  String.ofList (trimEndChars (trimStartChars s.toList))

/-- The text is empty or holds nothing but blanks. -/
def isBlankText (s : String) : Bool :=
  s.toList.all isBlank

/-- The small form of an ASCII capital; any other character is kept. -/
def lowerAsciiChar (c : Char) : Char :=
  if 'A' ≤ c ∧ c ≤ 'Z' then Char.ofNat (c.toNat + 32) else c

/-- The text with its ASCII capitals made small. -/
def lowerAscii (s : String) : String :=
  String.ofList (s.toList.map lowerAsciiChar)

/-- Trimming the end of a text that a blank was put after is trimming the text. -/
theorem trimEndChars_append_blank (cs : List Char) {c : Char} (h : isBlank c = true) :
    trimEndChars (cs ++ [c]) = trimEndChars cs := by
  simp [trimEndChars, h]

end LispRepl.Text

/-!
# Text from bytes

Text is encoded in UTF-8. A character takes one to four bytes: a lead byte that fixes how many
follow and, for some leads, a narrower range for the second byte, so that every character has one
encoding and surrogates have none.

- `Utf8Step`, `nextChar`: the first character of some bytes, or the length of the longest start of
  an encoding that goes wrong.
- `decode?`: the text of bytes that encode one.
- `decodeLossy`: the text where each such start, or lone byte, reads as the replacement character.
- `decodePrefix`: the text before the first byte that goes wrong.
-/

set_option autoImplicit false

namespace LispRepl.Text

/-- A byte lies in a range, both ends included. -/
def byteIn (low high : UInt8) (b : UInt8) : Bool :=
  low ≤ b && b ≤ high

/-- The bytes that continue a character. -/
def isContinuation (b : UInt8) : Bool :=
  byteIn 0x80 0xbf b

/-- The number of bytes behind a lead byte, and the range of the first of them. -/
def leadShape (b : UInt8) : Option (Nat × UInt8 × UInt8) :=
  if b < 0x80 then some (0, 0x80, 0xbf)
  else if byteIn 0xc2 0xdf b then some (1, 0x80, 0xbf)
  else if b = 0xe0 then some (2, 0xa0, 0xbf)
  else if b = 0xed then some (2, 0x80, 0x9f)
  else if byteIn 0xe1 0xef b then some (2, 0x80, 0xbf)
  else if b = 0xf0 then some (3, 0x90, 0xbf)
  else if byteIn 0xf1 0xf3 b then some (3, 0x80, 0xbf)
  else if b = 0xf4 then some (3, 0x80, 0x8f)
  else none

/-- The bits of a lead byte that belong to the code point. -/
def leadBits (count : Nat) (b : UInt8) : Nat :=
  match count with
  | 0 => b.toNat
  | 1 => b.toNat - 0xc0
  | 2 => b.toNat - 0xe0
  | _ => b.toNat - 0xf0

/-- The code point after `count` more bytes, each with six bits; none where a byte is missing or
does not continue the character, with the number of bytes that did. -/
def moreBits (value taken : Nat) : Nat → List UInt8 → Except Nat Nat
  | 0, _ => .ok value
  | _ + 1, [] => .error taken
  | count + 1, b :: bs =>
    if isContinuation b then moreBits (value * 64 + (b.toNat - 0x80)) (taken + 1) count bs
    else .error taken

/-- How the bytes begin. -/
inductive Utf8Step where
  /-- With a character of this many bytes behind the lead. -/
  | char (c : Char) (behind : Nat)
  /-- With no character; this many bytes behind the first begin one all the same. -/
  | broken (behind : Nat)

/-- How the bytes behind a lead byte go on. -/
def nextChar (lead : UInt8) (bs : List UInt8) : Utf8Step :=
  match leadShape lead with
  | none => .broken 0
  | some (0, _, _) => .char (Char.ofNat lead.toNat) 0
  | some (count, low, high) =>
    match bs with
    | [] => .broken 0
    | b :: _ =>
      if byteIn low high b then
        match moreBits (leadBits count lead) 0 count bs with
        | .ok value => .char (Char.ofNat value) count
        | .error taken => .broken taken
      else .broken 0

/-- The characters of bytes up to the first that goes wrong, and whether none does. -/
def decodePrefix (bytes : List UInt8) : List Char × Bool :=
  match bytes with
  | [] => ([], true)
  | lead :: bs =>
    match nextChar lead bs with
    | .broken _ => ([], false)
    | .char c behind =>
      let rest := decodePrefix (bs.drop behind)
      (c :: rest.1, rest.2)
termination_by bytes.length

/-- The characters of bytes that are a text. -/
def decode? (bytes : List UInt8) : Option (List Char) :=
  let (cs, whole) := decodePrefix bytes
  if whole then some cs else none

/-- The characters of bytes, the replacement character for what is no text. -/
def decodeLossy (bytes : List UInt8) : List Char :=
  match bytes with
  | [] => []
  | lead :: bs =>
    match nextChar lead bs with
    | .broken behind => '\uFFFD' :: decodeLossy (bs.drop behind)
    | .char c behind => c :: decodeLossy (bs.drop behind)
termination_by bytes.length

end LispRepl.Text

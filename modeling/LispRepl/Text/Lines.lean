/-!
# Lines of a byte stream

Input is cut into pieces at line feeds; what stands behind the last line feed is a piece of its
own unless it is empty. The line of a piece that a line feed ended lacks a carriage return at its
end.

- `splitFeeds`: the pieces, and whether a line feed ended each.
- `splitLines`: the lines.
-/

set_option autoImplicit false

namespace LispRepl.Text

/-- The pieces between line feeds, the first of which has begun with these bytes, latest first;
and whether a line feed ended each. -/
def splitFrom : List UInt8 → List UInt8 → List (List UInt8 × Bool)
  | [], [] => []
  | acc, [] => [(acc.reverse, false)]
  | acc, b :: bs =>
    if b = 10 then (acc.reverse, true) :: splitFrom [] bs else splitFrom (b :: acc) bs

/-- The pieces between line feeds, and whether a line feed ended each. -/
def splitFeeds (bytes : List UInt8) : List (List UInt8 × Bool) :=
  splitFrom [] bytes

/-- The bytes without one byte `b` at their end. -/
def dropLast (b : UInt8) (bytes : List UInt8) : List UInt8 :=
  if bytes.getLast? = some b then bytes.dropLast else bytes

/-- The lines of some bytes, without their line ends. -/
def splitLines (bytes : List UInt8) : List (List UInt8) :=
  (splitFeeds bytes).map fun (piece, ended) => if ended then dropLast 13 piece else piece

end LispRepl.Text

import LispRepl.Value.Parser

/-!
# Reading line by line

A reader collects lines until they make up whole expressions. After each line it judges the whole
text so far: a closing bracket without an opening one, too deep a nesting or a malformed word
rejects the line and leaves the text as it was; an open string, an open bracket or a quote mark at
the end leaves the text incomplete.

- `verdict`: the judgement on a text.
- `Reader`: the lines so far, and the judgement on them.
- `Reader.pushLine`, `Reader.take`, `Reader.clear`: its operations.
-/

set_option autoImplicit false

namespace LispRepl

/-- The brackets open behind the tokens; none where one is closed that was not opened, or where
more than `limit` are open. -/
def openBrackets (limit : Nat) : Nat → List TokenKind → Except LispError Nat
  | depth, [] => .ok depth
  | depth, .opening :: ts =>
    if limit ≤ depth then .error (.tooDeep limit) else openBrackets limit (depth + 1) ts
  | 0, .closing :: _ => .error .unexpectedClose
  | depth + 1, .closing :: ts => openBrackets limit depth ts
  | depth, _ :: ts => openBrackets limit depth ts

/-- Whether a text is made of whole expressions, or why it can never be continued to one that
is. -/
def verdict (limit : Nat) (source : String) : Except LispError Bool :=
  match tokenize source with
  | .error (.unterminatedString _) => .ok false
  | .error fault => .error (.lex fault)
  | .ok tokens =>
    match openBrackets limit 0 (tokens.map Token.kind) with
    | .error e => .error e
    | .ok depth => .ok (depth == 0 && !((tokens.getLast?.map Token.kind) == some .quote))

/-- The text of the lines accepted so far, each with its line feed; how many they are; whether
they make up whole expressions; and the limit on nesting. -/
structure Reader where
  limit : Nat
  source : String
  lines : Nat
  complete : Bool
deriving DecidableEq

namespace Reader

/-- The reader without any line. -/
def new (limit : Nat) : Reader := ⟨limit, "", 0, false⟩

/-- No line has been accepted since the reader was last empty. -/
def isEmpty (r : Reader) : Bool := r.lines == 0

/-- Takes a line and judges the text with it; an error leaves the reader as it was. -/
def pushLine (r : Reader) (line : String) : Except LispError Bool × Reader :=
  let source := r.source ++ line ++ "\n"
  match verdict r.limit source with
  | .ok complete => (.ok complete, ⟨r.limit, source, r.lines + 1, complete⟩)
  | .error e => (.error e, r)

/-- Forgets the lines. -/
def clear (r : Reader) : Reader := new r.limit

/-- The expressions of the lines, which are forgotten whether or not they can be read. -/
def take (r : Reader) : Except LispError (List Value) × Reader :=
  (readSource r.limit r.source, r.clear)

end Reader

end LispRepl

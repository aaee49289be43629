import LispRepl.Message
import LispRepl.Text.Blank
import LispRepl.Wire.Json

/-!
# Messages as lines of JSON

Each message is one line. A command is an object whose field `command` names it, beside the fields
that it needs; a response is an object with one field for each part, and an outcome is an object
of a kind and a text. Written messages have their fields in a fixed order and no spaces.

A reader is more generous. Fields may come in any order, fields it does not know are ignored, and
an array of the parts in order, behind the name for a command, stands for the object. A field it
knows may not repeat. All of a command has to be sound JSON, nested at most 127 levels; of a
response, only the parts that are looked at. An outcome may be missing from a response object, and
an outcome object may give its kind as an object whose only field, null, has the kind for its name.

- `Command.encode`, `Response.encode`: the line of a message, without a line end.
- `Command.decode?`, `Response.decode?`: the message of a line.
-/

set_option autoImplicit false

namespace LispRepl

/-! ## Writing -/

/-- A field with its name, as it stands in an object. -/
def fieldChars (name : String) (value : List Char) : List Char :=
  Json.stringChars name.toList ++ ':' :: value

/-- The fields with commas between them, in braces. -/
def objectChars (fields : List (List Char)) : List Char :=
  '\x7b' :: (fields.intersperse [',']).flatten ++ ['\x7d']

/-- The written form of a command. -/
def Command.encodeChars : Command → List Char
  | .eval generation line => objectChars
      [fieldChars "command" (Json.stringChars "eval".toList),
       fieldChars "generation" (Text.natDigits generation.toNat),
       fieldChars "line" (Json.stringChars line.toList)]
  | .reset generation => objectChars
      [fieldChars "command" (Json.stringChars "reset".toList),
       fieldChars "generation" (Text.natDigits generation.toNat)]
  | .shutdown => objectChars [fieldChars "command" (Json.stringChars "shutdown".toList)]

/-- The written form of an outcome. -/
def Outcome.encodeChars : Outcome → List Char
  | .success text => objectChars
      [fieldChars "kind" (Json.stringChars "success".toList),
       fieldChars "text" (Json.stringChars text.toList)]
  | .failure text => objectChars
      [fieldChars "kind" (Json.stringChars "failure".toList),
       fieldChars "text" (Json.stringChars text.toList)]

/-- The written form of a response. -/
def Response.encodeChars (r : Response) : List Char :=
  objectChars
    [fieldChars "generation" (Text.natDigits r.generation.toNat),
     fieldChars "complete" (Json.boolChars r.complete),
     fieldChars "outcome"
       (match r.outcome with
        | none => "null".toList
        | some outcome => outcome.encodeChars),
     fieldChars "reset_buffer" (Json.boolChars r.resetBuffer),
     fieldChars "buffered_lines" (Text.natDigits r.bufferedLines)]

/-- The line of a command. -/
def Command.encode (c : Command) : String :=
  String.ofList c.encodeChars

/-- The line of a response. -/
def Response.encode (r : Response) : String :=
  String.ofList r.encodeChars

/-! ## Reading -/

/-- The values of the fields of one name. -/
def fieldValues (name : String) (fields : List (Option (List Char) × Json)) : List Json :=
  (fields.filter fun f => f.1 == some name.toList).map Prod.snd

/-- The value of a field that is there once. -/
def requiredField? (name : String) (fields : List (Option (List Char) × Json)) : Option Json :=
  match fieldValues name fields with
  | [v] => some v
  | _ => none

/-- The value of a field that may be missing; it may not repeat. -/
def optionalField? (name : String) (fields : List (Option (List Char) × Json)) :
    Option (Option Json) :=
  match fieldValues name fields with
  | [] => some none
  | [v] => some (some v)
  | _ => none

/-- Every field has a name that is a string. -/
def namesSound (fields : List (Option (List Char) × Json)) : Bool :=
  fields.all fun f => f.1.isSome

/-- The generation that a number stands for. -/
def toGeneration? (v : Json) : Option Generation :=
  v.toWord?.map UInt64.ofNat

/-- How deep arrays and objects may nest in a command. -/
def commandLevels : Nat := 127

/-- The command of an object or array. -/
def Command.ofJson? : Json → Option Command
  | .object fields => do
    let tag ← (← requiredField? "command" fields).toText?
    if tag = "eval" then
      let generation ← toGeneration? (← requiredField? "generation" fields)
      let line ← (← requiredField? "line" fields).toText?
      return .eval generation line
    else if tag = "reset" then
      return .reset (← toGeneration? (← requiredField? "generation" fields))
    else if tag = "shutdown" then return .shutdown
    else none
  | .array (tag :: parts) => do
    let tag ← tag.toText?
    match parts with
    | [] => if tag = "shutdown" then some .shutdown else none
    | [generation] => if tag = "reset" then .reset <$> toGeneration? generation else none
    | [generation, line] =>
      if tag = "eval" then .eval <$> toGeneration? generation <*> line.toText? else none
    | _ => none
  | _ => none

/-- The kind of an outcome, by its name. -/
def outcomeKind? (name : String) : Option (String → Outcome) :=
  if name = "success" then some .success
  else if name = "failure" then some .failure
  else none

/-- The name that the field of a kind holds, as itself or as the only field of an object, which is
null. -/
def toKindName? : Json → Option String
  | .object [(name, .null)] => name.map String.ofList
  | v => v.toText?

/-- The outcome of an object or array. An array has the kind as its name alone. -/
def Outcome.ofJson? : Json → Option Outcome
  | .object fields => do
    if !namesSound fields then none
    let kind ← outcomeKind? (← toKindName? (← requiredField? "kind" fields))
    let text ← (← requiredField? "text" fields).toText?
    return kind text
  | .array [kind, text] => do
    let kind ← outcomeKind? (← kind.toText?)
    let text ← text.toText?
    return kind text
  | _ => none

/-- The outcome of a response, which null stands for when there is none. -/
def outcome? : Json → Option (Option Outcome)
  | .null => some none
  | v => (Outcome.ofJson? v).map some

/-- The response with these parts. -/
def Response.ofParts? (generation complete outcome resetBuffer bufferedLines : Json) :
    Option Response := do
  return ⟨← toGeneration? generation, ← complete.toBool?, ← outcome? outcome,
    ← resetBuffer.toBool?, ← bufferedLines.toWord?⟩

/-- The response of an object or array. -/
def Response.ofJson? : Json → Option Response
  | .object fields => do
    if !namesSound fields then none
    let outcome ← optionalField? "outcome" fields
    Response.ofParts?
      (← requiredField? "generation" fields)
      (← requiredField? "complete" fields)
      (outcome.getD .null)
      (← requiredField? "reset_buffer" fields)
      (← requiredField? "buffered_lines" fields)
  | .array [generation, complete, outcome, resetBuffer, bufferedLines] =>
    Response.ofParts? generation complete outcome resetBuffer bufferedLines
  | _ => none

/-- The command of a line, blanks at its end aside. -/
def Command.decode? (line : String) : Option Command := do
  let v ← Json.parse? (Text.trimEndChars line.toList)
  if v.isSound commandLevels then Command.ofJson? v else none

/-- The response of a line, blanks at its end aside. -/
def Response.decode? (line : String) : Option Response := do
  Response.ofJson? (← Json.parse? (Text.trimEndChars line.toList))

end LispRepl

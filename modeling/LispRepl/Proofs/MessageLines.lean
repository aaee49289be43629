import LispRepl.Proofs.WrittenJson

/-!
# Messages as lines

A message is written on one line and read back from it. No character of a message ends the line that
the message stands on, whatever texts it carries, and blanks that were put behind it do no harm: the
reader gets the very message that the writer had (`decode_encode`).

- `Command.toJson`, `Outcome.toJson`, `Response.toJson`: the values that messages are written as.
- `Command.writes`, `Response.writes`: a written message is the written form of that value.
- `Command.decode?_encode`, `Response.decode?_encode`: the message comes back.
- `Text.StaysInLine`, `Command.staysInLine_encode`, `Response.staysInLine_encode`: it is one line.
-/

set_option autoImplicit false

namespace LispRepl

open Json

/-! ## The values of messages -/

namespace Json.Field

/-- A field with a text. -/
def ofText (name text : String) : Field :=
  ⟨name, stringChars text.toList, .string (some text.toList), writes_string _⟩

/-- A field with a truth value. -/
def ofBool (name : String) (b : Bool) : Field :=
  ⟨name, boolChars b, .bool b, writes_bool b⟩

/-- A field with a number that fits a word. -/
def ofWord (name : String) (n : Nat) (h : n < UInt64.size) : Field :=
  ⟨name, Text.natDigits n, .number (.word n), writes_word h⟩

end Json.Field

/-- The value that a command is written as. -/
def Command.toJson : Command → Json
  | .eval generation line => .object
      [(some "command".toList, .string (some "eval".toList)),
       (some "generation".toList, .number (.word generation.toNat)),
       (some "line".toList, .string (some line.toList))]
  | .reset generation => .object
      [(some "command".toList, .string (some "reset".toList)),
       (some "generation".toList, .number (.word generation.toNat))]
  | .shutdown => .object [(some "command".toList, .string (some "shutdown".toList))]

theorem Command.writes (c : Command) : Writes c.encodeChars c.toJson := by
  cases c with
  | eval generation line =>
    exact writes_object (.ofText "command" "eval")
      [.ofWord "generation" generation.toNat generation.toNat_lt_size, .ofText "line" line]
  | reset generation =>
    exact writes_object (.ofText "command" "reset")
      [.ofWord "generation" generation.toNat generation.toNat_lt_size]
  | shutdown => exact writes_object (.ofText "command" "shutdown") []

/-- The value that an outcome is written as. -/
def Outcome.toJson : Outcome → Json
  | .success text => .object
      [(some "kind".toList, .string (some "success".toList)),
       (some "text".toList, .string (some text.toList))]
  | .failure text => .object
      [(some "kind".toList, .string (some "failure".toList)),
       (some "text".toList, .string (some text.toList))]

theorem Outcome.writes (o : Outcome) : Writes o.encodeChars o.toJson := by
  cases o with
  | success text => exact writes_object (.ofText "kind" "success") [.ofText "text" text]
  | failure text => exact writes_object (.ofText "kind" "failure") [.ofText "text" text]

/-- The value that stands for an outcome or for none. -/
def outcomeJson : Option Outcome → Json
  | none => .null
  | some outcome => outcome.toJson

/-- The value that a response is written as. -/
def Response.toJson (r : Response) : Json :=
  .object
    [(some "generation".toList, .number (.word r.generation.toNat)),
     (some "complete".toList, .bool r.complete),
     (some "outcome".toList, outcomeJson r.outcome),
     (some "reset_buffer".toList, .bool r.resetBuffer),
     (some "buffered_lines".toList, .number (.word r.bufferedLines))]

theorem writes_outcome (o : Option Outcome) :
    Writes (match o with | none => "null".toList | some outcome => outcome.encodeChars)
      (outcomeJson o) := by
  cases o with
  | none => exact writes_null
  | some outcome => exact outcome.writes

theorem Response.writes {r : Response} (fits : r.bufferedLines < UInt64.size) :
    Writes r.encodeChars r.toJson :=
  writes_object (.ofWord "generation" r.generation.toNat r.generation.toNat_lt_size)
    [.ofBool "complete" r.complete, ⟨"outcome", _, _, writes_outcome r.outcome⟩,
      .ofBool "reset_buffer" r.resetBuffer, .ofWord "buffered_lines" r.bufferedLines fits]

/-! ## From the values to the messages -/

theorem toGeneration?_word (generation : Generation) :
    toGeneration? (.number (.word generation.toNat)) = some generation := by
  simp [toGeneration?, toWord?]

theorem Command.ofJson?_toJson (c : Command) : Command.ofJson? c.toJson = some c := by
  cases c with
  | eval generation line =>
    simp [ofJson?, toJson, requiredField?, fieldValues, toGeneration?_word, toText?]
  | reset generation =>
    simp [ofJson?, toJson, requiredField?, fieldValues, toGeneration?_word, toText?]
  | shutdown => rfl

/-- A command nests one level deep, and all of it is sound. -/
theorem Command.isSound_toJson (c : Command) : c.toJson.isSound commandLevels = true := by
  cases c <;> rfl

theorem Outcome.ofJson?_toJson (o : Outcome) : Outcome.ofJson? o.toJson = some o := by
  cases o with
  | success text =>
    simp [ofJson?, toJson, namesSound, requiredField?, fieldValues, toKindName?, outcomeKind?,
      toText?]
  | failure text =>
    simp [ofJson?, toJson, namesSound, requiredField?, fieldValues, toKindName?, outcomeKind?,
      toText?]

theorem outcome?_outcomeJson (o : Option Outcome) : outcome? (outcomeJson o) = some o := by
  cases o with
  | none => rfl
  | some outcome =>
    have object : ∃ fields, outcome.toJson = .object fields := by
      cases outcome <;> exact ⟨_, rfl⟩
    obtain ⟨fields, same⟩ := object
    have read := outcome.ofJson?_toJson
    rw [same] at read
    rw [outcomeJson, same, outcome?, read]
    · rfl
    · intro null
      cases null

theorem Response.ofJson?_toJson (r : Response) : Response.ofJson? r.toJson = some r := by
  simp [ofJson?, toJson, requiredField?, optionalField?, fieldValues, namesSound, ofParts?,
    toGeneration?_word, outcome?_outcomeJson, toBool?, toWord?]

/-! ## Lines -/

/-- Blanks behind a text that does not end with one are trimmed, and nothing else. -/
theorem Text.trimEndChars_append_blanks (cs : List Char) {c : Char} (ink : isBlank c = false)
    {blanks : List Char} (blank : ∀ b ∈ blanks, isBlank b = true) :
    trimEndChars (cs ++ [c] ++ blanks) = cs ++ [c] := by
  have behind : ∀ b ∈ blanks.reverse, isBlank b = true := fun b member =>
    blank b (List.mem_reverse.1 member)
  rw [trimEndChars, List.reverse_append, List.dropWhile_append_of_pos behind, List.reverse_append,
    List.reverse_singleton, List.singleton_append, List.dropWhile_cons_of_neg (by simp [ink])]
  simp

/-- The text does not end the line that it stands on. -/
def Text.StaysInLine (s : String) : Prop :=
  '\n' ∉ s.toList ∧ '\r' ∉ s.toList

/-- A written form has no line ends, as it has no controls at all. -/
theorem Json.Writes.staysInLine {cs : List Char} {v : Json} (h : Writes cs v) :
    Text.StaysInLine (String.ofList cs) := by
  rw [Text.StaysInLine, String.toList_ofList]
  exact ⟨fun feed => absurd (h.visible _ feed) (by decide),
    fun ret => absurd (h.visible _ ret) (by decide)⟩

/-- A written form that ends with a brace is read as its value, whatever blanks stand behind it. -/
theorem Json.Writes.parse_append_blanks {cs inside : List Char} {v : Json} (h : Writes cs v)
    (brace : cs = inside ++ ['\x7d']) {blanks : String} (blank : Text.isBlankText blanks = true) :
    parse? (Text.trimEndChars (String.ofList cs ++ blanks).toList) = some v := by
  have each : ∀ b ∈ blanks.toList, Text.isBlank b = true := List.all_eq_true.1 blank
  rw [String.toList_append, String.toList_ofList, brace,
    Text.trimEndChars_append_blanks inside rfl each, ← brace]
  exact h.parse

/-! ## The messages come back -/

section Commands

variable (c : Command)

theorem Command.staysInLine_encode : Text.StaysInLine c.encode :=
  c.writes.staysInLine

theorem Command.decode?_encode {blanks : String} (blank : Text.isBlankText blanks = true) :
    Command.decode? (c.encode ++ blanks) = some c := by
  obtain ⟨inside, brace⟩ : ∃ inside, c.encodeChars = inside ++ ['\x7d'] := by
    cases c <;> exact ⟨_, rfl⟩
  rw [decode?, encode, c.writes.parse_append_blanks brace blank]
  show (if c.toJson.isSound commandLevels then ofJson? c.toJson else none) = some c
  rw [if_pos c.isSound_toJson, c.ofJson?_toJson]

end Commands

section Responses

variable {r : Response} (fits : r.bufferedLines < UInt64.size)

include fits

theorem Response.staysInLine_encode : Text.StaysInLine r.encode :=
  (Response.writes fits).staysInLine

theorem Response.decode?_encode {blanks : String} (blank : Text.isBlankText blanks = true) :
    Response.decode? (r.encode ++ blanks) = some r := by
  rw [decode?, encode, (Response.writes fits).parse_append_blanks rfl blank]
  exact r.ofJson?_toJson

end Responses

/-- Every command, and every response whose count of lines is a word, is written on one line; and
read back, with any blanks behind it, it is the very same. -/
theorem decode_encode (c : Command) (r : Response) (fits : r.bufferedLines < UInt64.size)
    (blanks : String) (blank : Text.isBlankText blanks = true) :
    (Text.StaysInLine c.encode ∧ Command.decode? (c.encode ++ blanks) = some c) ∧
      Text.StaysInLine r.encode ∧ Response.decode? (r.encode ++ blanks) = some r :=
  ⟨⟨c.staysInLine_encode, c.decode?_encode blank⟩,
    Response.staysInLine_encode fits, Response.decode?_encode fits blank⟩

/-- Texts with quotes, a backslash, controls, line ends and blanks at their ends, in the last
generation and with the largest count of lines. -/
theorem decode_encode_controls :
    let text := "\"\\ \x00\x07\x1b\x7f\r\n\u2028 \u3000"
    let c : Command := .eval 18446744073709551615 text
    let r : Response := ⟨0, true, some (.failure text), false, 18446744073709551615⟩
    let blanks := " \r\n\u0085\u3000"
    r.bufferedLines < UInt64.size ∧ Text.isBlankText blanks = true ∧
      Text.StaysInLine c.encode ∧ Command.decode? (c.encode ++ blanks) = some c ∧
      Text.StaysInLine r.encode ∧ Response.decode? (r.encode ++ blanks) = some r := by
  intro text c r blanks
  have fits : r.bufferedLines < UInt64.size := by decide
  have blank : Text.isBlankText blanks = true := by decide
  obtain ⟨⟨commandLine, command⟩, responseLine, response⟩ := decode_encode c r fits blanks blank
  exact ⟨fits, blank, commandLine, command, responseLine, response⟩

end LispRepl

import LispRepl.Toml.Literal

/-!
# TOML documents

A document is a sequence of lines, each blank, a header that opens a table, or a key and a value
for the table opened last. Arrays may run over several lines, tables in braces may not, and both
nest to a bounded depth. A byte order mark at the start is skipped.

- `Toml.value?`: a value at the start of a text.
- `Toml.document?`: the entries of a whole document.
-/

set_option autoImplicit false

namespace LispRepl.Toml

/-- How deep arrays and tables in braces may nest. -/
def valueLevels : Nat := 79

mutual

/-- The value at the start of a text. -/
def value? : Nat → Nat → List Char → Option (Toml × List Char)
  | 0, _, _ => none
  | fuel + 1, levels, cs =>
    match cs with
    | [] => none
    | c :: rest =>
      if c = '"' ∨ c = '\'' then
        (string? cs).map fun (s, rest) => (.string (String.ofList s), rest)
      else if c = '[' then
        if levels = 0 then none
        else do
          let (items, rest) ← items? fuel (levels - 1) rest
          return (.array items, rest)
      else if c = '\x7b' then
        if levels = 0 then none
        else do
          let (entries, rest) ← inlineTable? fuel (levels - 1) rest
          return (.table .inline entries, rest)
      else if c = 't' then (behind? "true" cs).map fun rest => (.bool true, rest)
      else if c = 'f' then (behind? "false" cs).map fun rest => (.bool false, rest)
      else number? cs

/-- The items of an array up to its bracket, which may stand behind a comma. -/
def items? : Nat → Nat → List Char → Option (List Toml × List Char)
  | 0, _, _ => none
  | fuel + 1, levels, cs => do
    match ← skipLines? cs.length cs with
    | ']' :: rest => some ([], rest)
    | cs => do
      let (v, rest) ← value? fuel levels cs
      match ← skipLines? rest.length rest with
      | ']' :: rest => some ([v], rest)
      | ',' :: rest => do
        let (vs, rest) ← items? fuel levels rest
        return (v :: vs, rest)
      | _ => none

/-- The entries of a table in braces up to its brace. -/
def inlineTable? : Nat → Nat → List Char → Option (Entries × List Char)
  | 0, _, _ => none
  | fuel + 1, levels, cs =>
    match skipWs cs with
    | '\x7d' :: rest => some ([], rest)
    | cs => inlineEntries? fuel levels [] cs

/-- The entries of a table in braces that is not empty, added to those before. -/
def inlineEntries? : Nat → Nat → Entries → List Char → Option (Entries × List Char)
  | 0, _, _, _ => none
  | fuel + 1, levels, entries, cs => do
    let ((path, key), rest) ← key? cs
    let (v, rest) ← value? fuel levels (skipWs (← expect? '=' rest))
    let entries ← insertDotted? .inlineDotted key v path entries
    match skipWs rest with
    | '\x7d' :: rest => some (entries, rest)
    | ',' :: rest => inlineEntries? fuel levels entries rest
    | _ => none

end

/-- A document as far as it has been read: the path of the table opened last, and all entries. -/
structure Draft where
  path : List String
  entries : Entries

/-- The effect of a header of one table. -/
def Draft.openTable? (d : Draft) (path : List String) (key : String) : Option Draft := do
  return ⟨path ++ [key], ← atPath? (Toml.openTable? key) path d.entries⟩

/-- The effect of a header of one more of several tables. -/
def Draft.openItem? (d : Draft) (path : List String) (key : String) : Option Draft := do
  return ⟨path ++ [key], ← atPath? (Toml.openItem? key) path d.entries⟩

/-- The effect of a key and a value. -/
def Draft.insert? (d : Draft) (path : List String) (key : String) (v : Toml) : Option Draft := do
  return { d with entries := ← atPath? (insertDotted? .dotted key v path) d.path d.entries }

/-- The lines of a text, added to a draft; fuel for as many lines as there may be. -/
def lines? : Nat → Draft → List Char → Option Draft
  | 0, _, _ => none
  | fuel + 1, d, cs =>
    match skipWs cs with
    | [] => some d
    | '#' :: rest => do lines? fuel d (← lineEnd? (rest.dropWhile isCommentChar))
    | '\n' :: rest => lines? fuel d rest
    | '\r' :: '\n' :: rest => lines? fuel d rest
    | '[' :: '[' :: rest => do
      let ((path, key), rest) ← key? rest
      let rest ← lineRest? (← expect? ']' (← expect? ']' rest))
      lines? fuel (← d.openItem? path key) rest
    | '[' :: rest => do
      let ((path, key), rest) ← key? rest
      let rest ← lineRest? (← expect? ']' rest)
      lines? fuel (← d.openTable? path key) rest
    | cs => do
      let ((path, key), rest) ← key? cs
      let (v, rest) ← value? (cs.length + 1) valueLevels (skipWs (← expect? '=' rest))
      let rest ← lineRest? rest
      lines? fuel (← d.insert? path key v) rest

/-- The entries of a document. Every line takes a character, and every part of a value does, so
that the fuel does not run out. -/
def document? (text : String) : Option Entries :=
  let cs :=
    match text.toList with
    | '\uFEFF' :: cs => cs
    | cs => cs
  (lines? (cs.length + 1) ⟨[], []⟩ cs).map Draft.entries

end LispRepl.Toml

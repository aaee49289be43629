/-!
# TOML values

The values of a TOML document. A table remembers how it was written, because that decides which
later lines may add to it. Floats and dates are only recognised: nothing is configured by one.

- `TableForm`, `Toml`: the values. The entries of a table keep their order.
- `Toml.entry?`: the value of a key.
- `Toml.insertDotted?`: adds a value under a dotted key.
- `Toml.openTable?`, `Toml.openItem?`: what a table header does.
-/

set_option autoImplicit false

namespace LispRepl

/-- How a table was written. -/
inductive TableForm where
  /-- Under a header of its own, or as the document itself. -/
  | header
  /-- Only as a part of longer headers. -/
  | implied
  /-- Only as a part of dotted keys. -/
  | dotted
  /-- In braces. -/
  | inline
  /-- Only as a part of dotted keys inside braces. -/
  | inlineDotted
deriving DecidableEq

/-- A value of a document. -/
inductive Toml where
  | string (text : String)
  | integer (value : Int)
  | float
  | bool (value : Bool)
  | date
  | array (items : List Toml)
  | table (form : TableForm) (entries : List (String × Toml))
  /-- The tables under the headers in double brackets of one name. -/
  | tables (items : List Toml)

namespace Toml

/-- The entries of a table. -/
abbrev Entries := List (String × Toml)

/-- The value of a key. -/
def entry? (key : String) : Entries → Option Toml
  | [] => none
  | (k, v) :: rest => if k = key then some v else entry? key rest

/-- The entries with another value for a key: in place of its old one, or at the end. -/
def setEntry (key : String) (value : Toml) : Entries → Entries
  | [] => [(key, value)]
  | (k, v) :: rest => if k = key then (k, value) :: rest else (k, v) :: setEntry key value rest

/-- The entries without a key. -/
def removeEntry (key : String) (entries : Entries) : Entries :=
  entries.filter fun e => e.1 ≠ key

/-- The entries with a new key, which may not be there yet. -/
def addEntry? (key : String) (value : Toml) (entries : Entries) : Option Entries :=
  match entry? key entries with
  | none => some (entries ++ [(key, value)])
  | some _ => none

/-- Adds a value under a dotted key, `path` before `key`. Tables on the way are made in the form
`made` where they are missing. The last of them has to be of that form; the others may be implied
by headers too, and of tables in double brackets the last is meant. -/
def insertDotted? (made : TableForm) (key : String) (value : Toml) :
    List String → Entries → Option Entries
  | [], entries => addEntry? key value entries
  | k :: path, entries =>
    match entry? k entries with
    | none => do
      let inner ← insertDotted? made key value path []
      return entries ++ [(k, .table made inner)]
    | some (.table form inner) =>
      if form = made then do
        let inner ← insertDotted? made key value path inner
        return setEntry k (.table form inner) entries
      else if form = .implied ∧ made = .dotted ∧ path ≠ [] then do
        let inner ← insertDotted? made key value path inner
        return setEntry k (.table form inner) entries
      else none
    | some (.tables items) =>
      match items.getLast? with
      | some (.table form inner) =>
        if path = [] then none
        else do
          let inner ← insertDotted? made key value path inner
          return setEntry k (.tables (items.dropLast ++ [.table form inner])) entries
      | _ => none
    | some _ => none

/-- Changes the table at a path of keys, of which a header is made up. Tables on the way are implied
where they are missing; of tables in double brackets, the last is meant. -/
def atPath? (change : Entries → Option Entries) : List String → Entries → Option Entries
  | [], entries => change entries
  | k :: path, entries =>
    match entry? k entries with
    | none => do
      let inner ← atPath? change path []
      return entries ++ [(k, .table .implied inner)]
    | some (.table form inner) =>
      if form = .inline ∨ form = .inlineDotted then none
      else do
        let inner ← atPath? change path inner
        return setEntry k (.table form inner) entries
    | some (.tables items) =>
      match items.getLast? with
      | some (.table form inner) => do
        let inner ← atPath? change path inner
        return setEntry k (.tables (items.dropLast ++ [.table form inner])) entries
      | _ => none
    | some _ => none

/-- Opens the table of a header: it may only be implied so far, and comes last then. -/
def openTable? (key : String) (entries : Entries) : Option Entries :=
  match entry? key entries with
  | none => some (entries ++ [(key, .table .header [])])
  | some (.table .implied inner) =>
    some (removeEntry key entries ++ [(key, .table .header inner)])
  | some _ => none

/-- Opens one more table of a header in double brackets. -/
def openItem? (key : String) (entries : Entries) : Option Entries :=
  match entry? key entries with
  | none => some (entries ++ [(key, .tables [.table .header []])])
  | some (.tables items) => some (setEntry key (.tables (items ++ [.table .header []])) entries)
  | some _ => none

end Toml

end LispRepl

import LispRepl.Proofs.ParserStep
import LispRepl.Proofs.WordSpelling

/-!
# The grammar of data

A datum is an atom; a quote mark and a datum; data between brackets; or at least one datum, a point
and one more datum between brackets. The grammar says which tokens are a datum, with which value,
and within how many levels of nesting. It does not say how to find out: the parser does, with a
stack. What the parser has on its stack are the beginnings of data (`Opened`), so that what it gets
through is data (`Parser.parsed_run`), and it gets through every datum that its limit leaves room
for (`Parser.takes_of_datum`).

- `Datum`, `Data`: the grammar.
- `Opened`, `Parsed`: what the parser has read so far.
- `parseTokens_eq_ok`: the parser accepts what the grammar allows, with the same values.
- `readSource_iff_data`, `datum_of_readSource`: the data of a text.
-/

set_option autoImplicit false

namespace LispRepl

/-- The tokens are a datum with this value within `n` levels of nesting. An atom is one level, and
a list or a quote is one more than its deepest part. -/
inductive Datum : Nat → List TokenKind → Value → Prop where
  | atom {n : Nat} {t : TokenKind} {v : Value} : t.atom? = some v → Datum (n + 1) [t] v
  | quote {n : Nat} {ts : List TokenKind} {v : Value} : Datum n ts v →
    Datum (n + 1) (.quote :: ts) (.list [.symbol "quote", v])
  /-- The parts are data side by side. -/
  | list {n : Nat} {parts : List (List TokenKind × Value)} : (∀ p ∈ parts, Datum n p.1 p.2) →
    Datum (n + 1) (.opening :: parts.flatMap Prod.fst ++ [.closing]) (.list (parts.map Prod.snd))
  | dotted {n : Nat} {parts : List (List TokenKind × Value)} {ts : List TokenKind} {tail : Value} :
    parts ≠ [] → (∀ p ∈ parts, Datum n p.1 p.2) → Datum n ts tail →
    Datum (n + 1) (.opening :: parts.flatMap Prod.fst ++ .dot :: ts ++ [.closing])
      (.join (parts.map Prod.snd) tail)

/-- The tokens are data side by side with these values, each within `n` levels. -/
def Data (n : Nat) (ts : List TokenKind) (vs : List Value) : Prop :=
  ∃ parts : List (List TokenKind × Value), (∀ p ∈ parts, Datum n p.1 p.2) ∧
    ts = parts.flatMap Prod.fst ∧ vs = parts.map Prod.snd

variable {limit n : Nat} {ts us : List TokenKind} {v tail : Value} {vs : List Value}

/-- Every datum needs a level. -/
theorem Datum.pos (h : Datum n ts v) : 0 < n := by
  cases h <;> exact Nat.succ_pos _

theorem Data.nil (n : Nat) : Data n [] [] :=
  ⟨[], by simp, rfl, rfl⟩

theorem Data.snoc (h : Data n ts vs) (last : Datum n us v) : Data n (ts ++ us) (vs ++ [v]) := by
  obtain ⟨parts, each, rfl, rfl⟩ := h
  refine ⟨parts ++ [(us, v)], ?_, by simp, by simp⟩
  intro p member
  rcases List.mem_append.1 member with member | member
  · exact each p member
  · rw [List.mem_singleton] at member
    rw [member]
    exact last

theorem Data.list (h : Data n ts vs) :
    Datum (n + 1) (.opening :: ts ++ [.closing]) (.list vs) := by
  obtain ⟨parts, each, rfl, rfl⟩ := h
  exact .list each

theorem Data.dotted (h : Data n ts vs) (some : vs ≠ []) (last : Datum n us tail) :
    Datum (n + 1) (.opening :: ts ++ .dot :: us ++ [.closing]) (.join vs tail) := by
  obtain ⟨parts, each, rfl, rfl⟩ := h
  exact .dotted (fun none => some (by rw [none]; rfl)) each last

theorem Data.datum_of_mem (h : Data n ts vs) (member : v ∈ vs) :
    ∃ us, Datum n us v ∧ us ⊆ ts := by
  obtain ⟨parts, each, rfl, rfl⟩ := h
  obtain ⟨p, part, rfl⟩ := List.mem_map.1 member
  refine ⟨p.1, each p part, ?_⟩
  intro t inside
  exact List.mem_flatMap.2 ⟨p, part, inside⟩

/-- What the tokens of each part give its value, all tokens give all values. -/
theorem forall_parts {P : TokenKind → Prop} {Q : Value → Prop}
    {parts : List (List TokenKind × Value)} (each : ∀ p ∈ parts, (∀ t ∈ p.1, P t) → Q p.2)
    (all : ∀ t ∈ parts.flatMap Prod.fst, P t) : ∀ v ∈ parts.map Prod.snd, Q v := by
  intro v member
  obtain ⟨p, part, rfl⟩ := List.mem_map.1 member
  refine each p part fun t inside => all t ?_
  exact List.mem_flatMap.2 ⟨p, part, inside⟩

/-! ## What the parser gets through -/

/-- The tokens are those of the open frames, the outermost first: what they hold is data, within
the levels that the frames leave of the limit. -/
inductive Opened (limit : Nat) : List Frame → List TokenKind → Prop where
  | nil : Opened limit [] []
  | quote {outer : List Frame} {ts : List TokenKind} : Opened limit outer ts →
    Opened limit (.quote :: outer) (ts ++ [.quote])
  | items {outer : List Frame} {ts us : List TokenKind} {items : List Value} {n : Nat} :
    Opened limit outer ts → outer.length + 1 + n = limit → Data n us items.reverse →
    Opened limit (.items items :: outer) (ts ++ .opening :: us)
  | tail {outer : List Frame} {ts us : List TokenKind} {items : List Value} {n : Nat} :
    Opened limit outer ts → outer.length + 1 + n = limit → Data n us items.reverse → items ≠ [] →
    Opened limit (.tail items :: outer) (ts ++ (.opening :: us ++ [.dot]))

/-- The tokens are those that the parser has taken: data that have ended, the open frames, and a
list whose tail has been read. -/
inductive Parsed (limit : Nat) : Parser → List TokenKind → Prop where
  | free {stack : List Frame} {done : List Value} {before ts : List TokenKind} :
    Data limit before done.reverse → Opened limit stack ts →
    Parsed limit ⟨stack, none, done⟩ (before ++ ts)
  | closing {stack : List Frame} {done items : List Value} {tail : Value} {n : Nat}
      {before ts us ws : List TokenKind} :
    Data limit before done.reverse → Opened limit stack ts → stack.length + 1 + n = limit →
    Data n us items.reverse → items ≠ [] → Datum n ws tail →
    Parsed limit ⟨stack, some (items, tail), done⟩ (before ++ ts ++ (.opening :: us ++ .dot :: ws))

namespace Parser

/-- A datum that ends inside the open frames ends the quotes around it. -/
theorem parsed_complete {stack : List Frame} {done : List Value} {before : List TokenKind}
    (read : Data limit before done.reverse) (opened : Opened limit stack ts)
    (room : stack.length + n = limit) (datum : Datum n us v) :
    Parsed limit (complete done v stack) (before ++ ts ++ us) := by
  -- From the innermost frame outwards: a quote ends with its datum, and a list takes it and stays.
  induction stack generalizing n ts us v with
  | nil =>
    cases opened
    have same : n = limit := by simpa using room
    have read : Data limit (before ++ us) (v :: done).reverse := by
      rw [List.reverse_cons]
      exact read.snoc (same ▸ datum)
    simpa [complete] using Parsed.free read .nil
  | cons frame outer ih =>
    rw [List.length_cons] at room
    cases opened with
    | @quote outer ts opened =>
      have quoted := ih opened (n := n + 1) (by omega) (.quote datum)
      simpa [complete] using quoted
    | @items outer ts inner items m opened level data =>
      have same : n = m := by omega
      have data : Data m (inner ++ us) (v :: items).reverse := by
        rw [List.reverse_cons]
        exact data.snoc (same ▸ datum)
      simpa [complete] using Parsed.free read (.items opened level data)
    | @tail outer ts inner items m opened level data some =>
      have same : n = m := by omega
      have closing := Parsed.closing read opened level data some (same ▸ datum)
      simpa [complete] using closing

theorem parsed_step {p q : Parser} {t : TokenKind} (h : Parsed limit p ts)
    (step : p.step limit t = .ok q) : Parsed limit q (ts ++ [t]) := by
  -- Only a list whose tail has been read waits for its bracket, so each action has one case.
  cases action_of_step step with
  | closeTail closing =>
    cases h with
    | free => cases closing
    | @closing stack done items tail n before ts us ws read opened room data some last =>
      cases closing
      have datum := data.dotted (by simpa using some) last
      have whole := parsed_complete read opened (n := n + 1) (by omega) datum
      simpa using whole
  | closeList closing stack =>
    cases h with
    | closing => cases closing
    | @free stack done before ts read opened =>
      cases stack
      cases opened with
      | @items outer ts us items n opened room data =>
        have whole := parsed_complete read opened (n := n + 1) (by omega) data.list
        simpa using whole
  | dot closing stack room =>
    cases h with
    | closing => cases closing
    | @free stack done before ts read opened =>
      cases stack
      cases opened with
      | @items outer ts us items n opened room data =>
        simpa using Parsed.free read (.tail opened room data (by simp))
  | opening closing room =>
    cases h with
    | closing => cases closing
    | @free stack done before ts read opened =>
      -- The list has the levels that are left below it.
      have level : stack.length + 1 + (limit - (stack.length + 1)) = limit := by
        simp only at room
        omega
      simpa using Parsed.free read (.items opened level (Data.nil _))
  | quote closing room =>
    cases h with
    | closing => cases closing
    | @free stack done before ts read opened => simpa using Parsed.free read (.quote opened)
  | atom closing room value =>
    cases h with
    | closing => cases closing
    | @free stack done before ts read opened =>
      obtain ⟨n, level⟩ := Nat.exists_eq_add_of_lt room
      have level : stack.length + (n + 1) = limit := level.symm
      simpa using parsed_complete read opened level (.atom value)

theorem parsed_run {p q : Parser} (h : Parsed limit p ts) (run : p.run limit us = .ok q) :
    Parsed limit q (ts ++ us) := by
  induction us generalizing p ts with
  | nil =>
    cases run
    simpa using h
  | cons t us ih =>
    rw [run_cons] at run
    obtain ⟨next, first, rest⟩ := bind_eq_ok.1 run
    have longer := ih (parsed_step h first) rest
    rwa [List.append_assoc] at longer

/-! ## What the grammar allows -/

variable {stack : List Frame} {done items : List Value} {t : TokenKind}

/-- Only a closing bracket and a point mean something of their own inside a list. -/
theorem step_eq_begin (closes : t ≠ .closing) (points : t ≠ .dot) :
    step limit ⟨stack, none, done⟩ t = begin limit ⟨stack, none, done⟩ t := by
  cases stack with
  | nil => rfl
  | cons frame outer =>
    cases frame with
    | quote => rfl
    | tail items => rfl
    | items items =>
      cases items <;> cases t <;> first | rfl | contradiction

theorem step_atom (room : stack.length < limit) (value : t.atom? = some v) :
    step limit ⟨stack, none, done⟩ t = .ok (complete done v stack) := by
  rw [step_eq_begin (by rintro rfl; cases value) (by rintro rfl; cases value), begin.eq_def,
    if_neg (Nat.not_le_of_lt room)]
  cases t <;> cases value <;> rfl

theorem step_opening (room : stack.length < limit) :
    step limit ⟨stack, none, done⟩ .opening = .ok ⟨.items [] :: stack, none, done⟩ := by
  rw [step_eq_begin (by simp) (by simp), begin.eq_def, if_neg (Nat.not_le_of_lt room)]

theorem step_quote (room : stack.length + 1 < limit) :
    step limit ⟨stack, none, done⟩ .quote = .ok ⟨.quote :: stack, none, done⟩ := by
  rw [step_eq_begin (by simp) (by simp), begin.eq_def, if_neg (by simp only; omega)]
  exact if_neg (Nat.not_le_of_lt room)

theorem step_dot (room : stack.length + 1 < limit) (some : items ≠ []) :
    step limit ⟨.items items :: stack, none, done⟩ .dot =
      .ok ⟨.tail items :: stack, none, done⟩ := by
  cases items with
  | nil => exact absurd rfl some
  | cons v items => exact if_neg (Nat.not_le_of_lt room)

theorem step_closing :
    step limit ⟨.items items :: stack, none, done⟩ .closing =
      .ok (complete done (.list items.reverse) stack) := by
  cases items <;> rfl

/-- The parser gets through the tokens, which stand for the value, if the open frames leave room
for that many levels. -/
def Takes (limit n : Nat) (ts : List TokenKind) (v : Value) : Prop :=
  ∀ (stack : List Frame) (done : List Value), stack.length + n ≤ limit →
    run limit ⟨stack, none, done⟩ ts = .ok (complete done v stack)

theorem run_items {parts : List (List TokenKind × Value)}
    (each : ∀ p ∈ parts, Takes limit n p.1 p.2) (stack : List Frame) (done items : List Value)
    (room : stack.length + 1 + n ≤ limit) :
    run limit ⟨.items items :: stack, none, done⟩ (parts.flatMap Prod.fst) =
      .ok ⟨.items ((parts.map Prod.snd).reverse ++ items) :: stack, none, done⟩ := by
  induction parts generalizing items with
  | nil => rfl
  | cons p parts ih =>
    obtain ⟨first, rest⟩ := List.forall_mem_cons.1 each
    rw [List.flatMap_cons, run_append, first (.items items :: stack) done room]
    have next := ih rest (p.2 :: items)
    rw [List.map_cons, List.reverse_cons, List.append_assoc]
    exact next

theorem takes_of_datum (h : Datum n ts v) : Takes limit n ts v := by
  -- The open frames are general, for a part of a list stands inside the frame of the list.
  induction h with
  | @atom n t v value =>
    intro stack done room
    rw [run_cons, step_atom (by omega) value]
    rfl
  | @quote n ts v datum ih =>
    intro stack done room
    have level := datum.pos
    rw [run_cons, step_quote (by omega)]
    exact ih (.quote :: stack) done (by rw [List.length_cons]; omega)
  | @list n parts each ih =>
    intro stack done room
    have inside := run_items ih stack done [] (by omega)
    have ends := @step_closing limit stack done (parts.map Prod.snd).reverse
    rw [List.append_nil] at inside
    rw [List.reverse_reverse] at ends
    rw [List.cons_append, run_cons, step_opening (by omega)]
    change run limit ⟨.items [] :: stack, none, done⟩ _ = _
    rw [run_append, inside]
    change run limit ⟨.items (parts.map Prod.snd).reverse :: stack, none, done⟩ [.closing] = _
    rw [run_cons, ends]
    rfl
  | @dotted n parts ts tail some each datum ih tail_ih =>
    intro stack done room
    have level := datum.pos
    have inside := run_items ih stack done [] (by omega)
    rw [List.append_nil] at inside
    have begun : (parts.map Prod.snd).reverse ≠ [] := by simpa using some
    have behind := tail_ih (.tail (parts.map Prod.snd).reverse :: stack) done
      (by rw [List.length_cons]; omega)
    rw [List.cons_append, List.cons_append, List.append_assoc, run_cons, step_opening (by omega)]
    change run limit ⟨.items [] :: stack, none, done⟩ _ = _
    rw [run_append, inside]
    change run limit _ (.dot :: ts ++ [.closing]) = _
    rw [List.cons_append, run_cons, step_dot (by omega) begun]
    change run limit _ (ts ++ [.closing]) = _
    rw [run_append, behind]
    change Except.ok (complete done (.join (parts.map Prod.snd).reverse.reverse tail) stack) = _
    rw [List.reverse_reverse]

theorem run_of_data (h : Data limit ts vs) :
    run limit start ts = .ok ⟨[], none, vs.reverse⟩ := by
  obtain ⟨parts, each, rfl, rfl⟩ := h
  have from_ (done : List Value) : run limit ⟨[], none, done⟩ (parts.flatMap Prod.fst) =
      .ok ⟨[], none, (parts.map Prod.snd).reverse ++ done⟩ := by
    induction parts generalizing done with
    | nil => rfl
    | cons p parts ih =>
      obtain ⟨first, rest⟩ := List.forall_mem_cons.1 each
      rw [List.flatMap_cons, run_append, takes_of_datum first [] done (by simp)]
      have next := ih rest (p.2 :: done)
      rw [List.map_cons, List.reverse_cons, List.append_assoc]
      exact next
  have all := from_ []
  rwa [List.append_nil] at all

end Parser

/-- The parser accepts the tokens that the grammar allows within the limit, with their values. -/
theorem parseTokens_eq_ok {tokens : List Token} :
    parseTokens limit tokens = .ok vs ↔ Data limit (tokens.map Token.kind) vs := by
  rw [parseTokens]
  constructor
  · intro h
    obtain ⟨p, run, finish⟩ := bind_eq_ok.1 h
    obtain ⟨⟨closing, stack⟩, rfl⟩ := Parser.finish_eq_ok.1 finish
    have read : Parsed limit p (tokens.map Token.kind) :=
      Parser.parsed_run (.free (Data.nil limit) .nil) run
    generalize tokens.map Token.kind = kinds at read ⊢
    -- Nothing is open at the end, so that all tokens are those of data that have ended.
    cases read with
    | closing => cases closing
    | free read opened =>
      cases stack
      cases opened
      rwa [List.append_nil]
  · intro h
    rw [Parser.run_of_data h]
    exact congrArg Except.ok (List.reverse_reverse vs)

/-! ## The data of a text -/

theorem readSource_iff_data {source : String} :
    readSource limit source = .ok vs ↔
      ∃ tokens, tokenize source = .ok tokens ∧ Data limit (tokens.map Token.kind) vs := by
  rw [readSource_eq_ok]
  constructor
  · rintro ⟨tokens, p, cut, run, finish⟩
    exact ⟨tokens, cut, parseTokens_eq_ok.1 (bind_eq_ok.2 ⟨p, run, finish⟩)⟩
  · rintro ⟨tokens, cut, data⟩
    obtain ⟨p, run, finish⟩ := bind_eq_ok.1 (parseTokens_eq_ok.2 data)
    exact ⟨tokens, p, cut, run, finish⟩

/-- Each value of a text is a datum, of tokens that a text can have. -/
theorem datum_of_readSource {source : String} (h : readSource limit source = .ok vs)
    (member : v ∈ vs) : ∃ ts, Datum limit ts v ∧ ∀ t ∈ ts, t.Spelled := by
  obtain ⟨tokens, cut, data⟩ := readSource_iff_data.1 h
  obtain ⟨ts, datum, among⟩ := data.datum_of_mem member
  exact ⟨ts, datum, fun t inside => spelled_of_tokenize cut t (among inside)⟩

end LispRepl

import LispRepl.Proofs.BuiltinResults
import LispRepl.Proofs.DatumGrammar
import LispRepl.Proofs.ValueInvariant

/-!
# Where names come from

Symbols enter a session through the lexer alone, whose words hold no blank, bracket, quote mark,
double quote or semicolon; the parser adds the symbol `quote`. Evaluation makes no new names, so
that every name in every value is a word.

- `Value.NamesIn`: a property of all names in a value, and `hereditary_namesIn`.
- `IsWord`, `namesIn_of_datum`, `namesIn_of_readSource`: the names that reading gives.
-/

set_option autoImplicit false

namespace LispRepl

/-! ## The names in a value -/

mutual

/-- Every name in the value has the property. -/
def Value.NamesIn (P : String → Prop) : Value → Prop
  | .symbol name => P name
  | .list items => Value.AllNamesIn P items
  | .dotted items tail => Value.AllNamesIn P items ∧ tail.NamesIn P
  | .lambda _ name params rest body _ =>
    (∀ n ∈ name, P n) ∧ (∀ n ∈ params, P n) ∧ (∀ n ∈ rest, P n) ∧ Value.AllNamesIn P body
  | _ => True

/-- Every name in the values has the property. -/
def Value.AllNamesIn (P : String → Prop) : List Value → Prop
  | [] => True
  | v :: vs => v.NamesIn P ∧ Value.AllNamesIn P vs

end

variable {P : String → Prop}

theorem allNamesIn_iff {items : List Value} :
    Value.AllNamesIn P items ↔ ∀ v ∈ items, v.NamesIn P := by
  induction items with
  | nil => simp [Value.AllNamesIn]
  | cons v vs ih => simp [Value.AllNamesIn, ih]

/-- The names of a pair are those of its parts. -/
theorem namesIn_cons {head tail : Value} (hh : head.NamesIn P) (ht : tail.NamesIn P) :
    (Value.cons head tail).NamesIn P := by
  cases tail <;> simp_all [Value.cons, Value.NamesIn, Value.AllNamesIn]

theorem namesIn_car {v part : Value} (hv : v.NamesIn P) (h : v.car = .ok part) :
    part.NamesIn P := by
  simp only [Value.car] at h
  split at h
  all_goals cases h
  · exact hv.1
  · exact hv.1.1

theorem namesIn_cdr {v part : Value} (hv : v.NamesIn P) (h : v.cdr = .ok part) :
    part.NamesIn P := by
  simp only [Value.cdr] at h
  split at h
  all_goals cases h
  · exact hv.2
  · exact hv.2
  · rename_i items tail _
    refine ⟨?_, hv.2⟩
    cases items with
    | nil => trivial
    | cons item items => exact hv.1.2

theorem namesIn_of_apply {b : Builtin} {args : List Value} {v : Value}
    (hargs : ∀ a ∈ args, a.NamesIn P) (h : b.apply args = .ok v) : v.NamesIn P := by
  cases gives_of_apply h with
  | number | bool => trivial
  | list => exact allNamesIn_iff.2 hargs
  | cons two =>
    subst two
    obtain ⟨hhead, htail⟩ := List.forall_mem_cons.1 hargs
    exact namesIn_cons hhead (List.forall_mem_singleton.1 htail)
  | car one hcar =>
    subst one
    exact namesIn_car (List.forall_mem_singleton.1 hargs) hcar
  | cdr one hcdr =>
    subst one
    exact namesIn_cdr (List.forall_mem_singleton.1 hargs) hcdr

/-- Evaluation makes no new names. -/
theorem hereditary_namesIn (P : String → Prop) : Hereditary (Value.NamesIn P) where
  nil := trivial
  unspecified := trivial
  bool _ := trivial
  builtin _ := trivial
  list := allNamesIn_iff.2
  lambda hname hparams hrest hbody := ⟨hname, hparams, hrest, allNamesIn_iff.2 hbody⟩
  items := allNamesIn_iff.1
  dotted h := ⟨allNamesIn_iff.1 h.1, h.2⟩
  name h := h.1 _ rfl
  body h := allNamesIn_iff.1 h.2.2.2
  apply := namesIn_of_apply

/-! ## Words -/

/-- The name holds no character that ends a word. -/
def IsWord (name : String) : Prop :=
  ∀ c ∈ name.toList, endsWord c = false

/-- A token that is a symbol has a name with the property. -/
def TokenKind.NameIn (P : String → Prop) : TokenKind → Prop
  | .symbol name => P name
  | _ => True

theorem nameIn_of_spelled {kind : TokenKind} (h : kind.Spelled) : kind.NameIn IsWord := by
  cases h with
  | word spells =>
    cases kind with
    | symbol name =>
      rw [TokenKind.NameIn, IsWord, spells.symbol]
      exact spells.inside
    | _ => trivial
  | _ => trivial

/-! ## Data -/

theorem namesIn_join {items : List Value} {tail : Value} (hitems : ∀ v ∈ items, v.NamesIn P)
    (htail : tail.NamesIn P) : (Value.join items tail).NamesIn P := by
  cases tail with
  | list rest =>
    refine allNamesIn_iff.2 fun v hv => ?_
    rcases List.mem_append.1 hv with hv | hv
    · exact hitems v hv
    · exact allNamesIn_iff.1 htail v hv
  | dotted rest tail =>
    refine ⟨allNamesIn_iff.2 fun v hv => ?_, htail.2⟩
    rcases List.mem_append.1 hv with hv | hv
    · exact hitems v hv
    · exact allNamesIn_iff.1 htail.1 v hv
  | _ => exact ⟨allNamesIn_iff.2 hitems, htail⟩

theorem namesIn_of_atom {t : TokenKind} {v : Value} (ht : t.NameIn P) (h : t.atom? = some v) :
    v.NamesIn P := by
  cases t with
  | symbol name =>
    cases h
    exact ht
  | opening | closing | quote | dot => cases h
  | _ =>
    cases h
    trivial

/-- The names in a datum are those of its tokens, and the symbol of its quote marks. -/
theorem namesIn_of_datum (hquote : P "quote") {n : Nat} {ts : List TokenKind} {v : Value}
    (h : Datum n ts v) (hts : ∀ t ∈ ts, t.NameIn P) : v.NamesIn P := by
  induction h with
  | atom value => exact namesIn_of_atom (hts _ (by simp)) value
  | quote datum ih => exact ⟨hquote, ih fun t ht => hts t (List.mem_cons_of_mem _ ht), trivial⟩
  | list each ih => exact allNamesIn_iff.2 (forall_parts ih fun t ht => hts t (by simp [ht]))
  | dotted some each datum ih tail_ih =>
    have hitems := forall_parts ih fun t ht => hts t (by simp [ht])
    exact namesIn_join hitems (tail_ih fun t ht => hts t (by simp [ht]))

/-- The names in the data of a text are words, but for the symbol of a quote mark, which is one
too. -/
theorem namesIn_of_readSource {limit : Nat} {source : String} {es : List Value}
    (h : readSource limit source = .ok es) : ∀ e ∈ es, e.NamesIn IsWord := by
  intro e member
  obtain ⟨ts, datum, spelled⟩ := datum_of_readSource h member
  exact namesIn_of_datum spells_quote.inside datum fun t ht => nameIn_of_spelled (spelled t ht)

end LispRepl

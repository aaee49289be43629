import LispRepl.Proofs.DatumGrammar

/-!
# The way in which tokens are data

The grammar of data, as trees. A tree is an atom, a quote mark before a tree, trees between
brackets, or one tree or more, a point and one more tree between brackets; it says which tokens it
stands for and which value they have. How deep it nests is read off the tree, and the grammar with
levels (`Datum`) is that of the trees which are shallow enough.

No two sequences of trees stand for the same tokens. The first token decides what a tree is, so that
a tree ends where its tokens do, whatever stands behind it; and no tree begins with a closing
bracket or a point, so that the items of a list end where one of these stands.

- `DatumTree`, `DatumTree.kinds`, `DatumTree.value`: the trees, their tokens and their values.
- `DatumTree.depth`: how deep lists and quotes nest.
- `DatumTree.Derive`, `DatumTree.data_iff_trees`: the data within a number of levels.
- `DatumTree.derive_unique`: the tokens determine the trees.
- `parseTokens_accepts_grammar`: the parser accepts the tokens of trees, with their values.
-/

set_option autoImplicit false

namespace LispRepl

/-- The way in which tokens are a datum. -/
inductive DatumTree where
  | atom (t : TokenKind) (v : Value) (yields : t.atom? = some v)
  | quote (datum : DatumTree)
  | list (items : List DatumTree)
  /-- One item or more, and the tail behind the point. -/
  | dotted (first : DatumTree) (items : List DatumTree) (tail : DatumTree)

namespace DatumTree

/-- What holds of a tree because it holds of its parts holds of every tree. -/
@[induction_eliminator]
theorem induct {P : DatumTree → Prop} (atom : ∀ t v yields, P (.atom t v yields))
    (quote : ∀ datum, P datum → P (.quote datum))
    (list : ∀ items, (∀ item ∈ items, P item) → P (.list items))
    (dotted : ∀ first items tail, P first → (∀ item ∈ items, P item) → P tail →
      P (.dotted first items tail)) (tree : DatumTree) : P tree :=
  @DatumTree.rec P (fun items => ∀ item ∈ items, P item) atom quote list dotted
    (fun _ none => absurd none List.not_mem_nil)
    (fun _ _ first rest => List.forall_mem_cons.2 ⟨first, rest⟩) tree

mutual

/-- The tokens of the tree. -/
def kinds : DatumTree → List TokenKind
  | .atom t _ _ => [t]
  | .quote datum => .quote :: datum.kinds
  | .list items => .opening :: itemKinds items ++ [.closing]
  | .dotted first items tail =>
    .opening :: (first.kinds ++ itemKinds items) ++ .dot :: tail.kinds ++ [.closing]

/-- The tokens of the trees, one behind the other. -/
def itemKinds : List DatumTree → List TokenKind
  | [] => []
  | item :: items => item.kinds ++ itemKinds items

end

mutual

/-- The value of the tree. -/
def value : DatumTree → Value
  | .atom _ v _ => v
  | .quote datum => .list [.symbol "quote", datum.value]
  | .list items => .list (itemValues items)
  | .dotted first items tail => .join (first.value :: itemValues items) tail.value

/-- The values of the trees. -/
def itemValues : List DatumTree → List Value
  | [] => []
  | item :: items => item.value :: itemValues items

end

mutual

/-- How deep the tree nests: a list or a quote is one level, and an atom is `leaf` levels. -/
def depth (leaf : Nat) : DatumTree → Nat
  | .atom .. => leaf
  | .quote datum => datum.depth leaf + 1
  | .list items => itemDepth leaf items + 1
  | .dotted first items tail =>
    max (max (first.depth leaf) (itemDepth leaf items)) (tail.depth leaf) + 1

/-- The greatest depth of the trees. -/
def itemDepth (leaf : Nat) : List DatumTree → Nat
  | [] => 0
  | item :: items => max (item.depth leaf) (itemDepth leaf items)

end

variable {items : List DatumTree} {leaf n : Nat}

theorem itemKinds_eq (items : List DatumTree) : itemKinds items = items.flatMap kinds := by
  induction items with
  | nil => rfl
  | cons item items ih => rw [itemKinds, ih, List.flatMap_cons]

theorem itemValues_eq (items : List DatumTree) : itemValues items = items.map value := by
  induction items with
  | nil => rfl
  | cons item items ih => rw [itemValues, ih, List.map_cons]

theorem itemDepth_le_iff : itemDepth leaf items ≤ n ↔ ∀ item ∈ items, item.depth leaf ≤ n := by
  induction items with
  | nil => simp [itemDepth]
  | cons item items ih => rw [itemDepth, Nat.max_le, ih, List.forall_mem_cons]

/-- The tokens of a dotted list, with its items together. -/
theorem kinds_dotted (first : DatumTree) (items : List DatumTree) (tail : DatumTree) :
    (dotted first items tail).kinds =
      .opening :: (first :: items).flatMap kinds ++ .dot :: tail.kinds ++ [.closing] := by
  rw [kinds, itemKinds_eq, List.flatMap_cons]

theorem kinds_list (items : List DatumTree) :
    (list items).kinds = .opening :: items.flatMap kinds ++ [.closing] := by
  rw [kinds, itemKinds_eq]

theorem depth_list_le_iff :
    (list items).depth leaf ≤ n + 1 ↔ ∀ item ∈ items, item.depth leaf ≤ n := by
  rw [depth, Nat.add_le_add_iff_right, itemDepth_le_iff]

theorem depth_dotted_le_iff {first tail : DatumTree} :
    (dotted first items tail).depth leaf ≤ n + 1 ↔
      (∀ item ∈ first :: items, item.depth leaf ≤ n) ∧ tail.depth leaf ≤ n := by
  rw [depth, Nat.add_le_add_iff_right, Nat.max_le, Nat.max_le, itemDepth_le_iff,
    List.forall_mem_cons]

/-- A tree has no more tokens than the trees that it is one of. -/
theorem length_kinds_le_of_mem {tree : DatumTree} {trees : List DatumTree} (member : tree ∈ trees) :
    tree.kinds.length ≤ (trees.flatMap kinds).length := by
  rw [List.flatMap_def]
  exact (List.sublist_flatten_of_mem (List.mem_map_of_mem member)).length_le

/-- No tree nests deeper than it has tokens, its atoms counted. -/
theorem depth_le_length (tree : DatumTree) : tree.depth 1 ≤ tree.kinds.length := by
  have within {items : List DatumTree} (each : ∀ item ∈ items, item.depth 1 ≤ item.kinds.length) :
      ∀ item ∈ items, item.depth 1 ≤ (items.flatMap kinds).length := fun item member =>
    Nat.le_trans (each item member) (length_kinds_le_of_mem member)
  -- The brackets are the two tokens that pay for the level of a list.
  induction tree with
  | atom t v yields => exact Nat.le_refl 1
  | quote datum ih => exact Nat.succ_le_succ ih
  | list items ih =>
    have le : (list items).depth 1 ≤ (items.flatMap kinds).length + 1 :=
      depth_list_le_iff.2 (within ih)
    rw [kinds_list, List.length_append, List.length_cons]
    omega
  | dotted first items tail first_ih ih tail_ih =>
    have inside := within (List.forall_mem_cons.2 ⟨first_ih, ih⟩)
    have le : (dotted first items tail).depth 1 ≤
        ((first :: items).flatMap kinds).length + tail.kinds.length + 1 :=
      depth_dotted_le_iff.2 ⟨fun item member => Nat.le_add_right_of_le (inside item member),
        Nat.le_add_left_of_le tail_ih⟩
    simp only [kinds_dotted, List.length_append, List.length_cons]
    omega

/-! ## Trees and the grammar with levels -/

variable {ts : List TokenKind} {v : Value} {vs : List Value}

theorem data_of_trees {trees : List DatumTree}
    (each : ∀ tree ∈ trees, Datum n tree.kinds tree.value) :
    Data n (trees.flatMap kinds) (trees.map value) := by
  refine ⟨trees.map fun tree => (tree.kinds, tree.value), ?_, ?_, ?_⟩
  · simpa using each
  · rw [List.flatMap_map]
  · rw [List.map_map]
    rfl

/-- A tree is a datum within the levels that it needs. -/
theorem datum_of_depth_le {tree : DatumTree} (le : tree.depth 1 ≤ n) :
    Datum n tree.kinds tree.value := by
  induction tree generalizing n with
  | atom t v yields =>
    obtain ⟨m, rfl⟩ := Nat.exists_eq_add_of_le' le
    exact .atom yields
  | quote datum ih =>
    obtain ⟨m, rfl⟩ := Nat.exists_eq_add_of_le' (Nat.le_of_add_left_le le)
    exact .quote (ih (Nat.le_of_succ_le_succ le))
  | list items ih =>
    obtain ⟨m, rfl⟩ := Nat.exists_eq_add_of_le' (Nat.le_of_add_left_le le)
    rw [kinds_list, value, itemValues_eq]
    have each := depth_list_le_iff.1 le
    exact (data_of_trees fun item member => ih item member (each item member)).list
  | dotted first items tail first_ih ih tail_ih =>
    obtain ⟨m, rfl⟩ := Nat.exists_eq_add_of_le' (Nat.le_of_add_left_le le)
    obtain ⟨each, last⟩ := depth_dotted_le_iff.1 le
    have inside : ∀ item ∈ first :: items, Datum m item.kinds item.value := by
      rw [List.forall_mem_cons] at each ⊢
      exact ⟨first_ih each.1, fun item member => ih item member (each.2 item member)⟩
    rw [kinds_dotted, value, itemValues_eq]
    exact (data_of_trees inside).dotted (List.cons_ne_nil _ _) (tail_ih last)

/-- The tokens and the value of a tree that is shallow enough. -/
def Yields (n : Nat) (p : List TokenKind × Value) (tree : DatumTree) : Prop :=
  tree.kinds = p.1 ∧ tree.value = p.2 ∧ tree.depth 1 ≤ n

theorem exists_trees {parts : List (List TokenKind × Value)}
    (each : ∀ p ∈ parts, ∃ tree, Yields n p tree) :
    ∃ trees : List DatumTree, trees.flatMap kinds = parts.flatMap Prod.fst ∧
      trees.map value = parts.map Prod.snd ∧ ∀ tree ∈ trees, tree.depth 1 ≤ n := by
  induction parts with
  | nil => exact ⟨[], rfl, rfl, by simp⟩
  | cons p parts ih =>
    obtain ⟨⟨tree, tokens, same, low⟩, others⟩ := List.forall_mem_cons.1 each
    obtain ⟨trees, rest, values, lows⟩ := ih others
    refine ⟨tree :: trees, ?_, ?_, List.forall_mem_cons.2 ⟨low, lows⟩⟩
    · rw [List.flatMap_cons, List.flatMap_cons, tokens, rest]
    · rw [List.map_cons, List.map_cons, same, values]

theorem exists_tree (h : Datum n ts v) : ∃ tree, Yields n (ts, v) tree := by
  induction h with
  | @atom n t v yields => exact ⟨.atom t v yields, rfl, rfl, Nat.le_add_left 1 n⟩
  | @quote n ts v datum ih =>
    obtain ⟨tree, tokens, same, low⟩ := ih
    refine ⟨.quote tree, ?_, ?_, Nat.succ_le_succ low⟩
    · rw [kinds, tokens]
    · rw [value, same]
  | @list n parts each ih =>
    obtain ⟨trees, tokens, same, low⟩ := exists_trees ih
    refine ⟨.list trees, ?_, ?_, depth_list_le_iff.2 low⟩
    · rw [kinds_list, tokens]
    · rw [value, itemValues_eq, same]
  | @dotted n parts ts tail some each datum ih tail_ih =>
    obtain ⟨trees, tokens, same, low⟩ := exists_trees ih
    obtain ⟨last, tail_tokens, tail_same, tail_low⟩ := tail_ih
    cases trees with
    | nil => exact absurd (List.map_eq_nil_iff.1 same.symm) some
    | cons first items =>
      refine ⟨.dotted first items last, ?_, ?_, depth_dotted_le_iff.2 ⟨low, tail_low⟩⟩
      · rw [kinds_dotted, tokens, tail_tokens]
      · rw [value, itemValues_eq, ← List.map_cons, same, tail_same]

/-- The tokens are those of the trees, one behind the other, and the values are theirs. -/
def Derive (trees : List DatumTree) (ts : List TokenKind) (vs : List Value) : Prop :=
  trees.flatMap kinds = ts ∧ trees.map value = vs

/-- Data within `n` levels come from trees that need no more levels. -/
theorem data_iff_trees :
    Data n ts vs ↔ ∃ trees, Derive trees ts vs ∧ ∀ tree ∈ trees, tree.depth 1 ≤ n := by
  constructor
  · rintro ⟨parts, each, rfl, rfl⟩
    obtain ⟨trees, tokens, same, low⟩ := exists_trees fun p member => exists_tree (each p member)
    exact ⟨trees, ⟨tokens, same⟩, low⟩
  · rintro ⟨trees, ⟨rfl, rfl⟩, low⟩
    exact data_of_trees fun tree member => datum_of_depth_le (low tree member)

/-! ## The tokens determine the trees -/

/-- No datum begins here: the tokens end, or a closing bracket or a point is next. -/
def Ended (ts : List TokenKind) : Prop :=
  ∀ t ∈ ts.head?, t = .closing ∨ t = .dot

theorem ended_nil : Ended [] := by
  simp [Ended]

theorem ended_closing (ts : List TokenKind) : Ended (.closing :: ts) := by
  simp [Ended]

theorem ended_dot (ts : List TokenKind) : Ended (.dot :: ts) := by
  simp [Ended]

theorem not_ended_kinds (tree : DatumTree) (ts : List TokenKind) : ¬ Ended (tree.kinds ++ ts) := by
  intro ended
  cases tree with
  | atom t v yields =>
    rcases ended t rfl with rfl | rfl
    · cases yields
    · cases yields
  | quote datum => simp [Ended, kinds] at ended
  | list items => simp [Ended, kinds] at ended
  | dotted first items tail => simp [Ended, kinds] at ended

/-- The tree ends where its tokens do, whatever stands behind them. -/
def EndsItself (tree : DatumTree) : Prop :=
  ∀ (other : DatumTree) (r s : List TokenKind), tree.kinds ++ r = other.kinds ++ s →
    tree = other ∧ r = s

theorem items_injective {items others : List DatumTree} {r s : List TokenKind}
    (each : ∀ item ∈ items, item.EndsItself) (hr : Ended r) (hs : Ended s)
    (same : items.flatMap kinds ++ r = others.flatMap kinds ++ s) : items = others ∧ r = s := by
  -- An item on one side only would begin where the items of the other side have ended.
  induction items generalizing others with
  | nil =>
    cases others with
    | nil => exact ⟨rfl, same⟩
    | cons other others =>
      rw [List.flatMap_nil, List.nil_append, List.flatMap_cons, List.append_assoc] at same
      exact absurd (same ▸ hr) (not_ended_kinds other _)
  | cons item items ih =>
    obtain ⟨first, rest⟩ := List.forall_mem_cons.1 each
    rw [List.flatMap_cons, List.append_assoc] at same
    cases others with
    | nil =>
      rw [List.flatMap_nil, List.nil_append] at same
      exact absurd (same ▸ hs) (not_ended_kinds item _)
    | cons other others =>
      rw [List.flatMap_cons, List.append_assoc] at same
      obtain ⟨rfl, behind⟩ := first other _ _ same
      obtain ⟨rfl, ends⟩ := ih rest behind
      exact ⟨rfl, ends⟩

/-- What begins with the token of an atom is the atom. -/
theorem eq_atom {t : TokenKind} {v : Value} (yields : t.atom? = some v) {other : DatumTree}
    {r s : List TokenKind} (same : t :: r = other.kinds ++ s) :
    other = .atom t v yields ∧ r = s := by
  cases other with
  | atom u w yields' =>
    obtain ⟨rfl, behind⟩ := List.cons.inj same
    cases yields.symm.trans yields'
    exact ⟨rfl, behind⟩
  | quote datum =>
    obtain ⟨rfl, -⟩ := List.cons.inj same
    cases yields
  | list items =>
    obtain ⟨rfl, -⟩ := List.cons.inj same
    cases yields
  | dotted first items tail =>
    obtain ⟨rfl, -⟩ := List.cons.inj same
    cases yields

theorem endsItself (tree : DatumTree) : tree.EndsItself := by
  -- The first token decides the shape of the other tree, but for lists with and without a tail:
  -- these differ in the token behind their items.
  induction tree with
  | atom t v yields =>
    intro other r s same
    obtain ⟨rfl, behind⟩ := eq_atom yields same
    exact ⟨rfl, behind⟩
  | quote datum ih =>
    intro other r s same
    cases other with
    | atom u w yields => cases (eq_atom yields same.symm).1
    | quote datum' =>
      obtain ⟨rfl, behind⟩ := ih datum' r s (List.cons.inj same).2
      exact ⟨rfl, behind⟩
    | list items => cases (List.cons.inj same).1
    | dotted first items tail => cases (List.cons.inj same).1
  | list items ih =>
    intro other r s same
    cases other with
    | atom u w yields => cases (eq_atom yields same.symm).1
    | quote datum => cases (List.cons.inj same).1
    | list items' =>
      simp only [kinds_list, List.cons_append, List.append_assoc, List.cons.injEq, true_and] at same
      obtain ⟨rfl, behind⟩ := items_injective ih (ended_closing _) (ended_closing _) same
      exact ⟨rfl, (List.cons.inj behind).2⟩
    | dotted first items' tail =>
      simp only [kinds_list, kinds_dotted, List.cons_append, List.append_assoc, List.cons.injEq,
        true_and] at same
      obtain ⟨-, behind⟩ := items_injective ih (ended_closing _) (ended_dot _) same
      cases (List.cons.inj behind).1
  | dotted first items tail first_ih ih tail_ih =>
    intro other r s same
    have each := List.forall_mem_cons.2 ⟨first_ih, ih⟩
    cases other with
    | atom u w yields => cases (eq_atom yields same.symm).1
    | quote datum => cases (List.cons.inj same).1
    | list items' =>
      simp only [kinds_list, kinds_dotted, List.cons_append, List.append_assoc, List.cons.injEq,
        true_and] at same
      obtain ⟨-, behind⟩ := items_injective each (ended_dot _) (ended_closing _) same
      cases (List.cons.inj behind).1
    | dotted first' items' tail' =>
      simp only [kinds_dotted, List.cons_append, List.append_assoc, List.cons.injEq,
        true_and] at same
      obtain ⟨items_eq, behind⟩ := items_injective each (ended_dot _) (ended_dot _) same
      obtain ⟨rfl, rfl⟩ := List.cons.inj items_eq
      obtain ⟨rfl, ends⟩ := tail_ih tail' _ _ (List.cons.inj behind).2
      exact ⟨rfl, (List.cons.inj ends).2⟩

/-- Trees that stand for the same tokens are the same, and so are their values. -/
theorem derive_unique {trees others : List DatumTree} {vs' : List Value} (h : Derive trees ts vs)
    (h' : Derive others ts vs') : trees = others ∧ vs = vs' := by
  obtain ⟨tokens, rfl⟩ := h
  obtain ⟨tokens', rfl⟩ := h'
  obtain ⟨rfl, -⟩ := items_injective (r := []) (s := []) (fun tree _ => tree.endsItself)
    ended_nil ended_nil (congrArg (· ++ []) (tokens.trans tokens'.symm))
  exact ⟨rfl, rfl⟩

end DatumTree

open DatumTree

variable {limit : Nat} {tokens : List Token} {vs : List Value}

/-! ## What the parser accepts -/

/-- The parser accepts the tokens of trees that need no more levels than its limit. -/
theorem parseTokens_eq_ok_iff_trees :
    parseTokens limit tokens = .ok vs ↔ ∃ trees, Derive trees (tokens.map Token.kind) vs ∧
      ∀ tree ∈ trees, tree.depth 1 ≤ limit :=
  parseTokens_eq_ok.trans data_iff_trees

/-- Where the limit cannot matter, because it exceeds the number of tokens, the parser accepts
exactly the tokens that trees stand for, with the values of the trees. No tokens have two sequences
of trees, so that the values are the only ones. -/
theorem parseTokens_accepts_grammar (room : tokens.length < limit) :
    (∀ vs, parseTokens limit tokens = .ok vs ↔
      ∃ trees, Derive trees (tokens.map Token.kind) vs) ∧
    ∀ trees trees' vs vs', Derive trees (tokens.map Token.kind) vs →
      Derive trees' (tokens.map Token.kind) vs' → trees = trees' ∧ vs = vs' := by
  refine ⟨fun vs => parseTokens_eq_ok_iff_trees.trans ⟨?_, ?_⟩, ?_⟩
  · rintro ⟨trees, derive, -⟩
    exact ⟨trees, derive⟩
  · rintro ⟨trees, derive⟩
    refine ⟨trees, derive, fun tree member => ?_⟩
    calc tree.depth 1 ≤ tree.kinds.length := tree.depth_le_length
      _ ≤ (trees.flatMap kinds).length := length_kinds_le_of_mem member
      _ = tokens.length := by rw [derive.1, List.length_map]
      _ ≤ limit := Nat.le_of_lt room
  · intro trees trees' vs vs'
    exact derive_unique

/-- The tokens of `(a . ('b))` have the value of `(a (quote b))`: the tail is spliced in. -/
theorem parseTokens_accepts_grammar_spliced :
    ∃ tokens : List Token, tokens.map Token.kind = [.opening, .symbol "a", .dot, .opening, .quote,
        .symbol "b", .closing, .closing] ∧ tokens.length < 9 ∧
      parseTokens 9 tokens = .ok [.list [.symbol "a", .list [.symbol "quote", .symbol "b"]]] := by
  let tokens : List Token := [⟨.opening, 1⟩, ⟨.symbol "a", 1⟩, ⟨.dot, 1⟩, ⟨.opening, 1⟩,
    ⟨.quote, 1⟩, ⟨.symbol "b", 1⟩, ⟨.closing, 1⟩, ⟨.closing, 1⟩]
  have room : tokens.length < 9 := Nat.lt_succ_self 8
  refine ⟨tokens, rfl, room, ((parseTokens_accepts_grammar room).1 _).2 ?_⟩
  exact ⟨[.dotted (.atom (.symbol "a") _ rfl) [] (.list [.quote (.atom (.symbol "b") _ rfl)])],
    rfl, rfl⟩

end LispRepl

import LispRepl.Proofs.DatumTree
import LispRepl.Proofs.LimitCut
import Mathlib.Data.Nat.Basic
import Mathlib.Order.MinMax

/-!
# What the limit on nesting counts

The limit is meant for lists and quotes: each is a level, and an atom is none. The parser counts the
data that are open around a token and does not let a datum begin below the limit, whatever it is, so
that an atom needs a level of its own. The two differ by one level, and only where an atom stands as
deep as the limit allows: inside as many lists and quotes as the limit says. A list of atoms is too
deep for one level, while the empty list is not.

- `DatumTree.parts`, `DatumTree.HoldsAtom`: an atom inside a given number of lists and quotes.
- `DatumTree.lt_depth_iff`: the two ways to count.
- `parseTokens_too_deep_iff`: what the limit rejects.
- `parseTokens_too_deep_of_atom`: a list that nests within the limit and is rejected.
-/

set_option autoImplicit false

namespace LispRepl

namespace DatumTree

/-- The trees directly inside a list or a quote. -/
def parts : DatumTree → List DatumTree
  | .atom .. => []
  | .quote datum => [datum]
  | .list items => items
  | .dotted first items tail => first :: items ++ [tail]

/-- An atom stands inside exactly `n` lists and quotes of the tree. -/
def HoldsAtom : Nat → DatumTree → Prop
  | 0, .atom .. => True
  | 0, _ => False
  | n + 1, tree => ∃ part ∈ tree.parts, HoldsAtom n part

variable {leaf n : Nat}

theorem lt_itemDepth_iff {items : List DatumTree} :
    n < itemDepth leaf items ↔ ∃ item ∈ items, n < item.depth leaf := by
  induction items with
  | nil => simp [itemDepth]
  | cons item items ih =>
    rw [itemDepth, lt_max_iff, ih]
    simp

/-- Where an atom is at most one level, the levels below the first are those of the parts. -/
theorem succ_lt_depth_iff (small : leaf ≤ 1) (tree : DatumTree) :
    n + 1 < tree.depth leaf ↔ ∃ part ∈ tree.parts, n < part.depth leaf := by
  cases tree with
  | atom t v yields => simp [parts, depth, Nat.le_add_left_of_le small]
  | quote datum => simp [parts, depth]
  | list items =>
    rw [depth, Nat.add_lt_add_iff_right, lt_itemDepth_iff]
    rfl
  | dotted first items tail =>
    rw [depth, Nat.add_lt_add_iff_right, lt_max_iff, lt_max_iff, lt_itemDepth_iff]
    simp [parts, or_and_right, exists_or, or_assoc]

/-- With atoms counted, a tree nests deeper than `n` levels if its lists and quotes do, or if an
atom stands inside `n` of them. -/
theorem lt_depth_iff (n : Nat) (tree : DatumTree) :
    n < tree.depth 1 ↔ n < tree.depth 0 ∨ tree.HoldsAtom n := by
  -- Both counts lose one level from a tree to its parts, and differ for an atom only.
  induction n generalizing tree with
  | zero => cases tree <;> simp [depth, HoldsAtom]
  | succ n ih =>
    rw [succ_lt_depth_iff (Nat.le_refl 1), succ_lt_depth_iff (Nat.zero_le 1), HoldsAtom,
      ← exists_or]
    refine exists_congr fun part => ?_
    rw [ih part, and_or_left]

end DatumTree

open DatumTree

variable {large limit : Nat} {tokens : List Token} {vs : List Value}

/-- What the parser accepts within one limit it accepts within every higher one. -/
theorem parseTokens_mono (le : limit ≤ large) (h : parseTokens limit tokens = .ok vs) :
    parseTokens large tokens = .ok vs := by
  obtain ⟨trees, derive, low⟩ := parseTokens_eq_ok_iff_trees.1 h
  refine parseTokens_eq_ok_iff_trees.2 ⟨trees, derive, ?_⟩
  intro tree member
  exact Nat.le_trans (low tree member) le

/-- What the parser accepts within some limit it accepts within every other one, with the same
values, or it is too deep for it. -/
theorem parseTokens_cut (accepted : parseTokens large tokens = .ok vs) (limit : Nat) :
    parseTokens limit tokens = .error (.tooDeep limit) ∨ parseTokens limit tokens = .ok vs := by
  have higher := parseTokens_mono (Nat.le_max_right limit large) accepted
  rw [← higher]
  exact cuts_parseTokens (Nat.le_max_left limit large) tokens

/-- Tokens that come from trees are too deep exactly if one of the trees is, with its atoms
counted. -/
theorem too_deep_iff_depth {trees : List DatumTree} (accepted : parseTokens large tokens = .ok vs)
    (derive : Derive trees (tokens.map Token.kind) vs) (limit : Nat) :
    parseTokens limit tokens = .error (.tooDeep limit) ↔ ∃ tree ∈ trees, limit < tree.depth 1 := by
  constructor
  · intro deep
    apply Classical.byContradiction
    intro none
    have low : ∀ tree ∈ trees, tree.depth 1 ≤ limit := fun tree member =>
      Nat.le_of_not_lt fun lt => none ⟨tree, member, lt⟩
    rw [parseTokens_eq_ok_iff_trees.2 ⟨trees, derive, low⟩] at deep
    cases deep
  · rintro ⟨tree, member, lt⟩
    refine (parseTokens_cut accepted limit).resolve_right ?_
    intro read
    -- What is read comes from shallow trees, and there are no other trees for the tokens.
    obtain ⟨others, derive', low⟩ := parseTokens_eq_ok_iff_trees.1 read
    obtain ⟨rfl, -⟩ := derive_unique derive derive'
    exact Nat.not_lt.2 (low tree member) lt

/-- Tokens that the parser accepts within some limit come from trees, and from no others. Within
any other limit they are too deep exactly if lists and quotes nest deeper than it, or an atom stands
inside as many of them as it says; otherwise they have the same values. -/
theorem parseTokens_too_deep_iff (accepted : parseTokens large tokens = .ok vs) (limit : Nat) :
    (∃ trees, Derive trees (tokens.map Token.kind) vs) ∧
    ∀ trees, Derive trees (tokens.map Token.kind) vs →
      (parseTokens limit tokens = .error (.tooDeep limit) ↔
        limit < itemDepth 0 trees ∨ ∃ tree ∈ trees, tree.HoldsAtom limit) ∧
      (parseTokens limit tokens ≠ .error (.tooDeep limit) → parseTokens limit tokens = .ok vs) := by
  constructor
  · obtain ⟨trees, derive, -⟩ := parseTokens_eq_ok_iff_trees.1 accepted
    exact ⟨trees, derive⟩
  · intro trees derive
    refine ⟨?_, (parseTokens_cut accepted limit).resolve_left⟩
    rw [too_deep_iff_depth accepted derive, lt_itemDepth_iff, ← exists_or]
    refine exists_congr fun tree => ?_
    rw [lt_depth_iff, and_or_left]

/-- In `(('a) ())` two lists and a quote stand around the atom: the tokens are too deep for three
levels and not for four. -/
theorem parseTokens_too_deep_iff_quoted :
    ∃ (tokens : List Token) (vs : List Value), tokens.map Token.kind = [.opening, .opening, .quote,
        .symbol "a", .closing, .opening, .closing, .closing] ∧
      parseTokens 4 tokens = .ok vs ∧ parseTokens 3 tokens = .error (.tooDeep 3) := by
  let tokens : List Token := [⟨.opening, 1⟩, ⟨.opening, 1⟩, ⟨.quote, 1⟩, ⟨.symbol "a", 1⟩,
    ⟨.closing, 1⟩, ⟨.opening, 1⟩, ⟨.closing, 1⟩, ⟨.closing, 1⟩]
  let atom : DatumTree := .atom (.symbol "a") (.symbol "a") rfl
  let tree : DatumTree := .list [.list [.quote atom], .list []]
  have accepted : parseTokens 4 tokens =
      .ok [.list [.list [.list [.symbol "quote", .symbol "a"]], .list []]] := rfl
  have derive : Derive [tree] (tokens.map Token.kind)
      [.list [.list [.list [.symbol "quote", .symbol "a"]], .list []]] := ⟨rfl, rfl⟩
  have deep : tree.HoldsAtom 3 :=
    ⟨_, List.mem_cons_self, _, List.mem_cons_self, atom, List.mem_cons_self, trivial⟩
  refine ⟨tokens, _, rfl, accepted, ?_⟩
  exact (((parseTokens_too_deep_iff accepted 3).2 _ derive).1).2 (.inr ⟨tree, by simp, deep⟩)

/-- `(a)` is one list around an atom, and it is too deep for one level: the limit does not count
lists and quotes alone. -/
theorem parseTokens_too_deep_of_atom :
    ¬ ∀ (large limit : Nat) (tokens : List Token) (vs : List Value) (trees : List DatumTree),
      parseTokens large tokens = .ok vs → Derive trees (tokens.map Token.kind) vs →
        (parseTokens limit tokens = .error (.tooDeep limit) ↔ limit < itemDepth 0 trees) := by
  intro rule
  have one := rule 2 1 [⟨.opening, 1⟩, ⟨.symbol "a", 1⟩, ⟨.closing, 1⟩] [.list [.symbol "a"]]
    [.list [.atom (.symbol "a") (.symbol "a") rfl]] rfl ⟨rfl, rfl⟩
  exact absurd (one.1 rfl) (by decide)

end LispRepl

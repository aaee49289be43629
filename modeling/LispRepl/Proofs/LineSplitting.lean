import LispRepl.Proofs.LineReading

/-!
# A text given line by line and at once

A reader that is given lines one at a time judges the text so far at each of them, and one that is
given the same text at once judges it a single time. A rejection of the lines before is found again
in the whole text, with one exception. The judgement looks at brackets only once the text has been
cut into tokens, and a text that ends inside a string cannot be cut, so that an open string at the
end hides a bracket that is wrong before it. Everything else does not depend on the splitting.

- `Reader.pushLines`: lines given one at a time, up to the first that is rejected.
- `Reader.pushJoined`: the same lines given at once.
- `rejected_append`: what becomes of a rejection in a longer text.
- `HidesRejection`, `pushLines_agrees_iff`: where the splitting matters, and that it matters
  nowhere else.
- `pushLines_ne_pushJoined`: a wrong bracket and then an open string.
-/

set_option autoImplicit false

namespace LispRepl

variable {limit : Nat}

/-- The text ends inside a string. -/
def EndsInString (source : String) : Prop :=
  ∃ line, tokenize source = .error (.unterminatedString line)

theorem verdict_of_endsInString {source : String} (h : EndsInString source) :
    verdict limit source = .ok false := by
  obtain ⟨line, cut⟩ := h
  rw [verdict, cut]

theorem openBrackets_append (limit depth : Nat) (ts us : List TokenKind) :
    openBrackets limit depth (ts ++ us) =
      openBrackets limit depth ts >>= fun depth => openBrackets limit depth us := by
  induction ts generalizing depth with
  | nil => cases depth <;> rfl
  | cons t ts ih =>
    rw [List.cons_append]
    by_cases opens : t = .opening
    · subst opens
      rw [openBrackets, openBrackets]
      split
      · rfl
      · exact ih (depth + 1)
    by_cases closes : t = .closing
    · subst closes
      cases depth with
      | zero => rfl
      | succ depth => exact ih depth
    rw [Parser.openBrackets_cons opens closes, Parser.openBrackets_cons opens closes, ih]

/-- A text that is rejected at a line end is rejected with whatever follows, unless what follows
ends inside a string. -/
theorem rejected_append {first : String} {e : LispError}
    (h : verdict limit (first ++ "\n") = .error e) (second : String) :
    (∃ e', verdict limit (first ++ "\n" ++ second) = .error e') ∨
      EndsInString (first ++ "\n" ++ second) := by
  rcases tokenize_line_cases first with string | ⟨fault, closed, -, whole⟩ | ⟨before, k, cut, whole⟩
  · rw [verdict_of_endsInString string] at h
    cases h
  · left
    rw [verdict, whole second]
    cases fault with
    | unterminatedString line => exact absurd rfl (closed line)
    | invalidEscape char => exact ⟨_, rfl⟩
    | invalidNumber word => exact ⟨_, rfl⟩
  · rw [EndsInString, verdict, whole second]
    cases rest : tokenize second with
    | error fault =>
      cases fault with
      | unterminatedString line => exact Or.inr ⟨line + k, rfl⟩
      | invalidEscape char => exact Or.inl ⟨_, rfl⟩
      | invalidNumber word => exact Or.inl ⟨_, rfl⟩
    | ok after =>
      left
      rw [verdict, cut] at h
      dsimp only at h ⊢
      split at h
      · rename_i fault counted
        rw [List.map_append, openBrackets_append, counted]
        exact ⟨fault, rfl⟩
      · cases h

/-! ## Lines one at a time -/

namespace Reader

theorem pushLine_ok {r : Reader} {line : String} {complete : Bool}
    (h : verdict r.limit (r.source ++ line ++ "\n") = .ok complete) :
    r.pushLine line =
      (.ok complete, ⟨r.limit, r.source ++ line ++ "\n", r.lines + 1, complete⟩) := by
  rw [pushLine]
  simp only [h]

theorem pushLine_error {r : Reader} {line : String} {e : LispError}
    (h : verdict r.limit (r.source ++ line ++ "\n") = .error e) :
    r.pushLine line = (.error e, r) := by
  rw [pushLine]
  simp only [h]

/-- Takes lines one after the other, up to the first that is rejected. The answer is that to the
last line taken. -/
def pushLines (r : Reader) : List String → Except LispError Bool × Reader
  | [] => (.ok r.complete, r)
  | line :: lines =>
    match r.pushLine line with
    | (.ok _, next) => next.pushLines lines
    | (.error e, next) => (.error e, next)

/-- Some of the lines is rejected exactly if the text up to some line is. -/
theorem pushLines_error_iff {r : Reader} {lines : List String} :
    (∃ e, (r.pushLines lines).1 = .error e) ↔
      ∃ before, before <+: lines ∧ before ≠ [] ∧
        ∃ e, verdict r.limit (r.source ++ sourceText before) = .error e := by
  induction lines generalizing r with
  | nil => simp [pushLines]
  | cons line lines ih =>
    have here : r.source ++ sourceText [line] = r.source ++ line ++ "\n" := by
      simp [sourceText, String.append_assoc]
    cases judged : verdict r.limit (r.source ++ line ++ "\n") with
    | error e =>
      rw [pushLines, pushLine_error judged]
      constructor
      · intro _
        exact ⟨[line], List.prefix_append _ _, by simp, e, here ▸ judged⟩
      · intro _
        exact ⟨e, rfl⟩
    | ok complete =>
      rw [pushLines, pushLine_ok judged]
      refine ih.trans ?_
      have longer (before : List String) :
          r.source ++ line ++ "\n" ++ sourceText before =
            r.source ++ sourceText (line :: before) := by
        simp [sourceText, String.append_assoc]
      constructor
      · rintro ⟨before, shorter, -, rejected⟩
        refine ⟨line :: before, (List.prefix_cons_inj line).2 shorter, by simp, ?_⟩
        rwa [← longer]
      · rintro ⟨before, shorter, begun, e, rejected⟩
        cases before with
        | nil => exact absurd rfl begun
        | cons first before =>
          obtain ⟨rfl, behind⟩ := List.cons_prefix_cons.1 shorter
          refine ⟨before, behind, ?_, e, by rwa [longer]⟩
          -- The text up to the first line has been accepted.
          rintro rfl
          rw [here, judged] at rejected
          cases rejected

/-- Where no line is rejected, the reader holds them all, and has judged their text. -/
theorem pushLines_accepted {r : Reader} {lines : List String} {complete : Bool}
    (h : (r.pushLines lines).1 = .ok complete) :
    (r.pushLines lines).2 =
        ⟨r.limit, r.source ++ sourceText lines, r.lines + lines.length, complete⟩ ∧
      (lines ≠ [] → verdict r.limit (r.source ++ sourceText lines) = .ok complete) := by
  induction lines generalizing r with
  | nil =>
    obtain ⟨limit, source, count, judged⟩ := r
    cases h
    simp [pushLines, sourceText]
  | cons line lines ih =>
    cases judged : verdict r.limit (r.source ++ line ++ "\n") with
    | error e =>
      rw [pushLines, pushLine_error judged] at h
      cases h
    | ok first =>
      rw [pushLines, pushLine_ok judged] at h ⊢
      obtain ⟨holds, last⟩ := ih h
      have text : r.source ++ line ++ "\n" ++ sourceText lines =
          r.source ++ sourceText (line :: lines) := by
        simp [sourceText, String.append_assoc]
      rw [text] at holds last
      refine ⟨?_, fun _ => ?_⟩
      · rw [holds, List.length_cons, Nat.add_assoc, Nat.add_comm 1]
      · cases lines with
        | nil =>
          cases h
          rwa [← text, sourceText, String.append_empty]
        | cons => exact last (by simp)

end Reader

/-! ## At once -/

/-- The text that lines joined by line feeds make, with the line feed behind it. -/
theorem sourceText_eq_intercalate (first : String) (rest : List String) :
    sourceText (first :: rest) = String.intercalate "\n" (first :: rest) ++ "\n" := by
  induction rest generalizing first with
  | nil => simp [sourceText]
  | cons second rest ih =>
    rw [sourceText, ih, String.intercalate_cons_cons]
    simp only [String.append_assoc]

/-- Takes the lines at once, joined by line feeds. -/
def Reader.pushJoined (r : Reader) (lines : List String) : Except LispError Bool × Reader :=
  r.pushLine (String.intercalate "\n" lines)

theorem pushJoined_eq (limit : Nat) (first : String) (rest : List String) :
    (Reader.new limit).pushJoined (first :: rest) =
      match verdict limit (sourceText (first :: rest)) with
      | .ok complete => (.ok complete, ⟨limit, sourceText (first :: rest), 1, complete⟩)
      | .error e => (.error e, Reader.new limit) := by
  have source : (Reader.new limit).source ++ String.intercalate "\n" (first :: rest) ++ "\n" =
      sourceText (first :: rest) := by
    rw [Reader.new, String.empty_append, sourceText_eq_intercalate]
  cases judged : verdict limit (sourceText (first :: rest)) with
  | ok complete =>
    rw [← source] at judged ⊢
    exact Reader.pushLine_ok judged
  | error e =>
    rw [← source] at judged
    exact Reader.pushLine_error judged

/-- The text of the lines ends inside a string, and that of some first ones of them is
rejected. -/
def HidesRejection (limit : Nat) (lines : List String) : Prop :=
  EndsInString (sourceText lines) ∧
    ∃ before, before <+: lines ∧ ∃ e, verdict limit (sourceText before) = .error e

theorem rejected_ne_nil {before : List String} {e : LispError}
    (h : verdict limit (sourceText before) = .error e) : before ≠ [] := by
  rintro rfl
  cases h

/-- Where the text of some first lines is rejected, the text of all lines is too, unless it ends
inside a string. -/
theorem rejected_of_prefix {before lines : List String} {e : LispError} (shorter : before <+: lines)
    (h : verdict limit (sourceText before) = .error e) :
    (∃ e', verdict limit (sourceText lines) = .error e') ∨ EndsInString (sourceText lines) := by
  obtain ⟨after, rfl⟩ := shorter
  rcases List.eq_nil_or_concat before with rfl | ⟨init, last, rfl⟩
  · exact absurd rfl (rejected_ne_nil h)
  · rw [List.concat_eq_append, sourceText_snoc] at h
    rw [List.concat_eq_append, sourceText_append, sourceText_snoc]
    exact rejected_append h _

/-- What comes of lines that a fresh reader is given one at a time, and of their text at once:
they are judged alike, and the lines may be rejected although their text is incomplete only where
a rejection is hidden. -/
inductive Split (limit : Nat) (lines : List String) : Except LispError Bool × Reader → Prop where
  | accepted {complete : Bool} : verdict limit (sourceText lines) = .ok complete →
    ¬ HidesRejection limit lines →
    Split limit lines (.ok complete, ⟨limit, sourceText lines, lines.length, complete⟩)
  | rejected {e e' : LispError} {r : Reader} : verdict limit (sourceText lines) = .error e' →
    ¬ HidesRejection limit lines → Split limit lines (.error e, r)
  | hidden {e : LispError} {r : Reader} : HidesRejection limit lines →
    Split limit lines (.error e, r)

theorem split_pushLines {lines : List String} (some : lines ≠ []) :
    Split limit lines ((Reader.new limit).pushLines lines) := by
  have fresh (before : List String) :
      (Reader.new limit).source ++ sourceText before = sourceText before := by
    rw [Reader.new, String.empty_append]
  rcases pushed : (Reader.new limit).pushLines lines with ⟨e | complete, r⟩
  · obtain ⟨before, shorter, -, fault, wrong⟩ :=
      Reader.pushLines_error_iff.1 ⟨e, congrArg Prod.fst pushed⟩
    rw [fresh] at wrong
    rcases rejected_of_prefix shorter wrong with ⟨e', rejected⟩ | string
    · refine .rejected rejected ?_
      rintro ⟨string, -⟩
      rw [verdict_of_endsInString string] at rejected
      cases rejected
    · exact .hidden ⟨string, before, shorter, fault, wrong⟩
  · obtain ⟨holds, judged⟩ := Reader.pushLines_accepted (congrArg Prod.fst pushed)
    rw [pushed, fresh] at holds
    rw [fresh] at judged
    cases holds
    rw [Reader.new, Nat.zero_add]
    refine .accepted (judged some) ?_
    rintro ⟨-, before, shorter, e, wrong⟩
    obtain ⟨e', same⟩ := Reader.pushLines_error_iff.2
      ⟨before, shorter, rejected_ne_nil wrong, e, (fresh before).symm ▸ wrong⟩
    rw [pushed] at same
    cases same

/-- Lines given to a fresh reader one at a time, up to the first that is rejected, and the same
lines joined by line feeds and given to a fresh reader at once. The two are judged alike, rejected,
incomplete or complete, exactly if no open string hides a rejection. If one does, the lines are
rejected one at a time and incomplete at once. Where they are complete at once, both readers give
the same expressions. -/
theorem pushLines_agrees_iff (limit : Nat) (first : String) (rest : List String) :
    (((Reader.new limit).pushLines (first :: rest)).1.toOption =
        ((Reader.new limit).pushJoined (first :: rest)).1.toOption ↔
      ¬ HidesRejection limit (first :: rest)) ∧
    (HidesRejection limit (first :: rest) →
      ((Reader.new limit).pushLines (first :: rest)).1.toOption = none ∧
        ((Reader.new limit).pushJoined (first :: rest)).1 = .ok false) ∧
    (((Reader.new limit).pushJoined (first :: rest)).1 = .ok true →
      ((Reader.new limit).pushLines (first :: rest)).1 = .ok true ∧
        ((Reader.new limit).pushLines (first :: rest)).2.take.1 =
          ((Reader.new limit).pushJoined (first :: rest)).2.take.1) := by
  have whole := pushJoined_eq limit first rest
  have split : Split limit (first :: rest) ((Reader.new limit).pushLines (first :: rest)) :=
    split_pushLines (by simp)
  generalize (Reader.new limit).pushJoined (first :: rest) = joined at whole ⊢
  generalize (Reader.new limit).pushLines (first :: rest) = pushed at split ⊢
  cases split with
  | accepted judged shown =>
    rw [judged] at whole
    subst whole
    exact ⟨⟨fun _ => shown, fun _ => rfl⟩, fun hides => absurd hides shown,
      fun complete => ⟨complete, rfl⟩⟩
  | rejected judged shown =>
    rw [judged] at whole
    subst whole
    refine ⟨⟨fun _ => shown, fun _ => rfl⟩, fun hides => absurd hides shown, ?_⟩
    rintro ⟨⟩
  | hidden hides =>
    rw [verdict_of_endsInString hides.1] at whole
    subst whole
    refine ⟨⟨?_, fun shown => absurd hides shown⟩, fun _ => ⟨rfl, rfl⟩, ?_⟩
    · rintro ⟨⟩
    · rintro ⟨⟩

/-- A closing bracket is rejected as a line, and with an open string behind it it is not. -/
theorem pushLines_ne_pushJoined :
    ((Reader.new 512).pushLines [")", "\""]).1.toOption ≠
      ((Reader.new 512).pushJoined [")", "\""]).1.toOption := by
  decide

end LispRepl

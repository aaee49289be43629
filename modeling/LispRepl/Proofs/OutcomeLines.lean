import LispRepl.Proofs.ExchangeAgreement
import LispRepl.Proofs.ReplyHistory
import LispRepl.Proofs.VerdictAgreement

/-!
# Outcomes on one line

The outcome of an evaluation is shown as one line, although the text behind it may span many. A
value shows no line feed, because its strings are quoted and its names are words, and neither does
an error that tells of values and names alone. The faults of the lexer are left: a word that is no
number is a word, but an escape shows the character behind the backslash. If a line ends behind a
backslash inside a string, that character is the line feed behind the line, and the answer spans two
lines. It is the only one that does.

- `Text.OneLine`: the text has no line feed.
- `Value.oneLine_text`, `LispError.oneLine_message`: what evaluation shows.
- `Lexer.fault_of_run`, `EndsInEscape`, `verdict_eq_escapedFeed_iff`: the one text that shows a line
  feed.
- `LispWorker.Legible`, `LispWorker.legible_answer`: the answers of a worker.
- `LispWorker.outcomes_on_one_line_unless_escaped`: the result.
-/

set_option autoImplicit false

namespace LispRepl

/-! ## Texts without a line feed -/

namespace Text

/-- The text has no line feed. -/
def OneLine (s : String) : Prop :=
  '\n' ∉ s.toList

instance (s : String) : Decidable (OneLine s) :=
  inferInstanceAs (Decidable ('\n' ∉ s.toList))

theorem oneLine_append {first second : String} :
    OneLine (first ++ second) ↔ OneLine first ∧ OneLine second := by
  rw [OneLine, String.toList_append, List.mem_append, not_or]
  rfl

theorem oneLine_ofList {cs : List Char} (h : '\n' ∉ cs) : OneLine (String.ofList cs) := by
  rwa [OneLine, String.toList_ofList]

theorem oneLine_natText (n : Nat) : OneLine (natText n) :=
  oneLine_ofList (not_mem_natDigits rfl n)

theorem feed_not_mem_toDigits (n : Nat) : '\n' ∉ Nat.toDigits 16 n := by
  induction n using Nat.strongRecOn with
  | ind n ih =>
    have digit (k : Nat) : '\n' ∉ [k.digitChar] := fun member =>
      Nat.digitChar_ne '\n' rfl (List.mem_singleton.1 member).symm
    rw [Nat.toDigits_eq_if (by decide)]
    split
    · exact digit n
    · exact fun member => (List.mem_append.1 member).elim (ih (n / 16) (by omega)) (digit _)

/-- The line feed has an escape of its own, and no other written form shows it. -/
theorem feed_not_mem_escapeChar (c : Char) : '\n' ∉ escapeChar c := by
  rw [escapeChar]
  split
  · decide
  split
  · decide
  split
  · decide
  split
  · decide
  split
  · decide
  split
  · decide
  split
  · rename_i other _ _ _ _
    exact fun member => other (List.mem_singleton.1 member).symm
  · intro member
    rcases List.mem_append.1 member with start | brace
    · rcases List.mem_append.1 start with escape | digit
      · exact absurd escape (by decide)
      · exact feed_not_mem_toDigits _ digit
    · exact absurd brace (by decide)

theorem feed_not_mem_quoteChars (cs : List Char) : '\n' ∉ quoteChars cs := by
  rw [quoteChars, List.mem_append, List.mem_cons, List.mem_flatMap]
  rintro ((quote | ⟨c, -, escaped⟩) | quote)
  · exact absurd quote (by decide)
  · exact feed_not_mem_escapeChar c escaped
  · exact absurd quote (by decide)

end Text

open Text (OneLine oneLine_append oneLine_natText)

theorem IsWord.oneLine {name : String} (h : IsWord name) : OneLine name :=
  fun feed => absurd (h '\n' feed) (by decide)

/-! ## Values -/

theorem Builtin.oneLine_name (b : Builtin) : OneLine b.name := by
  cases b <;> decide

theorem Rational.feed_not_mem_digits (n : Rational) : '\n' ∉ n.digits := by
  intro member
  rcases Rational.mem_digits member with digit | minus | slash
  · exact absurd digit (by decide)
  · exact absurd minus (by decide)
  · exact absurd slash (by decide)

mutual

/-- A value whose names are words shows no line feed. -/
theorem Value.feed_not_mem_chars (v : Value) (named : v.NamesIn IsWord) : '\n' ∉ v.chars := by
  match v with
  | .nil | .unspecified | .bool true | .bool false => decide
  | .number n => exact n.feed_not_mem_digits
  | .string s => exact Text.feed_not_mem_quoteChars s.toList
  | .symbol name => exact IsWord.oneLine named
  | .list items =>
    have text : (Value.list items).chars = '(' :: itemChars items ++ [')'] := rfl
    have inside := Value.feed_not_mem_itemChars items named
    simp [text, inside]
  | .dotted items tail =>
    have text : (Value.dotted items tail).chars =
        '(' :: itemChars items ++ " . ".toList ++ tail.chars ++ [')'] := rfl
    have inside := Value.feed_not_mem_itemChars items named.1
    have behind := Value.feed_not_mem_chars tail named.2
    simp [text, inside, behind]
  | .builtin b =>
    have text : (Value.builtin b).chars = "#<builtin ".toList ++ b.name.toList ++ ['>'] := rfl
    have name : '\n' ∉ b.name.toList := b.oneLine_name
    simp [text, name]
  | .lambda id (some name) params rest body scope =>
    have text : (Value.lambda id (some name) params rest body scope).chars =
        "#<lambda ".toList ++ name.toList ++ ['>'] := rfl
    have name : '\n' ∉ name.toList := IsWord.oneLine (named.1 name rfl)
    simp [text, name]
  | .lambda id none params rest body scope =>
    have text : (Value.lambda id none params rest body scope).chars = "#<lambda>".toList := rfl
    rw [text]
    decide

theorem Value.feed_not_mem_itemChars (vs : List Value) (named : Value.AllNamesIn IsWord vs) :
    '\n' ∉ Value.itemChars vs := by
  match vs with
  | [] => decide
  | v :: vs =>
    have text : itemChars (v :: vs) = v.chars ++ spacedChars vs := rfl
    have first := Value.feed_not_mem_chars v named.1
    have rest := Value.feed_not_mem_spacedChars vs named.2
    simp [text, first, rest]

theorem Value.feed_not_mem_spacedChars (vs : List Value) (named : Value.AllNamesIn IsWord vs) :
    '\n' ∉ Value.spacedChars vs := by
  match vs with
  | [] => decide
  | v :: vs =>
    have text : spacedChars (v :: vs) = ' ' :: v.chars ++ spacedChars vs := rfl
    have first := Value.feed_not_mem_chars v named.1
    have rest := Value.feed_not_mem_spacedChars vs named.2
    simp [text, first, rest]

end

theorem Value.oneLine_text {v : Value} (named : v.NamesIn IsWord) : OneLine v.text :=
  Text.oneLine_ofList (v.feed_not_mem_chars named)

/-! ## Errors -/

theorem ArgumentCount.oneLine_text (count : ArgumentCount) : OneLine count.text := by
  cases count with
  | exactly n => exact oneLine_natText n
  | atLeast n => exact oneLine_append.2 ⟨by decide, oneLine_natText n⟩

section Errors

variable {Q : Value → Prop} (shown : ∀ v, Q v → OneLine v.text)

include shown

theorem oneLine_of_isTextOf {text : String} (h : IsTextOf Q text) : OneLine text := by
  obtain ⟨v, hv, rfl⟩ := h
  exact shown v hv

theorem oneLine_of_symbol {name : String} (h : Q (.symbol name)) : OneLine name := by
  have text : (Value.symbol name).text = name := String.ofList_toList
  rw [← text]
  exact shown _ h

/-- What is said of a form is one line, whatever values it names. -/
theorem FormFault.oneLine_reason {fault : FormFault} (tells : (LispError.badForm fault).Tells Q) :
    OneLine fault.reason := by
  cases fault with
  | parameterName text =>
    change OneLine ("parameter " ++ text ++ " is not a symbol")
    rw [oneLine_append, oneLine_append]
    exact ⟨⟨by decide, oneLine_of_isTextOf shown tells⟩, by decide⟩
  | parameterList text =>
    change OneLine ("invalid parameter list " ++ text)
    rw [oneLine_append]
    exact ⟨by decide, oneLine_of_isTextOf shown tells⟩
  | binding text =>
    change OneLine ("malformed binding " ++ text)
    rw [oneLine_append]
    exact ⟨by decide, oneLine_of_isTextOf shown tells⟩
  | _ => decide

/-- The procedure whose arguments are counted is a builtin one, or has a name. -/
theorem oneLine_of_arity {procedure : String} {expected : ArgumentCount} {got : Nat}
    (tells : (LispError.arity procedure expected got).Tells Q) : OneLine procedure := by
  rcases tells with rfl | ⟨b, rfl⟩ | named
  · decide
  · exact b.oneLine_name
  · exact oneLine_of_symbol shown named

/-- An error of evaluation is worded on one line, if the values that it tells of are. -/
theorem LispError.oneLine_message {e : LispError} (tells : e.Tells Q) : OneLine e.message := by
  cases e with
  | lex | unexpectedClose | unexpectedEof | tooDeep => exact tells.elim
  | malformed fault =>
    cases fault with
    | improperList text =>
      change OneLine ("Syntax error: " ++ ("cannot evaluate improper list " ++ text))
      rw [oneLine_append, oneLine_append]
      exact ⟨by decide, by decide, oneLine_of_isTextOf shown tells⟩
    | _ => decide
  | unbound name =>
    change OneLine ("Symbol " ++ name ++ " not found")
    rw [oneLine_append, oneLine_append]
    exact ⟨⟨by decide, oneLine_of_symbol shown tells⟩, by decide⟩
  | type expected found =>
    have kind : OneLine expected.text := by cases expected <;> decide
    change OneLine ("Expected " ++ expected.text ++ ", found " ++ found)
    rw [oneLine_append, oneLine_append, oneLine_append]
    exact ⟨⟨⟨by decide, kind⟩, by decide⟩, oneLine_of_isTextOf shown tells⟩
  | arity procedure expected got =>
    change OneLine (procedure ++ " expects " ++ expected.text ++ " argument(s), got " ++
      Text.natText got)
    rw [oneLine_append, oneLine_append, oneLine_append, oneLine_append]
    exact ⟨⟨⟨⟨oneLine_of_arity shown tells, by decide⟩, expected.oneLine_text⟩, by decide⟩,
      oneLine_natText got⟩
  | divisionByZero | overflow => decide
  | notCallable text =>
    change OneLine (text ++ " is not a procedure")
    rw [oneLine_append]
    exact ⟨oneLine_of_isTextOf shown tells, by decide⟩
  | emptyList part => cases part <;> decide
  | badForm fault =>
    have form : OneLine fault.form.name := by cases fault.form <;> decide
    change OneLine ("Invalid " ++ fault.form.name ++ " form: " ++ fault.reason)
    rw [oneLine_append, oneLine_append, oneLine_append]
    exact ⟨⟨⟨by decide, form⟩, by decide⟩, FormFault.oneLine_reason shown tells⟩
  | recursionLimit limit =>
    change OneLine ("Recursion limit of " ++ Text.natText limit ++ " exceeded")
    rw [oneLine_append, oneLine_append]
    exact ⟨⟨by decide, oneLine_natText limit⟩, by decide⟩

end Errors

/-! ## Faults of the lexer -/

namespace Lexer

variable {s : Lexer} {cs : List Char} {e : LexError}

/-- The character behind a backslash is at fault only behind a backslash. -/
theorem mode_of_invalidEscape {c d : Char} (h : s.step c = .error (.invalidEscape d)) :
    ∃ start chars, s.mode = .escape start chars := by
  obtain ⟨line, mode, tokens⟩ := s
  cases mode with
  | between => cases h
  | comment => cases h
  | word start chars =>
    rcases fault_of_step h with ⟨_, _, -, word⟩ | ⟨-, same⟩
    · cases TokenKind.ofWord_error word
    · simp only [step] at h
      split at h
      · split at h
        · cases h
        · rename_i fault word
          cases h
          cases TokenKind.ofWord_error word
      · cases h
  | string start chars =>
    simp only [step] at h
    split at h
    · cases h
    · split at h <;> cases h
  | escape start chars => exact ⟨start, chars, rfl⟩

/-- A text is at fault for a word that is no number, or for a character that it has. -/
theorem fault_of_run (orderly : s.Orderly) (h : s.run cs = .error e) :
    (∃ word, e = .invalidNumber word ∧ IsWord word) ∨ ∃ c ∈ cs, e = .invalidEscape c := by
  induction cs generalizing s with
  | nil => cases h
  | cons c cs ih =>
    rw [run_cons] at h
    cases first : s.step c with
    | error fault =>
      rw [first] at h
      cases h
      rcases fault_of_step first with ⟨start, chars, mode, word⟩ | ⟨-, escape⟩
      · refine .inl ⟨_, TokenKind.ofWord_error word, fun d member => ?_⟩
        rw [String.toList_ofList, List.mem_reverse] at member
        exact (orderly.word start chars mode).2 d member
      · exact .inr ⟨c, List.mem_cons_self, escape⟩
    | ok next =>
      rw [first] at h
      rcases ih (orderly_step orderly first) h with word | ⟨d, member, escape⟩
      · exact .inl word
      · exact .inr ⟨d, List.mem_cons_of_mem c member, escape⟩

end Lexer

/-- The text ends behind a backslash inside a string. -/
def EndsInEscape (source : String) : Prop :=
  ∃ s start chars, Lexer.start.run source.toList = .ok s ∧ s.mode = .escape start chars

/-- The lexer gets to the end of the text, inside a string or not. -/
def LexesThrough (source : String) : Prop :=
  ∃ s, Lexer.start.run source.toList = .ok s

/-- The faults of a text: a string that it ends in, a word of it, or a character of it. -/
theorem fault_of_tokenize {source : String} {fault : LexError}
    (h : tokenize source = .error fault) :
    (∃ line, fault = .unterminatedString line) ∨ (∃ word, fault = .invalidNumber word ∧ IsWord word) ∨
      ∃ c, fault = .invalidEscape c ∧ Lexer.start.run source.toList = .error fault := by
  rw [tokenize, tokenizeChars] at h
  cases run : Lexer.start.run source.toList with
  | error inside =>
    rw [run] at h
    cases h
    rcases Lexer.fault_of_run Lexer.orderly_start run with word | ⟨c, -, escape⟩
    · exact .inr (.inl word)
    · exact .inr (.inr ⟨c, escape, rfl⟩)
  | ok s =>
    rw [run] at h
    change s.finish = .error fault at h
    cases mode : s.mode with
    | between | comment =>
      simp only [Lexer.finish, mode] at h
      cases h
    | string start chars | escape start chars =>
      simp only [Lexer.finish, mode] at h
      cases h
      exact .inl ⟨start, rfl⟩
    | word start chars =>
      simp only [Lexer.finish, mode] at h
      split at h
      · cases h
      · rename_i e word
        cases h
        refine .inr (.inl ⟨_, TokenKind.ofWord_error word, fun c member => ?_⟩)
        have inside := (Lexer.orderly_run Lexer.orderly_start run).word start chars mode
        rw [String.toList_ofList, List.mem_reverse] at member
        exact inside.2 c member

/-! ## Judgements -/

section Judgements

variable {limit : Nat} {source : String}

theorem verdict_of_invalidEscape {c : Char} (cut : tokenize source = .error (.invalidEscape c)) :
    verdict limit source = .error (.lex (.invalidEscape c)) := by
  rw [verdict, cut]

theorem verdict_of_invalidNumber {word : String}
    (cut : tokenize source = .error (.invalidNumber word)) :
    verdict limit source = .error (.lex (.invalidNumber word)) := by
  rw [verdict, cut]

/-- A text that is not rejected has no fault inside. -/
theorem lexesThrough_of_verdict {complete : Bool} (h : verdict limit source = .ok complete) :
    LexesThrough source := by
  cases run : Lexer.start.run source.toList with
  | ok s => exact ⟨s, run⟩
  | error fault =>
    have cut : tokenize source = .error fault := by
      rw [tokenize, tokenizeChars, run]
      rfl
    -- Inside a text the lexer never misses the end of a string.
    rcases Lexer.fault_of_run Lexer.orderly_start run with ⟨word, rfl, -⟩ | ⟨c, -, rfl⟩
    · rw [verdict_of_invalidNumber cut] at h
      cases h
    · rw [verdict_of_invalidEscape cut] at h
      cases h

theorem tokenize_of_verdict {fault : LexError} (h : verdict limit source = .error (.lex fault)) :
    tokenize source = .error fault := by
  cases cut : tokenize source with
  | ok tokens => exact absurd h (verdict_ne_lexical cut fault)
  | error found =>
    cases found with
    | unterminatedString line =>
      rw [verdict, cut] at h
      cases h
    | invalidEscape c =>
      rw [verdict_of_invalidEscape cut] at h
      cases h
      rfl
    | invalidNumber word =>
      rw [verdict_of_invalidNumber cut] at h
      cases h
      rfl

/-- A line is rejected for the line feed behind it exactly if it ends in an escape. -/
theorem verdict_eq_escapedFeed_iff {held line : String} (through : LexesThrough held)
    (within : OneLine line) :
    verdict limit (held ++ line ++ "\n") = .error (.lex (.invalidEscape '\n')) ↔
      EndsInEscape (held ++ line) := by
  have whole : (held ++ line ++ "\n").toList = (held ++ line).toList ++ ['\n'] :=
    String.toList_append
  obtain ⟨s, before⟩ := through
  constructor
  · intro rejected
    -- The lexer comes through what is held, and no line without a feed is at fault for one.
    rcases fault_of_tokenize (tokenize_of_verdict rejected) with
      ⟨_, other⟩ | ⟨_, other, -⟩ | ⟨_, -, run⟩
    · cases other
    · cases other
    · rw [whole, String.toList_append, Lexer.run_append, Lexer.run_append, before] at run
      change (s.run line.toList >>= fun next => next.run ['\n']) = _ at run
      cases inside : s.run line.toList with
      | error fault =>
        rw [inside] at run
        cases run
        rcases Lexer.fault_of_run (Lexer.orderly_run Lexer.orderly_start before) inside with
          ⟨_, other, -⟩ | ⟨c, member, same⟩
        · cases other
        · cases same
          exact absurd member within
      | ok next =>
        rw [inside] at run
        change next.run ['\n'] = _ at run
        have step : next.step '\n' = .error (.invalidEscape '\n') := by
          rw [Lexer.run_cons] at run
          cases feed : next.step '\n' with
          | error fault =>
            rw [feed] at run
            cases run
            rfl
          | ok last =>
            rw [feed] at run
            cases run
        obtain ⟨start, chars, mode⟩ := Lexer.mode_of_invalidEscape step
        refine ⟨next, start, chars, ?_, mode⟩
        rw [String.toList_append, Lexer.run_append, before]
        exact inside
  · rintro ⟨next, start, chars, run, mode⟩
    refine verdict_of_invalidEscape ?_
    have step : next.step '\n' = .error (.invalidEscape '\n') := by
      simp only [Lexer.step, mode]
      rfl
    rw [tokenize, tokenizeChars, whole, Lexer.run_append, run]
    change (next.run ['\n'] >>= Lexer.finish) = _
    rw [Lexer.run_cons, step]
    rfl

theorem oneLine_tooDeep (limit : Nat) : OneLine (LispError.tooDeep limit).message := by
  change OneLine ("Expression nested deeper than " ++ Text.natText limit ++ " levels")
  rw [oneLine_append, oneLine_append]
  exact ⟨⟨by decide, oneLine_natText limit⟩, by decide⟩

/-- The brackets of a text are at fault for one too many or too deep. -/
theorem oneLine_of_openBrackets {depth : Nat} {ts : List TokenKind} {e : LispError}
    (h : openBrackets limit depth ts = .error e) : OneLine e.message := by
  fun_induction openBrackets limit depth ts with
  | case1 => cases h
  | case2 =>
    cases h
    exact oneLine_tooDeep limit
  | case3 depth ts shallow ih => exact ih h
  | case4 =>
    cases h
    decide
  | case5 depth ts ih => exact ih h
  | case6 _ _ _ _ _ _ ih => exact ih h

/-- A rejection is worded on one line, but for an escape of the line feed. -/
theorem oneLine_of_verdict {e : LispError} (h : verdict limit source = .error e)
    (other : e ≠ .lex (.invalidEscape '\n')) : OneLine e.message := by
  cases cut : tokenize source with
  | ok tokens =>
    rw [verdict, cut] at h
    dsimp only at h
    split at h
    · rename_i fault counted
      cases h
      exact oneLine_of_openBrackets counted
    · cases h
  | error fault =>
    rcases fault_of_tokenize cut with ⟨line, rfl⟩ | ⟨word, rfl, named⟩ | ⟨c, rfl, -⟩
    · rw [verdict, cut] at h
      cases h
    · rw [verdict_of_invalidNumber cut] at h
      cases h
      exact oneLine_append.2 ⟨by decide, named.oneLine⟩
    · rw [verdict_of_invalidEscape cut] at h
      cases h
      refine oneLine_append.2 ⟨by decide, fun member => other ?_⟩
      rw [Char.toString, String.toList_singleton, List.mem_singleton] at member
      rw [← member]

end Judgements

/-! ## Reading and evaluating -/

namespace Parser

variable {limit : Nat} {p : Parser} {t : TokenKind}

theorem begin_ne_improperList (text : String) :
    p.begin limit t ≠ .error (.malformed (.improperList text)) := by
  intro same
  simp only [begin] at same
  split at same
  · cases same
  · cases t with
    | quote =>
      dsimp only at same
      split at same <;> cases same
    | _ => cases same

theorem step_ne_improperList (text : String) :
    p.step limit t ≠ .error (.malformed (.improperList text)) := by
  intro same
  simp only [step] at same
  split at same
  · split at same <;> cases same
  · split at same
    · cases same
    · cases same
    · split at same <;> cases same
    · exact begin_ne_improperList text same

/-- The parser takes every list with a tail; only evaluation objects to one. -/
theorem run_ne_improperList {ts : List TokenKind} (text : String) :
    p.run limit ts ≠ .error (.malformed (.improperList text)) := by
  induction ts generalizing p with
  | nil => nofun
  | cons t ts ih =>
    rw [run_cons]
    intro same
    cases first : p.step limit t with
    | error e =>
      rw [first] at same
      cases same
      exact step_ne_improperList text first
    | ok next =>
      rw [first] at same
      exact ih same

end Parser

/-- A complete text is not read for reasons that are worded on one line. -/
theorem oneLine_of_readSource {limit : Nat} {source : String} {e : LispError}
    (complete : verdict limit source = .ok true) (h : readSource limit source = .error e) :
    OneLine e.message := by
  have judged := judged limit source
  rw [complete, h] at judged
  cases judged with
  | misplaced wrong =>
    cases wrong with
    | close => decide
    | deep limit => exact oneLine_tooDeep limit
    | malformed fault =>
      cases fault with
      | improperList text =>
        -- Reading is cutting and then parsing, and neither makes this error.
        rw [readSource] at h
        split at h
        · rename_i tokens _
          rw [parseTokens] at h
          cases run : Parser.start.run limit (tokens.map Token.kind) with
          | error fault =>
            rw [run] at h
            cases h
            exact absurd run (Parser.run_ne_improperList text)
          | ok p =>
            rw [run] at h
            change p.finish = _ at h
            rw [Parser.finish] at h
            split at h <;> cases h
        · cases h
      | _ => decide

/-- The outcome of a complete text is one line, where every name is a word. -/
theorem oneLine_evaluate {limit : Nat} {source : String} {store : Store} (g : Generation)
    (complete : verdict limit source = .ok true) (named : store.Every (Value.NamesIn IsWord)) :
    OneLine (Response.finished g (LispBackend.evaluate limit source store).1.outcome).text := by
  have shown : ∀ v : Value, v.NamesIn IsWord → OneLine v.text := fun _ => Value.oneLine_text
  cases read : readSource limit source with
  | error e =>
    rw [LispBackend.evaluate, read]
    exact oneLine_of_readSource complete read
  | ok es =>
    obtain ⟨-, ends⟩ := keeps_evalSequence (hereditary_namesIn IsWord) limit
      (namesIn_of_readSource read) store named
    rcases run : evalSequence limit es store with ⟨e | v, next⟩
    · rw [run] at ends
      rw [LispBackend.evaluate_error read run]
      exact LispError.oneLine_message shown ends
    · rw [run] at ends
      rw [LispBackend.evaluate_value read run]
      exact shown v ends

/-! ## The worker -/

namespace LispWorker

/-- Every name bound is a word, and the lexer gets through the lines held. -/
structure Legible (w : LispWorker) : Prop where
  worded : w.Worded
  through : LexesThrough w.backend.reader.source

theorem legible_new (limit : Nat) : (LispWorker.new limit).Legible :=
  ⟨worded_new limit, Lexer.start, rfl⟩

variable {w : LispWorker} {g : Generation} {line : String}

theorem Legible.readerFor (legible : w.Legible) (g : Generation) :
    LexesThrough (w.readerFor g).source := by
  rw [LispWorker.readerFor]
  split
  · exact legible.through
  · exact ⟨Lexer.start, rfl⟩

theorem legible_answer (legible : w.Legible) (c : Command) : (w.answer c).2.Legible := by
  refine ⟨(worded_answer legible.worded c).1, ?_⟩
  cases c with
  | eval g line =>
    cases judged : verdict w.backend.reader.limit (w.sourceWith g line) with
    | error e =>
      rw [answer_eq_of_handle (handle_of_rejected w g line judged)]
      exact ⟨Lexer.start, rfl⟩
    | ok complete =>
      cases complete with
      | false =>
        rw [answer_eq_of_handle (handle_of_incomplete w g line judged)]
        exact lexesThrough_of_verdict judged
      | true =>
        rw [answer_eq_of_handle (handle_of_complete w g line judged)]
        exact ⟨Lexer.start, rfl⟩
  | reset g => exact ⟨Lexer.start, rfl⟩
  | shutdown => exact legible.through

theorem legible_run (legible : w.Legible) (cs : List Command) : (w.replies cs).2.Legible := by
  induction cs generalizing w with
  | nil => exact legible
  | cons c cs ih => exact ih (legible_answer legible c)

/-- The answer to a line without a feed shows one exactly if the line ends in an escape, and is then
the rejection of the escape. -/
theorem oneLine_answer_iff (legible : w.Legible) (within : OneLine line) :
    ∀ r ∈ (w.answer (.eval g line)).1.reply?,
      (OneLine r.text ↔ ¬ EndsInEscape ((w.readerFor g).source ++ line)) ∧
        (¬ OneLine r.text →
          r.outcome = some (.failure (LispError.lex (.invalidEscape '\n')).message)) := by
  have escaped := @verdict_eq_escapedFeed_iff w.backend.reader.limit _ _ (legible.readerFor g) within
  rw [← sourceWith] at escaped
  intro r reply
  -- Any answer but the rejection of the escape is on one line.
  have plain (one : OneLine r.text)
      (other : verdict w.backend.reader.limit (w.sourceWith g line) ≠
        .error (.lex (.invalidEscape '\n'))) :
      (OneLine r.text ↔ ¬ EndsInEscape ((w.readerFor g).source ++ line)) ∧
        (¬ OneLine r.text →
          r.outcome = some (.failure (LispError.lex (.invalidEscape '\n')).message)) :=
    ⟨⟨fun _ ends => other (escaped.2 ends), fun _ => one⟩, fun split => absurd one split⟩
  cases judged : verdict w.backend.reader.limit (w.sourceWith g line) with
  | error e =>
    rw [answer_eq_of_handle (handle_of_rejected w g line judged)] at reply
    cases reply
    by_cases feed : e = .lex (.invalidEscape '\n')
    · subst feed
      have two : ¬ OneLine (LispError.lex (.invalidEscape '\n')).message := by decide
      exact ⟨⟨fun one => absurd one two, fun none => absurd (escaped.1 judged) none⟩, fun _ => rfl⟩
    · exact plain (oneLine_of_verdict judged feed) fun same => feed (by simpa [judged] using same)
  | ok complete =>
    have other : verdict w.backend.reader.limit (w.sourceWith g line) ≠
        .error (.lex (.invalidEscape '\n')) := by
      intro rejected
      rw [judged] at rejected
      cases rejected
    cases complete with
    | false =>
      rw [answer_eq_of_handle (handle_of_incomplete w g line judged)] at reply
      cases reply
      exact plain (by decide : OneLine "") other
    | true =>
      rw [answer_eq_of_handle (handle_of_complete w g line judged)] at reply
      cases reply
      exact plain (oneLine_evaluate g judged legible.worded) other

/-- Any commands to a fresh worker whose lines have no line feed inside. Whatever value or error a
reply shows, it shows it on one line; the one exception are lines that end behind a backslash inside
a string, as a part of the lines since the last boundary, and these are rejected for an escape of
the line feed. -/
theorem outcomes_on_one_line_unless_escaped (limit : Nat) (cs : List Command)
    (within : ∀ g line, Command.eval g line ∈ cs → OneLine line) :
    ∀ before g line r after,
      (LispWorker.new limit).transcript cs = before ++ (.eval g line, some r) :: after →
      (OneLine r.text ↔
          ¬ EndsInEscape (sourceText ((standing before).linesFor g) ++ line)) ∧
        (¬ OneLine r.text →
          r.outcome = some (.failure (LispError.lex (.invalidEscape '\n')).message)) := by
  intro before g line r after split
  obtain ⟨earlier, reply⟩ := transcript_eq_append split
  have stands := stands_run limit (before.map Prod.fst)
  rw [earlier] at stands
  have sent : Command.eval g line ∈ cs := by
    rw [← transcript_commands (LispWorker.new limit) cs, split]
    simp
  have legible := legible_run (legible_new limit) (before.map Prod.fst)
  have shown := @oneLine_answer_iff _ g line legible (within g line sent) r reply
  rw [(stands.readerFor g).1] at shown
  exact shown

/-- The case of a list over two lines, the second of which ends in an escape. -/
theorem outcomes_on_one_line_unless_escaped_list :
    let cs : List Command := [.eval 0 "'(a", .eval 0 "\"b\\"]
    let r : Response := .finished 0 (.failure "Invalid escape sequence: \\\n")
    (∀ g line, Command.eval g line ∈ cs → OneLine line) ∧
      (LispWorker.new 8).transcript cs =
        [(.eval 0 "'(a", some (.incomplete 0 1))] ++ [(.eval 0 "\"b\\", some r)] ∧
      EndsInEscape (sourceText ["'(a"] ++ "\"b\\") := by
  intro cs r
  have within : ∀ g line, Command.eval g line ∈ cs → OneLine line := by
    intro g line sent
    simp only [cs, List.mem_cons, List.not_mem_nil, or_false, Command.eval.injEq] at sent
    rcases sent with ⟨-, rfl⟩ | ⟨-, rfl⟩
    · decide
    · decide
  have history : (LispWorker.new 8).transcript cs =
      [(.eval 0 "'(a", some (.incomplete 0 1))] ++ [(.eval 0 "\"b\\", some r)] := by
    decide +kernel
  obtain ⟨shown, -⟩ := outcomes_on_one_line_unless_escaped 8 cs within _ 0 _ r [] history
  refine ⟨within, history, ?_⟩
  by_contra plain
  exact absurd (shown.2 plain) (by decide)

/-- Not every outcome is on one line: a string that is left open behind a backslash is answered with
two. -/
theorem outcome_of_escaped_feed :
    ¬ ∀ (limit : Nat) (cs : List Command), (∀ g line, Command.eval g line ∈ cs → OneLine line) →
      ∀ a ∈ ((LispWorker.new limit).replies cs).1, OneLine a.2.text := by
  intro all
  have within : ∀ g line, Command.eval g line ∈ [Command.eval 0 "\"\\"] → OneLine line := by
    intro g line sent
    rw [List.mem_singleton, Command.eval.injEq] at sent
    rw [sent.2]
    decide
  have one := all 512 [.eval 0 "\"\\"] within
    (.eval 0 "\"\\", .finished 0 (.failure "Invalid escape sequence: \\\n")) (by decide +kernel)
  exact absurd one (by decide)

end LispWorker

end LispRepl

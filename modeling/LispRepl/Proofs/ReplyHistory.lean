import LispRepl.Proofs.BatchAgreement
import LispRepl.Proofs.LostResets
import LispRepl.Proofs.ServedLines

/-!
# Replies along a history

Any commands reach a fresh Lisp worker in any order. The history of commands and replies alone says
which generation the worker is in and which lines it holds: those since the last boundary, which is
a complete reply, a reset or a change of generation. Each reply is an account of just that.

An expression that is abandoned before it is complete leaves nothing behind. Its requests can be
told from what follows them in the history, and the run without them is compared with the full one
while the commands go by. The two workers differ only while the full one holds lines that it is
about to forget (`Resumes.ahead`).

- `LispWorker.transcript`, `standing`: the history, and what it says about the worker.
- `abandoned`, `kept`: the history without the requests of abandoned expressions.
- `Response.Accounts`, `LispWorker.accounts_answer`: what a reply has to do with the lines held.
- `LispWorker.stands_run`, `LispWorker.resumes_run`: the worker along its history, and beside the
  worker that is spared the abandoned expressions.
- `LispWorker.replies_along_history`: the result.
-/

set_option autoImplicit false

namespace LispRepl

/-- A command and the reply to it, if there is one. -/
abbrev Answered := Command × Option Response

namespace Answered

/-- The reply ends the expression. -/
def completes (a : Answered) : Bool := a.2.any Response.complete

/-- The reply is a failure. -/
def fails (a : Answered) : Bool := a.2.any Response.failed

end Answered

/-- The generation that a command tells the worker. -/
def Command.generation? : Command → Option Generation
  | .eval g _ => some g
  | .reset g => some g
  | .shutdown => none

/-- The commands to a worker in order, each with the reply that it gets. -/
def LispWorker.transcript (w : LispWorker) : List Command → List Answered
  | [] => []
  | c :: cs => (c, (w.answer c).1.reply?) :: transcript (w.answer c).2 cs

/-- Where a history has got to: the generation of its last line or reset, and the lines since the
last boundary. -/
structure Standing where
  generation : Generation
  lines : List String

/-- The lines since the last boundary, as a line of this generation finds them: a change of
generation is a boundary too. -/
def Standing.linesFor (s : Standing) (generation : Generation) : List String :=
  if generation = s.generation then s.lines else []

/-- A line is held unless it is replied to as complete; a complete reply and a reset are
boundaries. -/
def Standing.next (s : Standing) : Answered → Standing
  | (.eval g line, reply) =>
    ⟨g, if reply.any Response.complete then [] else s.linesFor g ++ [line]⟩
  | (.reset g, _) => ⟨g, []⟩
  | (.shutdown, _) => s

/-- Where a history has got to that began with a fresh worker. -/
def standing (history : List Answered) : Standing :=
  history.foldl Standing.next ⟨0, []⟩

/-! ## Abandoned expressions -/

/-- An incomplete expression of this generation is abandoned in what follows: a reset or a line of
another generation comes before a complete reply. -/
def abandoned (generation : Generation) : List Answered → Bool
  | [] => false
  | (.eval g line, reply) :: rest =>
    g != generation || (!Answered.completes (.eval g line, reply) && abandoned generation rest)
  | (.reset _, _) :: _ => true
  | (.shutdown, _) :: rest => abandoned generation rest

/-- The command is a line of an expression that is incomplete with it and then abandoned. -/
def Answered.inVain (a : Answered) (rest : List Answered) : Bool :=
  match a.1 with
  | .eval g _ => !a.completes && abandoned g rest
  | _ => false

theorem inVain_eval (g : Generation) (line : String) (reply : Option Response)
    (rest : List Answered) :
    Answered.inVain (.eval g line, reply) rest =
      (!Answered.completes (.eval g line, reply) && abandoned g rest) := rfl

/-- A history without the requests of the expressions that were abandoned while incomplete. -/
def kept : List Answered → List Answered
  | [] => []
  | a :: rest => if a.inVain rest then kept rest else a :: kept rest

/-! ## One reply -/

/-- A reply to a line of this generation and the reader that it leaves, where `lines` are those
since the last boundary before the reply. -/
structure Response.Accounts (limit : Nat) (generation : Generation) (lines : List String)
    (r : Response) (reader : Reader) : Prop where
  generation_eq : r.generation = generation
  outcome : r.outcome.isSome = r.complete
  resetBuffer : r.resetBuffer = r.complete
  forgotten : r.complete = true → r.bufferedLines = 0 ∧ reader = .new limit
  held : r.complete = false →
    r.bufferedLines = lines.length ∧ reader.lines = lines.length ∧ reader.source = sourceText lines

namespace LispWorker

@[simp] theorem transcript_cons (w : LispWorker) (c : Command) (cs : List Command) :
    w.transcript (c :: cs) = (c, (w.answer c).1.reply?) :: (w.answer c).2.transcript cs := rfl

theorem transcript_commands (w : LispWorker) (cs : List Command) :
    (w.transcript cs).map Prod.fst = cs := by
  induction cs generalizing w with
  | nil => rfl
  | cons c cs ih => rw [transcript_cons, List.map_cons, ih]

/-- A reply is to a line, and every line has one. -/
theorem transcript_requests (w : LispWorker) (cs : List Command) :
    ∀ a ∈ w.transcript cs, a.2.isSome = a.1.isEval := by
  induction cs generalizing w with
  | nil => exact nofun
  | cons c cs ih => exact List.forall_mem_cons.2 ⟨reply?_isSome w c, ih _⟩

/-- A part of a history is what happened to the worker that the part before it left. -/
theorem transcript_eq_append {w : LispWorker} {cs : List Command} {before after : List Answered}
    {a : Answered} (split : w.transcript cs = before ++ a :: after) :
    w.transcript (before.map Prod.fst) = before ∧
      ((w.replies (before.map Prod.fst)).2.answer a.1).1.reply? = a.2 := by
  induction before generalizing w cs with
  | nil =>
    cases cs with
    | nil => cases split
    | cons c cs =>
      cases split
      exact ⟨rfl, rfl⟩
  | cons b before ih =>
    cases cs with
    | nil => cases split
    | cons c cs =>
      rw [transcript_cons, List.cons_append, List.cons.injEq] at split
      obtain ⟨rfl, split⟩ := split
      obtain ⟨history, reply⟩ := ih split
      refine ⟨?_, reply⟩
      rw [List.map_cons, transcript_cons, history]

/-- The answer to a command counts the failure that it may be. -/
theorem errorCount_answer (w : LispWorker) (c : Command) :
    (w.answer c).2.errorCount =
      w.errorCount + (Answered.fails (c, (w.answer c).1.reply?)).toNat := by
  cases c with
  | eval g line =>
    cases judged : verdict w.backend.reader.limit (w.sourceWith g line) with
    | error e =>
      rw [answer_eq_of_handle (handle_of_rejected w g line judged)]
      rfl
    | ok complete =>
      cases complete with
      | false =>
        rw [answer_eq_of_handle (handle_of_incomplete w g line judged)]
        rfl
      | true =>
        rw [answer_eq_of_handle (handle_of_complete w g line judged)]
        cases (LispBackend.evaluate w.backend.reader.limit (w.sourceWith g line)
          w.backend.store).1 <;> rfl
  | reset g => rfl
  | shutdown => rfl

/-- An incomplete reply leaves the bindings and the limit as they were. -/
theorem answer_of_incomplete {w : LispWorker} {g : Generation} {line : String}
    (incomplete : Answered.completes (.eval g line, (w.answer (.eval g line)).1.reply?) = false) :
    (w.answer (.eval g line)).2.backend.reader.clear = w.backend.reader.clear ∧
      (w.answer (.eval g line)).2.backend.store = w.backend.store := by
  cases judged : verdict w.backend.reader.limit (w.sourceWith g line) with
  | error e =>
    rw [answer_eq_of_handle (handle_of_rejected w g line judged)] at incomplete
    cases incomplete
  | ok complete =>
    cases complete with
    | false =>
      rw [answer_eq_of_handle (handle_of_incomplete w g line judged)]
      exact ⟨rfl, rfl⟩
    | true =>
      rw [answer_eq_of_handle (handle_of_complete w g line judged)] at incomplete
      cases incomplete

/-- A complete reply leaves no lines. -/
theorem answer_of_complete {w : LispWorker} {g : Generation} {line : String}
    (complete : Answered.completes (.eval g line, (w.answer (.eval g line)).1.reply?) = true) :
    (w.answer (.eval g line)).2.backend.reader = w.backend.reader.clear := by
  rcases w.answer_eval_cases g line with ⟨next, answer, -⟩ | ⟨outcome, next, answer, -, cleared⟩
  · rw [answer] at complete
    cases complete
  · rw [answer, cleared]

/-! ## The worker along its history -/

/-- The worker is where its history has got to. -/
structure Stands (limit : Nat) (s : Standing) (w : LispWorker) : Prop where
  generation : w.generation = s.generation
  limit_eq : w.backend.reader.limit = limit
  source : w.backend.reader.source = sourceText s.lines
  lines : w.backend.reader.lines = s.lines.length

variable {limit : Nat} {s : Standing} {w : LispWorker}

theorem stands_new (limit : Nat) : Stands limit (standing []) (LispWorker.new limit) :=
  ⟨rfl, rfl, rfl, rfl⟩

/-- A worker that has forgotten its lines stands behind a boundary. -/
theorem stands_of_cleared {g : Generation} (generation : w.generation = g)
    (cleared : w.backend.reader = .new limit) : Stands limit ⟨g, []⟩ w := by
  refine ⟨generation, ?_, ?_, ?_⟩
  all_goals
    rw [cleared]
    rfl

theorem Stands.clear (stands : Stands limit s w) : w.backend.reader.clear = .new limit := by
  rw [Reader.clear, stands.limit_eq]

/-- The reader that a line is pushed to holds the lines that the history has before it. -/
theorem Stands.readerFor (stands : Stands limit s w) (g : Generation) :
    (w.readerFor g).source = sourceText (s.linesFor g) ∧
      (w.readerFor g).lines = (s.linesFor g).length := by
  rw [LispWorker.readerFor, Standing.linesFor, stands.generation]
  split
  · exact ⟨stands.source, stands.lines⟩
  · exact ⟨rfl, rfl⟩

/-- One answer to a line: the reply is an account of the lines held, and the worker is where the
history has got to with it. -/
theorem accounts_answer (stands : Stands limit s w) (g : Generation) (line : String) :
    let now := s.next (.eval g line, (w.answer (.eval g line)).1.reply?)
    Stands limit now (w.answer (.eval g line)).2 ∧
      ∀ r ∈ (w.answer (.eval g line)).1.reply?,
        r.Accounts limit g now.lines (w.answer (.eval g line)).2.backend.reader := by
  obtain ⟨text, count⟩ := stands.readerFor g
  rcases w.answer_eval_cases g line with
    ⟨next, answer, generation, source, lines⟩ | ⟨outcome, next, answer, generation, cleared⟩
  · have limit_eq : next.backend.reader.limit = limit := by
      have same := (@answer_of_incomplete w g line (by rw [answer]; rfl)).1
      rw [answer, stands.clear] at same
      exact congrArg Reader.limit same
    rw [sourceWith, text, ← sourceText_snoc] at source
    rw [count, ← List.length_singleton, ← List.length_append] at lines
    rw [answer]
    refine ⟨⟨generation, limit_eq, source, lines⟩, fun r reply => ?_⟩
    cases reply
    have buffered : (w.readerFor g).lines + 1 = (s.linesFor g ++ [line]).length := by
      rw [count, List.length_append, List.length_singleton]
    exact ⟨rfl, rfl, rfl, Bool.noConfusion, fun _ => ⟨buffered, lines, source⟩⟩
  · rw [stands.clear] at cleared
    rw [answer]
    refine ⟨stands_of_cleared generation cleared, fun r reply => ?_⟩
    cases reply
    exact ⟨rfl, rfl, rfl, fun _ => ⟨rfl, cleared⟩, Bool.noConfusion⟩

theorem stands_answer (stands : Stands limit s w) (c : Command) :
    Stands limit (s.next (c, (w.answer c).1.reply?)) (w.answer c).2 := by
  cases c with
  | eval g line => exact (accounts_answer stands g line).1
  | reset g => exact stands_of_cleared rfl stands.clear
  | shutdown => exact stands

theorem stands_from (stands : Stands limit s w) (cs : List Command) :
    Stands limit ((w.transcript cs).foldl Standing.next s) (w.replies cs).2 := by
  induction cs generalizing s w with
  | nil => exact stands
  | cons c cs ih => exact ih (stands_answer stands c)

/-- After any commands, a fresh worker is where its history has got to. -/
theorem stands_run (limit : Nat) (cs : List Command) :
    Stands limit (standing ((LispWorker.new limit).transcript cs))
      ((LispWorker.new limit).replies cs).2 :=
  stands_from (stands_new limit) cs

/-- Along a run, the generation is that of the last command that tells one. -/
theorem generation_run (w : LispWorker) (cs : List Command) :
    (w.replies cs).2.generation =
      (cs.filterMap Command.generation?).getLast?.getD w.generation := by
  induction cs generalizing w with
  | nil => rfl
  | cons c cs ih =>
    rw [replies_cons, ih]
    cases c with
    | eval g line =>
      have tells : Command.generation? (.eval g line) = some g := rfl
      rw [generation_answer_eval, List.filterMap_cons_some tells, List.getLast?_cons,
        Option.getD_some]
    | reset g =>
      have tells : Command.generation? (.reset g) = some g := rfl
      rw [List.filterMap_cons_some tells, List.getLast?_cons, Option.getD_some]
      rfl
    | shutdown => rfl

/-- Along a run, every failure that is replied is counted. -/
theorem errorCount_run (w : LispWorker) (cs : List Command) :
    (w.replies cs).2.errorCount = w.errorCount + (w.transcript cs).countP Answered.fails := by
  induction cs generalizing w with
  | nil => rfl
  | cons c cs ih =>
    rw [replies_cons, ih, errorCount_answer, transcript_cons, List.countP_cons]
    cases Answered.fails (c, (w.answer c).1.reply?) with
    | false => rfl
    | true => exact Nat.add_right_comm _ _ _

/-! ## The worker that is spared the abandoned expressions -/

/-- Two workers with a common future: the second is spared the expressions that are abandoned in it
and before it. -/
inductive Resumes (rest : List Answered) (w v : LispWorker) : Prop where
  /-- Both hold the lines of an expression that is not abandoned. -/
  | level : v.generation = w.generation → v.backend = w.backend →
    abandoned w.generation rest = false → Resumes rest w v
  /-- Neither holds any lines, so that their generations do not matter. -/
  | idle : w.backend.reader = w.backend.reader.clear → v.backend = w.backend → Resumes rest w v
  /-- The first holds lines that it will forget. -/
  | ahead : v.backend.reader = w.backend.reader.clear → v.backend.store = w.backend.store →
    abandoned w.generation rest = true → Resumes rest w v

variable {v : LispWorker} {g : Generation} {line : String} {rest : List Answered}

theorem Resumes.store (resumes : Resumes rest w v) : v.backend.store = w.backend.store := by
  cases resumes with
  | level generation backend => rw [backend]
  | idle empty backend => rw [backend]
  | ahead reader store => exact store

theorem Resumes.clear (resumes : Resumes rest w v) :
    v.backend.reader.clear = w.backend.reader.clear := by
  cases resumes with
  | level generation backend => rw [backend]
  | idle empty backend => rw [backend]
  | ahead reader => rw [reader]; rfl

theorem readerFor_of_empty {u : LispWorker} (empty : u.backend.reader = u.backend.reader.clear)
    (g : Generation) : u.readerFor g = u.backend.reader.clear := by
  rw [readerFor]
  split
  · exact empty
  · rfl

theorem readerFor_of_ne {u : LispWorker} (apart : g ≠ u.generation) :
    u.readerFor g = u.backend.reader.clear :=
  if_neg apart

/-- A line that is sent in vain finds no lines in the second worker, and any other line is pushed to
the same reader by both. -/
theorem Resumes.readers {reply : Option Response}
    (resumes : Resumes ((.eval g line, reply) :: rest) w v) :
    (Answered.inVain (.eval g line, reply) rest = true →
        v.backend.reader = w.backend.reader.clear) ∧
      (Answered.inVain (.eval g line, reply) rest = false → v.readerFor g = w.readerFor g) := by
  have clear := resumes.clear
  cases resumes with
  | level generation backend lasting =>
    -- The line goes on with an expression that is not abandoned.
    rw [abandoned, Bool.or_eq_false_iff, bne_eq_false_iff_eq] at lasting
    obtain ⟨rfl, lasting⟩ := lasting
    refine ⟨fun vain => absurd (lasting.symm.trans vain) Bool.false_ne_true, fun _ => ?_⟩
    rw [← generation, readerFor_generation, generation, readerFor_generation, backend]
  | idle empty backend =>
    have reader : v.backend.reader = v.backend.reader.clear := by rw [backend, ← empty]
    refine ⟨fun _ => reader.trans clear, fun _ => ?_⟩
    rw [readerFor_of_empty empty, readerFor_of_empty reader, clear]
  | ahead reader store given =>
    refine ⟨fun _ => reader, fun answered => ?_⟩
    -- The lines held are forgotten only now, because the line is of another generation.
    have apart : g ≠ w.generation := by
      rintro rfl
      rw [abandoned, bne_self_eq_false, Bool.false_or] at given
      exact Bool.false_ne_true (answered.symm.trans given)
    rw [readerFor_of_empty (reader.trans clear.symm), readerFor_of_ne apart, clear]

/-- A command that is sent in vain leaves the first worker ahead of one that does not get it. -/
theorem resumes_spared {c : Command}
    (resumes : Resumes ((c, (w.answer c).1.reply?) :: rest) w v)
    (vain : Answered.inVain (c, (w.answer c).1.reply?) rest = true) :
    Resumes rest (w.answer c).2 v := by
  cases c with
  | eval g line =>
    have empty := resumes.readers.1 vain
    rw [inVain_eval, Bool.and_eq_true, Bool.not_eq_true'] at vain
    obtain ⟨cleared, unchanged⟩ := answer_of_incomplete vain.1
    refine .ahead (empty.trans cleared.symm) (resumes.store.trans unchanged.symm) ?_
    rw [generation_answer_eval]
    exact vain.2
  | reset g => cases vain
  | shutdown => cases vain

/-- Any other command is answered alike by both workers. -/
theorem resumes_answered {c : Command}
    (resumes : Resumes ((c, (w.answer c).1.reply?) :: rest) w v)
    (needed : Answered.inVain (c, (w.answer c).1.reply?) rest = false) :
    (v.answer c).1 = (w.answer c).1 ∧ Resumes rest (w.answer c).2 (v.answer c).2 := by
  cases c with
  | eval g line =>
    obtain ⟨reply, backend⟩ := answer_eval_congr line (resumes.readers.2 needed) resumes.store
    refine ⟨reply, ?_⟩
    cases ends : Answered.completes (.eval g line, (w.answer (.eval g line)).1.reply?) with
    | true =>
      have cleared := answer_of_complete ends
      exact .idle (by rw [cleared]; rfl) backend
    | false =>
      rw [inVain_eval, ends, Bool.not_false, Bool.true_and] at needed
      refine .level ?_ backend ?_
      · rw [generation_answer_eval, generation_answer_eval]
      · rw [generation_answer_eval]
        exact needed
  | reset g =>
    refine ⟨rfl, .idle rfl ?_⟩
    simp only [answer_reset, LispBackend.reset]
    rw [resumes.clear, resumes.store]
  | shutdown =>
    refine ⟨rfl, ?_⟩
    cases resumes with
    | level generation backend lasting => exact .level generation backend lasting
    | idle empty backend => exact .idle empty backend
    | ahead reader store given => exact .ahead reader store given

/-- Without the commands that were sent in vain, the others get the replies that they got with them,
and the same bindings are left. -/
theorem resumes_run (cs : List Command) (resumes : Resumes (w.transcript cs) w v) :
    v.transcript ((kept (w.transcript cs)).map Prod.fst) = kept (w.transcript cs) ∧
      (v.replies ((kept (w.transcript cs)).map Prod.fst)).2.backend.store =
        (w.replies cs).2.backend.store := by
  induction cs generalizing w v with
  | nil => exact ⟨rfl, resumes.store⟩
  | cons c cs ih =>
    rw [transcript_cons] at resumes ⊢
    rw [kept]
    split
    next vain => exact ih (resumes_spared resumes vain)
    next needed =>
      obtain ⟨reply, after⟩ := resumes_answered resumes (Bool.not_eq_true _ ▸ needed)
      obtain ⟨history, store⟩ := ih after
      rw [List.map_cons, transcript_cons, reply, history]
      exact ⟨rfl, store⟩

/-- Any commands to a fresh worker. Every request gets one reply and no other command gets one.
Each reply carries the generation of its request, and it is complete, has an outcome and says that
the input was forgotten all at once; a complete reply counts no lines and leaves none, and any other
counts those since the last boundary, which the worker then holds. The generation is that of the
last request or reset, and the failures are counted. Without the requests of the expressions that
were abandoned while incomplete, the other commands are replied to as before, and the same bindings
are left. -/
theorem replies_along_history (limit : Nat) (cs : List Command) :
    let fresh := LispWorker.new limit
    let history := fresh.transcript cs
    let last := (fresh.replies cs).2
    (history.map Prod.fst = cs ∧ ∀ a ∈ history, a.2.isSome = a.1.isEval) ∧
      (∀ before g line r after, history = before ++ (.eval g line, some r) :: after →
        r.Accounts limit g (standing (before ++ [(.eval g line, some r)])).lines
          (fresh.replies (before.map Prod.fst ++ [.eval g line])).2.backend.reader) ∧
      last.generation = (cs.filterMap Command.generation?).getLast?.getD 0 ∧
      last.errorCount = history.countP Answered.fails ∧
      fresh.transcript ((kept history).map Prod.fst) = kept history ∧
      (fresh.replies ((kept history).map Prod.fst)).2.backend.store = last.backend.store := by
  intro fresh history last
  refine ⟨⟨transcript_commands fresh cs, transcript_requests fresh cs⟩, ?_,
    generation_run fresh cs, ?_, resumes_run cs (.idle rfl rfl)⟩
  · intro before g line r after split
    obtain ⟨earlier, reply⟩ := transcript_eq_append split
    have stands := stands_run limit (before.map Prod.fst)
    rw [earlier] at stands
    obtain ⟨-, accounts⟩ := accounts_answer stands g line
    rw [reply] at accounts
    rw [standing, List.foldl_append, replies_append]
    exact accounts r rfl
  · exact (errorCount_run fresh cs).trans (Nat.zero_add _)

/-- Of three expressions the first two are abandoned, one by a line of another generation and one by
a reset; a shutdown in between changes nothing. -/
example :
    let cs : List Command := [.eval 0 "(car", .shutdown, .eval 1 "(+ 1", .eval 1 "; one", .reset 1,
      .eval 1 "(+ 2", .eval 1 "3)"]
    (kept ((LispWorker.new 8).transcript cs)).map Prod.fst =
      [.shutdown, .reset 1, .eval 1 "(+ 2", .eval 1 "3)"] := by
  decide +kernel

end LispWorker

end LispRepl

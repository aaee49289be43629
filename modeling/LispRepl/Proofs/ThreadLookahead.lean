import LispRepl.Proofs.SessionReaction
import LispRepl.Proofs.ThreadedWorker
import LispRepl.Proofs.WorkerRun

/-!
# Looking ahead on a thread

A thread changes a link all the time, but not what comes of it: the responses that will be delivered
in the end, and the worker that is left when every command has been answered. The Lisp worker never
crashes, so that both are known as soon as the commands have been sent, and no step of the thread
changes them. What each step does change is how much is left to do, which becomes less.

- `LispWorker.service_eq_answer`, `LispWorker.stopped_of_handle`: the Lisp worker as a service.
- `Link.Ahead`: what is known of a link beforehand; `Link.ahead_works` and its companions keep it.
- `Link.load`: how much is left to do on a link.
-/

set_option autoImplicit false

namespace LispRepl

/-! ## The Lisp worker as a service -/

namespace LispWorker

variable {w next : LispWorker} {c : Command} {given : List Response}

/-- What the Lisp worker gives for a command is its answer. -/
theorem service_eq_answer (h : Service.handle w c = (given, some next)) :
    ∃ step, w.answer c = (step, next) ∧ step.reply?.toList = given := by
  rcases Worker.service_cases h with ⟨r, handled, rfl⟩ | ⟨handled, rfl⟩
  · exact ⟨_, answer_eq_of_handle handled, rfl⟩
  · exact ⟨_, answer_eq_of_handle handled, rfl⟩

/-- The Lisp worker stops when it is told to, and for no other reason. -/
theorem stopped_of_handle (h : Service.handle w c = (given, none)) : c = .shutdown := by
  simp only [Service.handle, handle_eq_answer] at h
  cases c with
  | eval g line =>
    rcases w.answer_eval_cases g line with ⟨next, answer, -⟩ | ⟨outcome, next, answer, -⟩
    · rw [answer] at h
      cases h
    · rw [answer] at h
      cases h
  | reset g => cases h
  | shutdown => rfl

end LispWorker

/-! ## What is known beforehand -/

namespace Link

/-- The thread lives and is not told to stop. With every command answered, these are the responses
to be delivered, those that wait already included, and this is the worker. -/
inductive Ahead (l : Link (Thread LispWorker)) (responses : List Response) (w : LispWorker) :
    Prop where
  | intro (thread : Thread LispWorker) : l.service = some thread →
    Command.shutdown ∉ l.unanswered →
    l.responses ++ (thread.service.replies l.unanswered).1.map Prod.snd = responses →
    (thread.service.replies l.unanswered).2 = w → Ahead l responses w

variable {l m : Link (Thread LispWorker)} {responses : List Response} {w : LispWorker}

theorem ahead_new (w : LispWorker) : (Link.new (Thread.new w)).Ahead [] w :=
  .intro _ rfl List.not_mem_nil rfl rfl

theorem Ahead.live (ahead : l.Ahead responses w) : l.service ≠ none := by
  cases ahead with
  | intro thread live =>
    rw [live]
    nofun

theorem Ahead.not_lost (ahead : l.Ahead responses w) : l.isLost = false := by
  cases ahead with
  | intro thread live => rw [isLost, live]; rfl

/-- The steps of the thread change nothing of it. -/
theorem ahead_works (works : Thread.Works l m) (ahead : l.Ahead responses w) :
    m.Ahead responses w := by
  cases ahead with
  | intro thread live going responses worker =>
    cases works with
    | @take service c rest waiting =>
      -- A command in hand is the first of the unanswered ones, as it was on the queue.
      cases live
      exact .intro _ rfl going responses worker
    | @answer service next c commands waiting given handled =>
      cases live
      obtain ⟨step, answer, rfl⟩ := LispWorker.service_eq_answer handled
      have unanswered : unanswered ⟨commands, some (⟨service, some c⟩ : Thread LispWorker), waiting⟩ =
          c :: commands := rfl
      rw [unanswered] at going responses worker
      rw [LispWorker.replies_cons, answer] at responses worker
      -- The reply leaves what is to come and joins what waits.
      refine .intro _ rfl (fun told => going (List.mem_cons_of_mem c told)) ?_ worker
      rw [← responses, List.map_append, List.append_assoc]
      cases step.reply? <;> rfl
    | @stop service c commands waiting given handled =>
      cases live
      -- It was not told to stop, and nothing else stops it.
      cases LispWorker.stopped_of_handle handled
      exact absurd List.mem_cons_self going

/-- Commands that are sent are answered behind the others. -/
theorem ahead_sendAll (ahead : l.Ahead responses w) (cs : List Command)
    (going : Command.shutdown ∉ cs) :
    (l.sendAll cs).Ahead (responses ++ (w.replies cs).1.map Prod.snd) (w.replies cs).2 := by
  cases ahead with
  | intro thread live before waiting worker =>
    have unanswered : (l.sendAll cs).unanswered = l.unanswered ++ cs := by
      rw [sendAll_of_live live, Link.unanswered, Link.unanswered, List.append_assoc]
    refine .intro thread ?_ ?_ ?_ ?_
    · rw [service_sendAll, live]
    · rw [unanswered]
      intro told
      rcases List.mem_append.1 told with told | told
      · exact before told
      · exact going told
    · rw [unanswered, LispWorker.replies_append, worker, ← waiting, sendAll_of_live live,
        List.map_append, List.append_assoc]
    · rw [unanswered, LispWorker.replies_append, worker]

/-- The first of the responses is the one that is delivered next. -/
theorem ahead_deliver (ahead : l.Ahead responses w) {r : Response} {rest : List Response}
    (head : l.responses = r :: rest) :
    ∃ later, responses = r :: later ∧ { l with responses := rest }.Ahead later w := by
  cases ahead with
  | intro thread live going waiting worker =>
    rw [head] at waiting
    exact ⟨_, waiting.symm, .intro thread live going rfl worker⟩

/-- As long as a response is still to come, there is a step that the thread can take. -/
theorem works_of_ahead {r : Response} (ahead : l.Ahead (r :: responses) w)
    (quiet : l.responses = []) : ∃ m, Thread.Works l m := by
  cases ahead with
  | intro thread live going waiting =>
    obtain ⟨commands, service, given⟩ := l
    obtain ⟨worker, handling⟩ := thread
    cases live
    cases quiet
    cases handling with
    | some c =>
      -- A response is to come, so that a command is in hand or on the queue.
      cases handled : Service.handle worker c with
      | mk given next =>
        cases next with
        | some next => exact ⟨_, .answer handled⟩
        | none => exact ⟨_, .stop handled⟩
    | none =>
      cases commands with
      | cons c rest => exact ⟨_, .take⟩
      | nil => cases waiting

/-! ## What is left to do -/

/-- How much is left to do on a link: to take a command and to answer it, and to deliver what it
may be answered with. -/
def load {σ : Type} (l : Link (Thread σ)) : Nat :=
  3 * l.commands.length + 2 * (l.service.bind Thread.handling).toList.length + l.responses.length

/-- Every step of a thread leaves less to do. -/
theorem load_works {β : Type} [Backend β] {l m : Link (Thread (Worker β))}
    (works : Thread.Works l m) : m.load < l.load := by
  cases works with
  | take =>
    simp only [load, List.length_cons, Option.bind_some, Option.toList_none, Option.toList_some,
      List.length_nil]
    omega
  | answer handled =>
    have few : _ ≤ 1 := Worker.length_le_one handled
    simp only [load, List.length_append, List.length_cons, Option.bind_some, Option.toList_none,
      Option.toList_some, List.length_nil]
    omega
  | stop handled =>
    have few : _ ≤ 1 := Worker.length_le_one handled
    simp only [load, List.length_append, List.length_cons, Option.bind_some, Option.bind_none,
      Option.toList_none, Option.toList_some, List.length_nil]
    omega

theorem load_sendAll {σ : Type} {l : Link (Thread σ)} (live : l.service ≠ none)
    (cs : List Command) : (l.sendAll cs).load = l.load + 3 * cs.length := by
  obtain ⟨thread, known⟩ := Option.ne_none_iff_exists'.1 live
  rw [sendAll_of_live known]
  simp only [load, List.length_append]
  omega

theorem load_deliver {σ : Type} {l : Link (Thread σ)} {r : Response} {rest : List Response}
    (head : l.responses = r :: rest) : { l with responses := rest }.load + 1 = l.load := by
  rw [load, load, head, List.length_cons]
  rfl

end Link

end LispRepl

import LispRepl.Session.Live

/-!
# A worker on a thread of its own

A thread takes a command from its queue, and only when it has handled it does it give the responses
and take the next. In between, the session may send further commands, take responses that were given
before, or be interrupted. A thread whose service stops or crashes is gone together with the
commands that are left on its queue, while what it has said can still be delivered.

- `Worker.service_cases`: what a worker that lives on has given.
- `Thread`, `Thread.Works`: a service with the command in its hands, and the steps of it.
- `Thread.Dies`, `Thread.Moves`: the end of a thread, which may come at any time.
- `Link.unanswered`: the commands that are waiting or in hand.
- `Thread.works_of_work`: what a live session does in one step, a thread does in two.
-/

set_option autoImplicit false

namespace LispRepl

/-! ## Workers as services -/

namespace Worker

variable {β : Type} [Backend β] {w next : Worker β} {c : Command}

theorem service_of_reply {r : Response} (h : w.handle c = some (.reply r, next)) :
    Service.handle w c = ([r], some next) := by
  simp only [Service.handle, h]

/-- A worker that lives on has given one answer or none. -/
theorem service_cases {replies : List Response}
    (h : Service.handle w c = (replies, some next)) :
    (∃ r, w.handle c = some (.reply r, next) ∧ replies = [r]) ∨
      (w.handle c = some (.proceed, next) ∧ replies = []) := by
  simp only [Service.handle] at h
  split at h
  · rename_i r last handled
    cases h
    exact .inl ⟨r, handled, rfl⟩
  · rename_i last handled
    cases h
    exact .inr ⟨handled, rfl⟩
  · cases h
  · cases h

/-- A worker gives one answer at most, and none when it stops. -/
theorem length_le_one {replies : List Response} {after : Option (Worker β)}
    (h : Service.handle w c = (replies, after)) : replies.length ≤ 1 := by
  simp only [Service.handle] at h
  split at h <;> cases h <;> simp

end Worker

/-! ## Threads -/

/-- A service on a thread of its own, and the command that it is handling. -/
structure Thread (σ : Type) where
  service : σ
  handling : Option Command

variable {σ : Type}

/-- A thread that has not taken a command. -/
def Thread.new (service : σ) : Thread σ := ⟨service, none⟩

namespace Link

/-- The commands that are still to be answered: the one that is being handled, and those behind it
on the queue. -/
def unanswered (l : Link (Thread σ)) : List Command :=
  (l.service.bind Thread.handling).toList ++ l.commands

/-- The link with its worker on a thread of its own, where no command has been taken. -/
def threaded (l : Link σ) : Link (Thread σ) :=
  ⟨l.commands, l.service.map Thread.new, l.responses⟩

end Link

namespace Thread

/-- The steps of a thread. -/
inductive Works [Service σ] : Link (Thread σ) → Link (Thread σ) → Prop where
  | take {service : σ} {c : Command} {rest : List Command} {responses : List Response} :
    Works ⟨c :: rest, some ⟨service, none⟩, responses⟩ ⟨rest, some ⟨service, some c⟩, responses⟩
  | answer {service next : σ} {c : Command} {commands : List Command}
      {responses replies : List Response} :
    Service.handle service c = (replies, some next) →
    Works ⟨commands, some ⟨service, some c⟩, responses⟩
      ⟨commands, some ⟨next, none⟩, responses ++ replies⟩
  | stop {service : σ} {c : Command} {commands : List Command}
      {responses replies : List Response} :
    Service.handle service c = (replies, none) →
    Works ⟨commands, some ⟨service, some c⟩, responses⟩ ⟨[], none, responses ++ replies⟩

/-- A thread may end before it takes a command, while it handles one, and behind one. -/
inductive Dies : Link (Thread σ) → Link (Thread σ) → Prop where
  | dies {thread : Thread σ} {commands : List Command} {responses : List Response} :
    Dies ⟨commands, some thread, responses⟩ ⟨[], none, responses⟩

/-- What a thread does that may end at any time. -/
def Moves [Service σ] (l m : Link (Thread σ)) : Prop :=
  Works l m ∨ Dies l m

/-- A worker takes a command and handles it, which is one step of a live session: on a thread these
are two. -/
theorem works_of_work [Service σ] {l : Link σ} {service : σ} {c : Command} {rest : List Command}
    (live : l.service = some service) (head : l.commands = c :: rest) :
    ∃ m, Works l.threaded m ∧ Works m l.work.threaded := by
  obtain ⟨commands, _, responses⟩ := l
  cases live
  cases head
  refine ⟨_, .take, ?_⟩
  cases handled : Service.handle service c with
  | mk replies next =>
    cases next with
    | none =>
      simp only [Link.work, handled]
      exact .stop handled
    | some next =>
      simp only [Link.work, handled]
      exact .answer handled

/-- A thread that is gone does nothing any more. -/
theorem not_moves_of_gone [Service σ] {l m : Link (Thread σ)} (gone : l.service = none) :
    ¬ Moves l m := by
  rintro (works | dies)
  · cases works <;> cases gone
  · cases dies
    cases gone

end Thread

end LispRepl

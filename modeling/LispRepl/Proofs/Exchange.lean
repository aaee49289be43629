import LispRepl.Proofs.BridgeTransition
import LispRepl.Proofs.WorkerRun
import Mathlib.Algebra.Group.Nat.Defs

/-!
# The bridge and the Lisp worker over two queues

The bridge and the worker are joined by a queue of commands and a queue of responses, and nothing
fixes which of them moves next. An exchange makes one of four steps: a line arrives while the
bridge awaits one, an interrupt arrives, the worker handles the command at the head of its queue,
or the response at the head of the other queue is delivered. A run is any sequence of steps, and
its log says what happened.

Messages are stamped with the number of the request that they belong to, counted from zero by
dispatch. Neither side reads the stamps.

The invariant `Synced` does not speak of the order in which commands and responses move. It looks
ahead to the worker that has handled every command on its way (`settled`) and to all the responses
that are still to be delivered (`inFlight`), which the worker's own steps leave as they are. Of
these responses only the last can be current, and what it says of the lines held is what the
bridge holds.

- `Exchange`, `Exchange.Step`, `Exchange.Run`: the system.
- `Exchange.Synced`: the invariant.
- `Exchange.delivery_cases`: what the delivery of a response does.
- `Exchange.synced_step`, `Exchange.synced_run`: the invariant holds along every run.
-/

set_option autoImplicit false

namespace LispRepl

/-- The bridge, the worker, the stamped messages on their way between them, and how many requests
have been dispatched. -/
structure Exchange where
  bridge : Bridge
  worker : LispWorker
  commands : List (Nat × Command)
  responses : List (Nat × Response)
  dispatched : Nat

namespace Exchange

/-- What happens in one step. -/
inductive Occurrence where
  | line (line : InputLine) (effects : List Effect)
  | interrupt (signal : String) (effects : List Effect)
  /-- The worker handles a command and gives a response, if it does. -/
  | handled (number : Nat) (command : Command) (reply : Option Response)
  /-- The bridge takes a response. -/
  | delivered (number : Nat) (response : Response) (effects : List Effect)

/-- The effects of the bridge in one step. -/
def Occurrence.effects : Occurrence → List Effect
  | .line _ effects | .interrupt _ effects | .delivered _ _ effects => effects
  | .handled .. => []

/-- The exchange before any step. -/
def start (limit : Nat) (prompts : Prompts) : Exchange :=
  ⟨.new prompts, .new limit, [], [], 0⟩

/-- An effect for the worker is put on the queue of commands. -/
def send (s : Exchange) : Effect → Exchange
  | .dispatch generation line =>
    { s with
      commands := s.commands ++ [(s.dispatched, .eval generation line)]
      dispatched := s.dispatched + 1 }
  | .reset generation => { s with commands := s.commands ++ [(s.dispatched, .reset generation)] }
  | .write _ | .read _ => s

/-- Effects are carried out in order. -/
def sendAll (s : Exchange) (effects : List Effect) : Exchange :=
  effects.foldl send s

@[simp] theorem sendAll_bridge (s : Exchange) (effects : List Effect) :
    (s.sendAll effects).bridge = s.bridge := by
  induction effects generalizing s with
  | nil => rfl
  | cons e rest ih => cases e <;> exact ih _

@[simp] theorem sendAll_worker (s : Exchange) (effects : List Effect) :
    (s.sendAll effects).worker = s.worker := by
  induction effects generalizing s with
  | nil => rfl
  | cons e rest ih => cases e <;> exact ih _

@[simp] theorem sendAll_responses (s : Exchange) (effects : List Effect) :
    (s.sendAll effects).responses = s.responses := by
  induction effects generalizing s with
  | nil => rfl
  | cons e rest ih => cases e <;> exact ih _

/-- One step of an exchange. -/
inductive Step : Exchange → Occurrence → Exchange → Prop where
  | line {s : Exchange} {line : InputLine} {bridge : Bridge} {effects : List Effect} :
    s.bridge.phase = .awaiting → s.bridge.step (.line line) = .ok (bridge, effects) →
    Step s (.line line effects) ({ s with bridge }.sendAll effects)
  | interrupt {s : Exchange} {signal : String} {bridge : Bridge} {effects : List Effect} :
    s.bridge.step (.interrupt signal) = .ok (bridge, effects) →
    Step s (.interrupt signal effects) ({ s with bridge }.sendAll effects)
  | handled {s : Exchange} {n : Nat} {c : Command} {rest : List (Nat × Command)}
      {step : WorkerStep} {worker : LispWorker} :
    s.commands = (n, c) :: rest → s.worker.handle c = some (step, worker) →
    Step s (.handled n c step.reply?)
      { s with
        worker
        commands := rest
        responses := s.responses ++ (step.reply?.map (n, ·)).toList }
  | delivered {s : Exchange} {n : Nat} {r : Response} {rest : List (Nat × Response)}
      {bridge : Bridge} {effects : List Effect} :
    s.responses = (n, r) :: rest → s.bridge.step (.response r) = .ok (bridge, effects) →
    Step s (.delivered n r effects) ({ s with bridge, responses := rest }.sendAll effects)

/-- A run from a first state, with its log. -/
inductive Run (first : Exchange) : List Occurrence → Exchange → Prop where
  | nil : Run first [] first
  | snoc {log : List Occurrence} {s t : Exchange} {o : Occurrence} :
    Run first log s → Step s o t → Run first (log ++ [o]) t

/-- The occurrence is an interrupt. -/
def Occurrence.isInterrupt : Occurrence → Bool
  | .interrupt .. => true
  | _ => false

/-- How many interrupts there were; each begins a new generation. -/
def interrupts (log : List Occurrence) : Nat :=
  log.countP Occurrence.isInterrupt

/-! ## Looking ahead -/

/-- The worker once it has handled every command on its way. -/
def settled (s : Exchange) : LispWorker :=
  (s.worker.answerAll s.commands).2

/-- The responses that are still to be delivered, those to commands on their way included. -/
def inFlight (s : Exchange) : List (Nat × Response) :=
  s.responses ++ (s.worker.answerAll s.commands).1

/-- The worker is in the bridge's generation and holds the lines that the bridge holds. -/
structure Holds (w : LispWorker) (b : Bridge) : Prop where
  generation : w.generation = b.generation
  source : w.backend.reader.source = b.pending
  lines : w.backend.reader.lines = b.pendingLines

/-- The response that the bridge waits for, and the worker that gave it. -/
inductive Expected (b : Bridge) (w : LispWorker) : Response → Prop where
  | incomplete : Holds w b → Expected b w (.incomplete b.generation b.pendingLines)
  | finished {outcome : Outcome} :
    Holds w b.clear → Expected b w (.finished b.generation outcome)

/-- Every response is of an older generation. -/
def Stale (generation : Generation) (responses : List (Nat × Response)) : Prop :=
  ∀ p ∈ responses, p.2.generation < generation

/-- The two sides agree, as far as the messages on their way allow. -/
inductive Synced (s : Exchange) : Prop where
  | awaiting :
    s.bridge.phase = .awaiting → Stale s.bridge.generation s.inFlight →
    Holds s.settled s.bridge → Synced s
  | evaluating {stale : List (Nat × Response)} {n : Nat} {r : Response} :
    s.bridge.phase = .evaluating s.bridge.generation → s.inFlight = stale ++ [(n, r)] →
    Stale s.bridge.generation stale → n + 1 = s.dispatched →
    Expected s.bridge s.settled r → Synced s

theorem Expected.generation {b : Bridge} {w : LispWorker} {r : Response} (h : Expected b w r) :
    r.generation = b.generation := by
  cases h <;> rfl

/-- No response on its way is of a newer generation than the bridge's. -/
theorem Synced.generation_le {s : Exchange} (h : Synced s) :
    ∀ p ∈ s.inFlight, p.2.generation ≤ s.bridge.generation := by
  intro p hp
  cases h with
  | awaiting _ stale _ => exact UInt64.le_of_lt (stale p hp)
  | evaluating _ flight stale _ expected =>
    rw [flight, List.mem_append, List.mem_singleton] at hp
    rcases hp with hp | rfl
    · exact UInt64.le_of_lt (stale p hp)
    · exact UInt64.le_of_eq expected.generation

/-- The worker has settled when nothing is on its way to it. -/
theorem settled_of_commands_nil {s : Exchange} (h : s.commands = []) : s.settled = s.worker := by
  simp [settled, h]

theorem synced_start (limit : Nat) (prompts : Prompts) : Synced (start limit prompts) :=
  .awaiting rfl (by intro p hp; simp [start, inFlight] at hp) ⟨rfl, rfl, rfl⟩

/-! ## The worker's steps -/

/-- The worker takes nothing from what lies ahead. -/
theorem lookahead_handled {s : Exchange} {n : Nat} {c : Command} {rest : List (Nat × Command)}
    {step : WorkerStep} {worker : LispWorker} (hc : s.commands = (n, c) :: rest)
    (h : s.worker.handle c = some (step, worker)) :
    let t : Exchange :=
      { s with
        worker
        commands := rest
        responses := s.responses ++ (step.reply?.map (n, ·)).toList }
    t.inFlight = s.inFlight ∧ t.settled = s.settled := by
  have ha : s.worker.answer c = (step, worker) := LispWorker.answer_eq_of_handle h
  simp [inFlight, settled, hc, LispWorker.answerAll_cons, ha]

theorem Synced.congr {s t : Exchange} (h : Synced s) (bridge : t.bridge = s.bridge)
    (dispatched : t.dispatched = s.dispatched) (flight : t.inFlight = s.inFlight)
    (settled : t.settled = s.settled) : Synced t := by
  cases h with
  | awaiting phase stale holds =>
    exact .awaiting (bridge ▸ phase) (by rwa [bridge, flight]) (by rwa [bridge, settled])
  | evaluating phase split stale number expected =>
    exact .evaluating (bridge ▸ phase) (flight.trans split) (by rwa [bridge])
      (dispatched ▸ number) (by rwa [bridge, settled])

/-! ## Lines and interrupts -/

/-- A line is skipped, or it is accepted and dispatched. -/
theorem line_cases {b next : Bridge} {line : InputLine} {effects : List Effect}
    (awaiting : b.phase = .awaiting) (h : b.step (.line line) = .ok (next, effects)) :
    (next = b ∧ effects = [.read b.prompt]) ∨
      (next = b.accept line.text ∧ effects = [.dispatch b.generation line.text]) := by
  have idle : b.isEvaluating = false := by simp [Bridge.isEvaluating, awaiting]
  simp only [Bridge.step, Bridge.onLine, idle, Bool.false_eq_true, if_false] at h
  split at h
  · cases h
    exact .inl ⟨rfl, rfl⟩
  · cases h
    exact .inr ⟨rfl, rfl⟩

/-- The worker answers a dispatched line with what the bridge expects. -/
theorem expected_answer {w : LispWorker} {b : Bridge} (h : Holds w b) (line : String) :
    ∃ (r : Response) (next : LispWorker),
      w.answer (.eval b.generation line) = (.reply r, next) ∧ Expected (b.accept line) next r := by
  have reader : w.readerFor b.generation = w.backend.reader := by
    rw [← h.generation, LispWorker.readerFor_generation]
  rcases w.answer_eval_cases b.generation line with
    ⟨next, answer, generation, source, lines⟩ | ⟨outcome, next, answer, generation, forgotten⟩
  · rw [reader, h.lines] at answer lines
    refine ⟨_, next, answer, .incomplete ⟨generation, ?_, lines⟩⟩
    rw [source, LispWorker.sourceWith, reader, h.source]
    rfl
  · exact ⟨_, next, answer, .finished ⟨generation, by rw [forgotten]; rfl, by rw [forgotten]; rfl⟩⟩

/-- An accepted line has its response in flight behind all others. -/
theorem synced_accept {s : Exchange} {line : String} (awaiting : s.bridge.phase = .awaiting)
    (h : Synced s) :
    Synced ({ s with bridge := s.bridge.accept line }.sendAll
      [.dispatch s.bridge.generation line]) := by
  cases h with
  | evaluating phase => exact absurd (awaiting.symm.trans phase) (by simp)
  | awaiting _ stale holds =>
    obtain ⟨r, next, answer, expected⟩ := expected_answer holds line
    rw [settled] at answer
    -- What was on its way before is all stale now, and the new response comes behind it.
    refine @Synced.evaluating _ s.inFlight s.dispatched r rfl ?_ stale rfl ?_
    · simp [inFlight, sendAll, send, LispWorker.answerAll_append, LispWorker.answerAll_cons, answer,
        WorkerStep.reply?]
    · simpa [settled, sendAll, send, LispWorker.answerAll_append, LispWorker.answerAll_cons, answer]
        using expected

/-- The generation after an interrupt is newer, unless generations wrap. -/
theorem lt_generation_succ {g : Generation} (room : g.toNat + 1 < 2 ^ 64) : g < g + 1 := by
  rw [UInt64.lt_iff_toNat_lt, UInt64.toNat_add]
  simp only [UInt64.toNat_one]
  omega

/-- An interrupt makes every response on its way stale, and the worker will have forgotten its
lines. -/
theorem synced_abandon {s : Exchange} (room : s.bridge.generation.toNat + 1 < 2 ^ 64)
    (h : Synced s) :
    Synced ({ s with bridge := s.bridge.abandon }.sendAll
      [.reset s.bridge.abandon.generation, .read s.bridge.abandon.prompt]) := by
  refine .awaiting rfl ?_ ?_
  · intro p hp
    have hp' : p ∈ s.inFlight := by
      simpa [inFlight, sendAll, send, LispWorker.answerAll_append, LispWorker.answerAll_cons,
        WorkerStep.reply?] using hp
    -- None of it is newer than the generation that the interrupt ends.
    exact UInt64.lt_of_le_of_lt (h.generation_le p hp') (lt_generation_succ room)
  · constructor <;>
      simp [settled, sendAll, send, LispWorker.answerAll_append, LispWorker.answerAll_cons,
        LispBackend.reset, Reader.clear, Reader.new, Bridge.abandon, Bridge.clear]

/-! ## Delivery -/

/-- What the bridge makes of a response that it expects: it shows the outcome, if there is one,
and asks for a line. -/
theorem onResponse_expected {b : Bridge} {w : LispWorker} {r : Response}
    (phase : b.phase = .evaluating b.generation) (h : Expected b w r) :
    ∃ next : Bridge,
      b.onResponse r =
        (next, ((r.outcome.bind Outcome.render).map Effect.write).toList ++
          [.read next.prompt]) ∧
      next.phase = .awaiting ∧ next.generation = b.generation ∧ Holds w next := by
  cases h with
  | incomplete holds =>
    refine ⟨b.awaitMore, ?_, rfl, rfl, ⟨holds.generation, holds.source, holds.lines⟩⟩
    simp [Bridge.onResponse, phase, Response.incomplete, Bridge.onCurrent, UInt64.lt_irrefl]
  | finished holds =>
    refine ⟨b.clear, ?_, rfl, rfl, holds⟩
    simp [Bridge.onResponse, phase, Response.finished, Bridge.onCurrent, UInt64.lt_irrefl]

/-- The response that is delivered next is of an older generation and is dropped, or it is the one
to the last request, which the bridge waits for. -/
theorem delivery_cases {s : Exchange} {n : Nat} {r : Response} {rest : List (Nat × Response)}
    (h : Synced s) (head : s.responses = (n, r) :: rest) :
    (r.generation < s.bridge.generation ∧ s.bridge.onResponse r = (s.bridge, []) ∧
      Synced { s with responses := rest }) ∨
    (s.bridge.phase = .evaluating s.bridge.generation ∧ n + 1 = s.dispatched ∧
      s.inFlight = [(n, r)] ∧ Expected s.bridge s.settled r) := by
  have flight : s.inFlight = (n, r) :: ({ s with responses := rest } : Exchange).inFlight := by
    simp [inFlight, head]
  cases h with
  | awaiting phase stale holds =>
    have older : r.generation < s.bridge.generation := stale (n, r) (by simp [flight])
    refine .inl ⟨older, Bridge.onResponse_of_awaiting phase r, .awaiting phase ?_ holds⟩
    intro p hp
    exact stale p (by simp [flight, hp])
  | @evaluating stale m current phase split older number expected =>
    -- The head is the awaited response only once no stale one is left before it.
    cases stale with
    | nil =>
      obtain ⟨rfl, rfl⟩ : n = m ∧ r = current := by
        simpa [flight] using congrArg List.head? split
      exact .inr ⟨phase, number, split, expected⟩
    | cons p stale =>
      rw [split, List.cons_append, List.cons.injEq] at flight
      obtain ⟨rfl, flight⟩ := flight
      have old : r.generation < s.bridge.generation := older (n, r) (by simp)
      refine .inl ⟨old, Bridge.onResponse_of_older phase old,
        .evaluating phase flight.symm ?_ number expected⟩
      intro q hq
      exact older q (List.mem_cons_of_mem _ hq)

/-- Effects for the terminal alone put nothing on the queue. -/
theorem sendAll_of_shown (s : Exchange) (text : Option String) (prompt : String) :
    s.sendAll ((text.map Effect.write).toList ++ [.read prompt]) = s := by
  cases text <;> rfl

/-- The delivery of a response keeps the two sides in step and the generation as it is. -/
theorem synced_deliver {s : Exchange} {n : Nat} {r : Response} {rest : List (Nat × Response)}
    {bridge : Bridge} {effects : List Effect} (h : Synced s) (head : s.responses = (n, r) :: rest)
    (step : s.bridge.step (.response r) = .ok (bridge, effects)) :
    Synced ({ s with bridge, responses := rest }.sendAll effects) ∧
      bridge.generation = s.bridge.generation := by
  have result : s.bridge.onResponse r = (bridge, effects) := Except.ok.inj step
  rcases delivery_cases h head with ⟨_, dropped, synced⟩ | ⟨phase, _, only, expected⟩
  · rw [dropped] at result
    cases result
    exact ⟨synced, rfl⟩
  · obtain ⟨next, shown, awaiting, generation, holds⟩ := onResponse_expected phase expected
    rw [shown] at result
    cases result
    rw [sendAll_of_shown]
    refine ⟨.awaiting awaiting ?_ holds, generation⟩
    -- The awaited response was the last on its way, so nothing is left that could be stale.
    have none_left : ({ s with bridge, responses := rest } : Exchange).inFlight = [] := by
      simpa [inFlight, head] using only
    intro p hp
    simp [none_left] at hp

/-! ## Runs -/

theorem interrupts_snoc (log : List Occurrence) (o : Occurrence) :
    interrupts (log ++ [o]) = interrupts log + o.isInterrupt.toNat := by
  cases h : o.isInterrupt <;> simp [interrupts, h]

/-- A bound on the interrupts of a run is one on those of the run before its last step. -/
theorem interrupts_before {log : List Occurrence} {o : Occurrence}
    (few : interrupts (log ++ [o]) < 2 ^ 64) : interrupts log < 2 ^ 64 := by
  rw [interrupts_snoc] at few
  omega

/-- One step keeps the two sides in step, and the generation counts the interrupts. -/
theorem synced_step {log : List Occurrence} {s t : Exchange} {o : Occurrence} (step : Step s o t)
    (h : Synced s) (count : s.bridge.generation.toNat = interrupts log)
    (few : interrupts (log ++ [o]) < 2 ^ 64) :
    Synced t ∧ t.bridge.generation.toNat = interrupts (log ++ [o]) := by
  rw [interrupts_snoc] at few ⊢
  cases step with
  | line awaiting event =>
    rcases line_cases awaiting event with ⟨rfl, rfl⟩ | ⟨rfl, rfl⟩
    · exact ⟨h, count⟩
    · exact ⟨synced_accept awaiting h, count⟩
  | interrupt event =>
    cases event
    have room : s.bridge.generation.toNat + 1 < 2 ^ 64 := by rw [count]; exact few
    refine ⟨synced_abandon room h, ?_⟩
    rw [sendAll_bridge, ← count]
    show (s.bridge.generation + 1).toNat = s.bridge.generation.toNat + 1
    rw [UInt64.toNat_add]
    exact Nat.mod_eq_of_lt room
  | handled head event =>
    obtain ⟨flight, settled⟩ := lookahead_handled head event
    exact ⟨h.congr rfl rfl flight settled, count⟩
  | delivered head event =>
    obtain ⟨synced, generation⟩ := synced_deliver h head event
    refine ⟨synced, ?_⟩
    rw [sendAll_bridge, generation]
    exact count

/-- The two sides are in step along every run, as long as generations do not wrap. -/
theorem synced_run {limit : Nat} {prompts : Prompts} {log : List Occurrence} {s : Exchange}
    (run : Run (start limit prompts) log s) (few : interrupts log < 2 ^ 64) :
    Synced s ∧ s.bridge.generation.toNat = interrupts log := by
  induction run with
  | nil => exact ⟨synced_start limit prompts, rfl⟩
  | @snoc log s t o _ step ih =>
    obtain ⟨synced, count⟩ := ih (interrupts_before few)
    exact synced_step step synced count few

end Exchange

end LispRepl

import LispRepl.Proofs.Exchange

/-!
# Which request a shown outcome belongs to

Generations alone tell the bridge which response is current. This file follows the requests of an
exchange by their numbers, which the bridge and the worker do not see, and shows that generations
suffice: the response that is delivered is the worker's one answer to the request of its number;
it is dropped exactly when an interrupt came between that request and the delivery; and when it is
not dropped it answers the last request, so that outcomes are shown at most once and in the order
of the requests.

- `Exchange.requests`, `Exchange.replies`, `Exchange.shown`, `Exchange.Interrupted`: what a log
  says of requests.
- `Exchange.Ledger`: the invariant that ties the log to the messages on their way.
- `Exchange.outcomes_match_requests`: the result.
-/

set_option autoImplicit false

namespace LispRepl

namespace Exchange

/-! ## What a log says -/

/-- The request that an effect is, if it is one: its generation and line. -/
def request? : Effect → Option (Generation × String)
  | .dispatch generation line => some (generation, line)
  | _ => none

/-- The requests in the order of their numbers. -/
def requests (log : List Occurrence) : List (Generation × String) :=
  log.flatMap fun o => o.effects.filterMap request?

/-- The worker's answer to the request with this number, with the command that it answers. -/
def Occurrence.reply? (n : Nat) : Occurrence → Option (Command × Response)
  | .handled m c (some r) => if m = n then some (c, r) else none
  | _ => none

/-- The worker's answers to the request with this number. -/
def replies (n : Nat) (log : List Occurrence) : List (Command × Response) :=
  log.filterMap (Occurrence.reply? n)

/-- The effect shows a line of output. -/
def isWrite : Effect → Bool
  | .write _ => true
  | _ => false

/-- The number of the request whose response is delivered, once for each line that this shows. -/
def Occurrence.shown : Occurrence → List Nat
  | .delivered n _ effects => (effects.filter isWrite).map fun _ => n
  | _ => []

/-- The numbers of the requests whose outcomes are shown, in the order in which they are. -/
def shown (log : List Occurrence) : List Nat :=
  log.flatMap Occurrence.shown

/-- There was an interrupt after the request with this number. -/
def Interrupted (n : Nat) (log : List Occurrence) : Prop :=
  ∃ before o after, log = before ++ o :: after ∧ o.isInterrupt ∧ n < (requests before).length

theorem requests_snoc (log : List Occurrence) (o : Occurrence) :
    requests (log ++ [o]) = requests log ++ o.effects.filterMap request? := by
  simp [requests]

theorem replies_snoc (n : Nat) (log : List Occurrence) (o : Occurrence) :
    replies n (log ++ [o]) = replies n log ++ (o.reply? n).toList := by
  cases h : o.reply? n <;> simp [replies, h]

theorem shown_snoc (log : List Occurrence) (o : Occurrence) :
    shown (log ++ [o]) = shown log ++ o.shown := by
  simp [shown]

theorem interrupted_snoc (n : Nat) (log : List Occurrence) (o : Occurrence) :
    Interrupted n (log ++ [o]) ↔
      Interrupted n log ∨ (o.isInterrupt ∧ n < (requests log).length) := by
  constructor
  · rintro ⟨before, p, after, split, interrupt, asked⟩
    rcases List.eq_nil_or_concat after with rfl | ⟨rest, last, rfl⟩
    · obtain ⟨rfl, same⟩ := List.append_inj' split rfl
      cases same
      exact .inr ⟨interrupt, asked⟩
    · rw [List.concat_eq_append, ← List.cons_append, ← List.append_assoc] at split
      obtain ⟨rfl, -⟩ := List.append_inj' split rfl
      exact .inl ⟨before, p, rest, rfl, interrupt, asked⟩
  · rintro (⟨before, p, after, rfl, interrupt, asked⟩ | ⟨interrupt, asked⟩)
    · exact ⟨before, p, after ++ [o], by simp, interrupt, asked⟩
    · exact ⟨log, o, [], rfl, interrupt, asked⟩

/-! ## Requests and generations -/

/-- A step dispatches nothing, or it dispatches one line in the bridge's generation and is no
interrupt. -/
theorem requests_of_step {s t : Exchange} {o : Occurrence} (step : Step s o t) (h : Synced s) :
    o.effects.filterMap request? = [] ∨
      (o.isInterrupt = false ∧
        ∃ line, o.effects.filterMap request? = [(s.bridge.generation, line)]) := by
  cases step with
  | line awaiting event =>
    rcases line_cases awaiting event with ⟨rfl, rfl⟩ | ⟨rfl, rfl⟩
    · exact .inl rfl
    · exact .inr ⟨rfl, _, rfl⟩
  | interrupt event =>
    cases event
    exact .inl rfl
  | handled => exact .inl rfl
  | @delivered n r rest bridge effects head event =>
    have result : s.bridge.onResponse r = (bridge, effects) := Except.ok.inj event
    rcases delivery_cases h head with ⟨_, dropped, _⟩ | ⟨phase, _, _, expected⟩
    · rw [dropped] at result
      cases result
      exact .inl rfl
    · obtain ⟨next, written, _⟩ := onResponse_expected phase expected
      rw [written] at result
      cases result
      cases r.outcome.bind Outcome.render <;> exact .inl rfl

/-- A request carries the number of interrupts before it as its generation, so that a later
interrupt shows in the numbers alone. -/
theorem interrupted_iff {limit : Nat} {prompts : Prompts} {log : List Occurrence} {s : Exchange}
    (run : Run (start limit prompts) log s) (few : interrupts log < 2 ^ 64) {n : Nat}
    {g : Generation} {line : String} (asked : (requests log)[n]? = some (g, line)) :
    g.toNat ≤ interrupts log ∧ (Interrupted n log ↔ g.toNat < interrupts log) := by
  induction run with
  | nil => simp [requests] at asked
  | @snoc log s t o run step ih =>
    have earlier := interrupts_before few
    obtain ⟨synced, count⟩ := synced_run run earlier
    have inside : ∀ {g line}, (requests log)[n]? = some (g, line) → n < (requests log).length :=
      fun h => (List.getElem?_eq_some_iff.1 h).1
    rw [requests_snoc] at asked
    rw [interrupted_snoc, interrupts_snoc]
    rcases requests_of_step step synced with none_sent | ⟨noInterrupt, text, sent⟩
    · rw [none_sent, List.append_nil] at asked
      obtain ⟨le, iff⟩ := ih earlier asked
      cases ho : o.isInterrupt with
      | false => simpa using ⟨le, iff⟩
      | true =>
        -- An interrupt comes after every request known so far, and raises the count past it.
        have known := inside asked
        exact ⟨by simp; omega, by simp [known]; omega⟩
    · rw [sent] at asked
      rw [noInterrupt]
      by_cases hn : n < (requests log).length
      · rw [List.getElem?_append_left hn] at asked
        simpa using ih earlier asked
      · -- The request is the one that this step dispatches, so nothing has interrupted it yet.
        have last : n = (requests log).length := by
          have := (List.getElem?_eq_some_iff.1 asked).1
          simp only [List.length_append, List.length_singleton] at this
          omega
        subst last
        simp only [List.getElem?_concat_length, Option.some.injEq, Prod.mk.injEq] at asked
        obtain ⟨rfl, rfl⟩ := asked
        have fresh : ¬ Interrupted (requests log).length log := by
          rintro ⟨before, p, after, rfl, -, asked⟩
          simp only [requests, List.flatMap_append, List.length_append] at asked
          omega
        simp [count, fresh]

/-! ## The ledger -/

/-- The number of a command that is a request. -/
def requestNumber? : Nat × Command → Option Nat
  | (n, .eval _ _) => some n
  | _ => none

/-- The numbers of the requests that are still to be answered or whose answers are still to be
delivered, in the order of delivery. -/
def waiting (s : Exchange) : List Nat :=
  s.responses.map Prod.fst ++ s.commands.filterMap requestNumber?

/-- The log and the messages on their way belong together. -/
structure Ledger (log : List Occurrence) (s : Exchange) : Prop where
  dispatched : s.dispatched = (requests log).length
  /-- No number is shown or waits twice, and those that wait come after those shown. -/
  ordered : (shown log ++ s.waiting).Pairwise (· < ·)
  counted : ∀ n ∈ shown log ++ s.waiting, n < s.dispatched
  asked : ∀ n g line, (n, Command.eval g line) ∈ s.commands →
    (requests log)[n]? = some (g, line) ∧ replies n log = []
  answered : ∀ n r, (n, r) ∈ s.responses →
    ∃ line, (requests log)[n]? = some (r.generation, line) ∧
      replies n log = [(.eval r.generation line, r)]
  unasked : ∀ n, s.dispatched ≤ n → replies n log = []

theorem ledger_start (limit : Nat) (prompts : Prompts) : Ledger [] (start limit prompts) where
  dispatched := rfl
  ordered := .nil
  counted := by simp [shown, waiting, start]
  asked := by simp [start]
  answered := by simp [start]
  unasked := by simp [replies]

/-- A step that dispatches and answers nothing, and at most takes numbers from the head of those
that wait to show them. -/
theorem Ledger.frame {log : List Occurrence} {s t : Exchange} {o : Occurrence} (h : Ledger log s)
    (sent : o.effects.filterMap request? = []) (silent : ∀ n, o.reply? n = none)
    (dispatched : t.dispatched = s.dispatched)
    (commands : ∀ n g line, (n, Command.eval g line) ∈ t.commands →
      (n, Command.eval g line) ∈ s.commands)
    (responses : ∀ p ∈ t.responses, p ∈ s.responses)
    (order : (o.shown ++ t.waiting).Sublist s.waiting) : Ledger (log ++ [o]) t := by
  have requests_eq : requests (log ++ [o]) = requests log := by simp [requests_snoc, sent]
  have replies_eq : ∀ n, replies n (log ++ [o]) = replies n log := by simp [replies_snoc, silent]
  have sublist : (shown (log ++ [o]) ++ t.waiting).Sublist (shown log ++ s.waiting) := by
    rw [shown_snoc, List.append_assoc]
    exact order.append_left _
  constructor
  · rw [requests_eq, dispatched, h.dispatched]
  · exact h.ordered.sublist sublist
  · intro n hn
    rw [dispatched]
    exact h.counted n (sublist.subset hn)
  · intro n g line hmem
    rw [requests_eq, replies_eq]
    exact h.asked n g line (commands n g line hmem)
  · intro n r hmem
    rw [requests_eq, replies_eq]
    exact h.answered n r (responses _ hmem)
  · intro n hn
    rw [replies_eq]
    exact h.unasked n (dispatched ▸ hn)

/-- The line that is dispatched gets the next number. -/
theorem ledger_accept {log : List Occurrence} {s : Exchange} {bridge : Bridge} {line : InputLine}
    {g : Generation} (h : Ledger log s) :
    Ledger (log ++ [.line line [.dispatch g line.text]])
      ({ s with bridge }.sendAll [.dispatch g line.text]) := by
  have requests_eq : requests (log ++ [.line line [.dispatch g line.text]]) =
      requests log ++ [(g, line.text)] := requests_snoc _ _
  have replies_eq : ∀ n, replies n (log ++ [.line line [.dispatch g line.text]]) =
      replies n log := by
    intro n
    rw [replies_snoc]
    exact List.append_nil _
  have shown_eq : shown (log ++ [.line line [.dispatch g line.text]]) = shown log := by
    rw [shown_snoc]
    exact List.append_nil _
  have waiting_eq : ({ s with bridge }.sendAll [.dispatch g line.text] : Exchange).waiting =
      s.waiting ++ [s.dispatched] := by
    simp [waiting, sendAll, send, requestNumber?]
  -- Requests that were known before stay where they are.
  have known : ∀ (n : Nat) p, (requests log)[n]? = some p →
      (requests log ++ [(g, line.text)])[n]? = some p := by
    intro n p hp
    rw [List.getElem?_append_left (List.getElem?_eq_some_iff.1 hp).1]
    exact hp
  constructor
  · rw [requests_eq]
    simp [sendAll, send, h.dispatched]
  · rw [shown_eq, waiting_eq, ← List.append_assoc, List.pairwise_append]
    refine ⟨h.ordered, List.pairwise_singleton _ _, ?_⟩
    intro n hn m hm
    rw [List.mem_singleton] at hm
    exact hm ▸ h.counted n hn
  · intro n hn
    rw [shown_eq, waiting_eq, ← List.append_assoc, List.mem_append, List.mem_singleton] at hn
    show n < s.dispatched + 1
    rcases hn with hn | rfl
    · exact Nat.lt_succ_of_lt (h.counted n hn)
    · exact Nat.lt_succ_self _
  · intro n g' line' hmem
    rw [requests_eq, replies_eq]
    simp only [sendAll, List.foldl_cons, List.foldl_nil, send, List.mem_append,
      List.mem_singleton] at hmem
    rcases hmem with hmem | hmem
    · obtain ⟨asked, silent⟩ := h.asked n g' line' hmem
      exact ⟨known n _ asked, silent⟩
    · cases hmem
      exact ⟨by rw [h.dispatched, List.getElem?_concat_length], h.unasked _ (Nat.le_refl _)⟩
  · intro n r hmem
    rw [requests_eq, replies_eq]
    obtain ⟨text, asked, only⟩ := h.answered n r (by simpa using hmem)
    exact ⟨text, known n _ asked, only⟩
  · intro n hn
    rw [replies_eq]
    exact h.unasked n (Nat.le_of_succ_le hn)

/-- The worker answers a request with one response of the request's generation. -/
theorem handle_eval_reply {w worker : LispWorker} {g : Generation} {line : String}
    {step : WorkerStep} (h : w.handle (.eval g line) = some (step, worker)) :
    ∃ r, step = .reply r ∧ r.generation = g := by
  have answer := LispWorker.answer_eq_of_handle h
  rcases w.answer_eval_cases g line with ⟨next, same, -⟩ | ⟨outcome, next, same, -⟩
  · rw [answer] at same
    cases same
    exact ⟨_, rfl, rfl⟩
  · rw [answer] at same
    cases same
    exact ⟨_, rfl, rfl⟩

/-- The answer to the request at the head of the queue is its only one. -/
theorem ledger_answer {log : List Occurrence} {s : Exchange} {n : Nat} {line : String}
    {rest : List (Nat × Command)} {r : Response} {worker : LispWorker} (h : Ledger log s)
    (head : s.commands = (n, .eval r.generation line) :: rest) :
    Ledger (log ++ [.handled n (.eval r.generation line) (some r)])
      { s with worker, commands := rest, responses := s.responses ++ [(n, r)] } := by
  have requests_eq : requests (log ++ [.handled n (.eval r.generation line) (some r)]) =
      requests log := by
    rw [requests_snoc]
    exact List.append_nil _
  have replies_eq : ∀ m, replies m (log ++ [.handled n (.eval r.generation line) (some r)]) =
      replies m log ++ if n = m then [(.eval r.generation line, r)] else [] := by
    intro m
    rw [replies_snoc]
    by_cases hm : n = m <;> simp [Occurrence.reply?, hm]
  have shown_eq : shown (log ++ [.handled n (.eval r.generation line) (some r)]) = shown log := by
    rw [shown_snoc]
    exact List.append_nil _
  have split : s.waiting = s.responses.map Prod.fst ++ n :: rest.filterMap requestNumber? := by
    rw [waiting, head]
    rfl
  have waiting_eq : ({ s with worker, commands := rest, responses := s.responses ++ [(n, r)] } :
      Exchange).waiting = s.waiting := by
    rw [split]
    simp [waiting]
  -- The numbers that wait increase, so `n` is above those answered and below those still asked.
  have apart := (List.pairwise_append.1 h.ordered).2.1
  rw [split, List.pairwise_append] at apart
  obtain ⟨-, later, earlier⟩ := apart
  obtain ⟨asked, silent⟩ := h.asked n r.generation line (by simp [head])
  constructor
  · rw [requests_eq, h.dispatched]
  · rw [shown_eq, waiting_eq]
    exact h.ordered
  · rw [shown_eq, waiting_eq]
    exact h.counted
  · intro m g text hmem
    have after : n < m := by
      refine (List.pairwise_cons.1 later).1 m ?_
      exact List.mem_filterMap.2 ⟨_, hmem, rfl⟩
    rw [requests_eq, replies_eq, if_neg (Nat.ne_of_lt after), List.append_nil]
    exact h.asked m g text (by simp [head, hmem])
  · intro m r' hmem
    rw [requests_eq, replies_eq]
    rcases List.mem_append.1 hmem with hmem | hmem
    · have before : m < n := earlier m (List.mem_map_of_mem hmem) n List.mem_cons_self
      rw [if_neg (Nat.ne_of_gt before), List.append_nil]
      exact h.answered m r' hmem
    · rw [List.mem_singleton] at hmem
      cases hmem
      exact ⟨line, asked, by simp [silent]⟩
  · intro m hm
    have inside : n < s.dispatched := by
      refine h.counted n ?_
      simp [split]
    rw [replies_eq, if_neg (Nat.ne_of_lt (Nat.lt_of_lt_of_le inside hm)), List.append_nil]
    exact h.unasked m hm

/-- A command that is no request is handled without an answer. -/
theorem ledger_unanswered {log : List Occurrence} {s : Exchange} {n : Nat} {c : Command}
    {rest : List (Nat × Command)} {worker : LispWorker} (h : Ledger log s)
    (head : s.commands = (n, c) :: rest) (other : requestNumber? (n, c) = none) :
    Ledger (log ++ [.handled n c none])
      { s with worker, commands := rest, responses := s.responses ++ [] } := by
  refine h.frame rfl (fun _ => rfl) rfl ?_ ?_ ?_
  · intro m g line hmem
    rw [head]
    exact List.mem_cons_of_mem _ hmem
  · intro p hp
    simpa using hp
  · simp [Occurrence.shown, waiting, head, other]

/-- One step keeps the ledger. -/
theorem ledger_step {log : List Occurrence} {s t : Exchange} {o : Occurrence} (step : Step s o t)
    (synced : Synced s) (h : Ledger log s) : Ledger (log ++ [o]) t := by
  cases step with
  | line awaiting event =>
    rcases line_cases awaiting event with ⟨rfl, rfl⟩ | ⟨rfl, rfl⟩
    · exact h.frame rfl (fun _ => rfl) rfl (fun _ _ _ hmem => hmem) (fun _ hp => hp) (.refl _)
    · exact ledger_accept h
  | interrupt event =>
    cases event
    refine h.frame rfl (fun _ => rfl) rfl ?_ (fun _ hp => hp) ?_
    · intro n g line hmem
      simpa [sendAll, send] using hmem
    · simp [Occurrence.shown, waiting, sendAll, send, requestNumber?]
  | @handled n c rest step worker head event =>
    cases c with
    | eval g line =>
      obtain ⟨r, rfl, rfl⟩ := handle_eval_reply event
      exact ledger_answer h head
    | reset g =>
      cases event
      exact ledger_unanswered h head rfl
    | shutdown =>
      cases event
      exact ledger_unanswered h head rfl
  | @delivered n r rest bridge effects head event =>
    have waiting_eq : s.waiting = n :: ({ s with bridge, responses := rest } : Exchange).waiting := by
      simp [waiting, head]
    have result : s.bridge.onResponse r = (bridge, effects) := Except.ok.inj event
    have fewer : ∀ p ∈ rest, p ∈ s.responses := by
      intro p hp
      simp [head, hp]
    -- A dropped response gives up its number; one that has nothing to show does so, too.
    rcases delivery_cases synced head with ⟨_, dropped, _⟩ | ⟨phase, _, _, expected⟩
    · rw [dropped] at result
      cases result
      refine h.frame rfl (fun _ => rfl) rfl (fun _ _ _ hmem => hmem) fewer ?_
      rw [waiting_eq]
      exact List.sublist_cons_self _ _
    · obtain ⟨next, written, _⟩ := onResponse_expected phase expected
      rw [written] at result
      cases result
      rw [sendAll_of_shown]
      refine h.frame ?_ (fun _ => rfl) rfl (fun _ _ _ hmem => hmem) fewer ?_
      · cases r.outcome.bind Outcome.render <;> rfl
      · rw [waiting_eq]
        cases r.outcome.bind Outcome.render with
        | none => exact List.sublist_cons_self _ _
        | some text => exact .refl _

/-- The ledger is kept along every run, as long as generations do not wrap. -/
theorem ledger_run {limit : Nat} {prompts : Prompts} {log : List Occurrence} {s : Exchange}
    (run : Run (start limit prompts) log s) (few : interrupts log < 2 ^ 64) : Ledger log s := by
  induction run with
  | nil => exact ledger_start limit prompts
  | @snoc log s t o run step ih =>
    have earlier := interrupts_before few
    exact ledger_step step (synced_run run earlier).1 (ih earlier)

/-! ## Deliveries -/

/-- Whatever the order in which lines, interrupts and messages move, and as long as generations do
not wrap: no request's outcome is shown twice, and outcomes are shown in the order of the requests.
A response that is delivered is the worker's one answer to the request with its number. It is
dropped exactly when an interrupt came after that request; otherwise the request is the last one,
the outcome, if there is any to show, is written as it is rendered, and a line is asked for. -/
theorem outcomes_match_requests {limit : Nat} {prompts : Prompts} {log : List Occurrence}
    {s : Exchange} (run : Run (start limit prompts) log s) (few : interrupts log < 2 ^ 64) :
    (shown log).Pairwise (· < ·) ∧
      ∀ n r effects t, Step s (.delivered n r effects) t →
        (∃ g line, (requests log)[n]? = some (g, line) ∧
          replies n log = [(.eval g line, r)]) ∧
        (effects = [] ∧ t.bridge = s.bridge ↔ Interrupted n log) ∧
        (¬ Interrupted n log → n + 1 = (requests log).length ∧
          effects = ((r.outcome.bind Outcome.render).map Effect.write).toList ++
            [.read t.bridge.prompt]) ∧
        ∀ text, Effect.write text ∈ effects →
          n + 1 = (requests log).length ∧ r.outcome.bind Outcome.render = some text := by
  obtain ⟨synced, count⟩ := synced_run run few
  have ledger := ledger_run run few
  refine ⟨(List.pairwise_append.1 ledger.ordered).1, ?_⟩
  intro n r effects t step
  cases step with
  | @delivered n r rest bridge effects head event =>
    obtain ⟨line, asked, only⟩ := ledger.answered n r (by simp [head])
    -- Both sides of the comparison are generations: the response's and the bridge's.
    obtain ⟨-, interrupted⟩ := interrupted_iff run few asked
    rw [← count, ← UInt64.lt_iff_toNat_lt] at interrupted
    refine ⟨⟨_, line, asked, only⟩, ?_⟩
    have result : s.bridge.onResponse r = (bridge, effects) := Except.ok.inj event
    rw [sendAll_bridge, interrupted, ← ledger.dispatched]
    rcases delivery_cases synced head with ⟨older, dropped, _⟩ | ⟨phase, last, _, expected⟩
    · rw [dropped] at result
      cases result
      exact ⟨by simp [older], fun current => absurd older current, by simp⟩
    · have current : ¬ r.generation < s.bridge.generation := by
        rw [expected.generation]
        exact UInt64.lt_irrefl _
      obtain ⟨next, written, _⟩ := onResponse_expected phase expected
      rw [written] at result
      cases result
      refine ⟨by simp [current], fun _ => ⟨last, rfl⟩, ?_⟩
      intro text htext
      refine ⟨last, ?_⟩
      rcases List.mem_append.1 htext with htext | htext
      · obtain ⟨shownText, hrender, same⟩ := Option.map_eq_some_iff.1 (Option.mem_toList.1 htext)
        cases same
        exact hrender
      · simp at htext

/-- An interrupt comes between two requests whose answers are delivered late: the first answer is
dropped and the second is shown. -/
theorem outcomes_match_requests_late :
    ∃ log s t, Run (start 8 .standard) log s ∧ interrupts log < 2 ^ 64 ∧
      (shown log).Pairwise (· < ·) ∧ ¬ Interrupted 1 log ∧
      Step s (.delivered 1 (.finished 1 (.success "7")) [.write "7", .read "> "]) t := by
  have first := Run.nil.snoc (@Step.line (start 8 .standard) ⟨"(+ 1"⟩ _ _ rfl rfl)
  have interrupted := first.snoc (@Step.interrupt _ "SIGINT" _ _ rfl)
  have second := interrupted.snoc (@Step.line _ ⟨"7"⟩ _ _ rfl rfl)
  have held := second.snoc (.handled rfl (LispWorker.handle_of_incomplete _ 0 "(+ 1" rfl))
  have forgotten := held.snoc (.handled rfl rfl)
  have evaluated := forgotten.snoc (.handled rfl (LispWorker.handle_of_complete _ 1 "7" rfl))
  have dropped := evaluated.snoc (.delivered rfl rfl)
  have matched := outcomes_match_requests dropped (by decide)
  refine ⟨_, _, _, dropped, by decide, matched.1, ?_, .delivered rfl rfl⟩
  intro interrupted
  have unseen := ((matched.2 1 _ _ _ (.delivered rfl rfl)).2.1.2 interrupted).1
  exact absurd unseen (List.cons_ne_nil _ _)

end Exchange

end LispRepl

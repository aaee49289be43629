import LispRepl.Proofs.Listener
import LispRepl.Proofs.ThreadLookahead

/-!
# A session does what a listener does

The work of a session is spread over the terminal, the loop, the bridge, two queues and the thread
of the worker, and nothing fixes which of them moves next. For a script of lines alone and a Lisp
worker that is not lost, the order makes no difference: every run ends with the terminal closed or
a command to leave, within a number of moves that the script bounds, and what is then on the
terminal is what a listener puts there (`LiveSession.agrees_with_listener`).

The invariant `LiveSession.Attends` compares a session with the listener that has taken the same
lines. What is on the terminal, with what the answer on its way will put there, and with what the
listener does with the rest of the script, is at all times the whole transcript of the listener.

- `LiveSession.Attends`: the invariant.
- `LiveSession.load`: how much is left to do, which every move that changes anything makes less.
- `LiveSession.attends_move`: the moves keep the invariant and do not go round in circles.
- `LiveSession.moves_of_going`: a session that has not ended has something to do.
- `LiveSession.Advanced`, `LiveSession.agrees_with_listener`: runs, and the result.
-/

set_option autoImplicit false

namespace LispRepl

/-! ## What is shown -/

theorem ScriptedTerminal.transcript_shown {t : ScriptedTerminal} (unarmed : t.armed = false)
    (shown : List String) (prompt : String) :
    (t.seeAll (shown.map Effect.write ++ [.read prompt])).transcript =
      t.transcript ++ (shown.map .output ++ [.prompt prompt]) := by
  induction shown generalizing t with
  | nil =>
    change (t.arm prompt).transcript = _
    rw [arm, unarmed]
    rfl
  | cons text shown ih =>
    change ((t.writeLine text).seeAll (shown.map Effect.write ++ [.read prompt])).transcript = _
    rw [ih (t := t.writeLine text) unarmed, writeLine, record, List.append_assoc]
    rfl

namespace LiveSession

/-- A session over a scripted terminal with the Lisp worker on a thread. -/
abbrev LispSession := LiveSession ScriptedTerminal (Thread LispWorker)

/-- A new thread with a new Lisp worker can always be started. -/
def spawnLisp (limit : Nat) : Nat → Option (Thread LispWorker) :=
  fun _ => some (.new (.new limit))

/-! ## The invariant -/

/-- The session goes on over a script of lines, has lost no worker, and asks with these prompts. -/
structure Going (prompts : Prompts) (rest : List InputLine) (l : Link (Thread LispWorker))
    (s : LispSession) : Prop where
  goes : s.ending = none
  told : s.session.untold = none
  prompts : s.session.bridge.prompts = prompts
  script : s.terminal.script = rest.map .line
  linked : s.link = some l

theorem Going.line_of_script {prompts : Prompts} {rest : List InputLine}
    {l : Link (Thread LispWorker)} {s : LispSession} (going : Going prompts rest l s)
    {step : ScriptStep} {steps : List ScriptStep} (script : s.terminal.script = step :: steps) :
    ∃ line lines, step = .line line ∧ rest = line :: lines ∧ steps = lines.map .line := by
  rw [going.script] at script
  cases rest with
  | nil => cases script
  | cons line lines =>
    cases script
    exact ⟨line, lines, rfl, rfl, rfl⟩

/-- A session against a listener that has taken the same lines, where `whole` is what a listener
puts on the terminal over the whole script. -/
inductive Attends (limit : Nat) (prompts : Prompts) (whole : List Entry) (s : LispSession) :
    Prop where
  /-- A line is awaited, and no answer is on its way. -/
  | awaiting {rest : List InputLine} {link : Link (Thread LispWorker)} {w : LispWorker}
      {listener : Listener} :
    Going prompts rest link s → s.session.bridge.phase = .awaiting → link.Ahead [] w →
    listener.Hears limit s.session.bridge w →
    s.terminal.transcript ++ listener.transcript prompts rest = whole →
    Attends limit prompts whole s
  /-- The one answer on its way is what the listener made of the last line. -/
  | evaluating {rest : List InputLine} {link : Link (Thread LispWorker)} {w : LispWorker}
      {listener : Listener} {r : Response} {shown : List String} {next : Bridge} :
    Going prompts rest link s → s.session.bridge.isEvaluating = true → link.Ahead [r] w →
    listener.Due limit s.session.bridge w r shown next →
    s.terminal.transcript ++ (shown.map .output ++
      .prompt (listener.prompt prompts) :: listener.transcript prompts rest) = whole →
    Attends limit prompts whole s
  | left : s.ending = some .left → s.terminal.transcript = whole → Attends limit prompts whole s

variable {limit : Nat} {prompts : Prompts} {whole : List Entry} {s next : LispSession}
variable {rest : List InputLine} {link : Link (Thread LispWorker)} {w : LispWorker}
variable {listener : Listener}

/-- How much is left to do: to end, to take the lines of the script, and what is left on the
link. -/
def load (s : LispSession) : Nat :=
  (if s.ending = none then 1 else 0) + 4 * s.terminal.script.length +
    (s.link.map Link.load).getD 0

theorem load_react {r : Reaction} (usable : s.terminal.disposed = false) (goes : r.ending = none)
    (linked : s.link = some link) (live : link.service ≠ none) :
    (s.react r).load = 1 + 4 * s.terminal.script.length + link.load +
      3 * (r.effects.filterMap Effect.command?).length := by
  obtain ⟨-, ending⟩ := react_facts usable r
  obtain ⟨terminal, carried⟩ := react_carried usable goes
  rw [load, ending, goes, terminal, carried, linked, ScriptedTerminal.script_seeAll,
    Option.map_some, Option.map_some, Option.getD_some, Link.load_sendAll live]
  change 1 + _ + _ = _
  omega

/-- A session that goes on behind a reaction. -/
theorem going_react (going : Going prompts rest link s) (usable : s.terminal.disposed = false)
    (bridge : Bridge) (same : bridge.prompts = s.session.bridge.prompts) (effects : List Effect) :
    let after := s.react ⟨{ s.session with bridge }, effects, none⟩
    Going prompts rest (link.sendAll (effects.filterMap Effect.command?)) after ∧
      after.session.bridge = bridge ∧
      after.terminal.transcript = (s.terminal.seeAll effects).transcript := by
  obtain ⟨session, ending⟩ := react_facts usable ⟨{ s.session with bridge }, effects, none⟩
  obtain ⟨terminal, carried⟩ := react_carried usable (r := ⟨{ s.session with bridge }, effects, none⟩)
    rfl
  refine ⟨⟨ending, ?_, ?_, ?_, ?_⟩, ?_, ?_⟩
  · rw [session]
    exact going.told
  · rw [session]
    exact same.trans going.prompts
  · rw [terminal, ScriptedTerminal.script_seeAll]
    exact going.script
  · rw [carried, going.linked]
    rfl
  · rw [session]
  · rw [terminal]

/-- A reaction that shows something and then asks for a line. -/
theorem attends_asking (going : Going prompts rest link s) (usable : s.terminal.disposed = false)
    {bridge : Bridge} {effects : List Effect} {shown : List String}
    (same : bridge.prompts = s.session.bridge.prompts) (tidy : bridge.Tidy)
    (awaiting : bridge.phase = .awaiting)
    (ahead : (link.sendAll (effects.filterMap Effect.command?)).Ahead [] w)
    (hears : listener.Hears limit bridge w)
    (shows : (s.terminal.seeAll effects).transcript =
      s.terminal.transcript ++ (shown.map .output ++ [.prompt bridge.prompt]))
    (all : s.terminal.transcript ++ (shown.map .output ++
      .prompt (listener.prompt prompts) :: listener.transcript prompts rest) = whole) :
    (s.react ⟨{ s.session with bridge }, effects, none⟩).Attends limit prompts whole := by
  obtain ⟨goes, now, transcript⟩ := going_react going usable bridge same effects
  have idle : bridge.isEvaluating = false := by rw [Bridge.isEvaluating, awaiting]
  have asked : bridge.prompt = listener.prompt prompts := by
    rw [hears.prompt tidy idle, same, going.prompts]
  rw [← now] at awaiting hears
  refine .awaiting goes awaiting ahead hears ?_
  rw [transcript, shows, ← all, asked, List.append_assoc, List.append_assoc]
  rfl

/-! ## Lines -/

/-- A line that is sent to the worker. -/
theorem attends_accept (going : Going prompts rest link s) (usable : s.terminal.disposed = false)
    (ahead : link.Ahead [] w) (hears : listener.Hears limit s.session.bridge w) (line : String)
    (all : s.terminal.transcript ++
      (((listener.push line).1.bind Outcome.render).toList.map .output ++
        .prompt ((listener.push line).2.prompt prompts) ::
          (listener.push line).2.transcript prompts rest) = whole) :
    (s.react ⟨{ s.session with bridge := s.session.bridge.accept line },
      [.dispatch s.session.bridge.generation line], none⟩).Attends limit prompts whole := by
  obtain ⟨r, after, next, answer, due⟩ := Listener.due_of_push hears line
  have carried := Link.ahead_sendAll ahead [.eval s.session.bridge.generation line] (by simp)
  rw [LispWorker.replies_cons, answer] at carried
  obtain ⟨goes, now, transcript⟩ := going_react going usable (s.session.bridge.accept line) rfl
    [.dispatch s.session.bridge.generation line]
  rw [← now] at due
  refine .evaluating goes ?_ carried due ?_
  · rw [now]
    rfl
  · rw [transcript]
    exact all

/-- A line that is no command is skipped, or it is sent. -/
theorem attends_text {line : InputLine} (going : Going prompts rest link s)
    (usable : s.terminal.disposed = false) (unarmed : s.terminal.armed = false)
    (tidy : s.session.bridge.Tidy) (awaiting : s.session.bridge.phase = .awaiting)
    (ahead : link.Ahead [] w) (hears : listener.Hears limit s.session.bridge w)
    (plain : s.session.bridge.isIdle = true → MetaCommand.ofLine? line.text = none)
    (behind : ∀ {shown : List String} {next : Listener},
      listener.take line = some (shown, next) →
      s.terminal.transcript ++ (shown.map .output ++
        .prompt (next.prompt prompts) :: next.transcript prompts rest) = whole) :
    (s.react (s.session.feed (.line line))).Attends limit prompts whole := by
  have idle : s.session.bridge.isEvaluating = false := by rw [Bridge.isEvaluating, awaiting]
  have empty := hears.isIdle idle
  have took : listener.take line = _ := Listener.take_of_plain (empty ▸ plain)
  by_cases blank : s.session.bridge.pending = "" ∧ line.isBlank = true
  · have skipped : (listener.reader.isEmpty && line.isBlank) = true := by
      rw [← empty, Bridge.isIdle, idle, blank.1, blank.2]
      rfl
    have step : s.session.bridge.step (.line line) =
        .ok (s.session.bridge, [.read s.session.bridge.prompt]) := by
      simp [Bridge.step, Bridge.onLine, idle, blank]
    rw [skipped, if_pos rfl] at took
    rw [Session.feed_of_ok step]
    refine attends_asking going usable rfl tidy awaiting ahead hears ?_ (behind took)
    exact ScriptedTerminal.transcript_shown unarmed [] _
  · have pushed : (listener.reader.isEmpty && line.isBlank) = false := by
      rw [← empty, Bridge.isIdle, idle]
      simpa using blank
    have step : s.session.bridge.step (.line line) =
        .ok (s.session.bridge.accept line.text,
          [.dispatch s.session.bridge.generation line.text]) := by
      simp only [Bridge.step, Bridge.onLine, idle, blank, Bool.false_eq_true, if_false]
    rw [pushed, if_neg Bool.false_ne_true] at took
    rw [Session.feed_of_ok step]
    exact attends_accept going usable ahead hears line.text (behind took)

/-- A line that is taken while one is awaited. -/
theorem attends_line {line : InputLine} (poised : s.session.Poised s.terminal)
    (going : Going prompts (line :: rest) link s) (awaiting : s.session.bridge.phase = .awaiting)
    (ahead : link.Ahead [] w) (hears : listener.Hears limit s.session.bridge w)
    (all : s.terminal.transcript ++ listener.transcript prompts (line :: rest) = whole)
    {terminal : ScriptedTerminal}
    (taken : terminal = ({ s.terminal with script := rest.map .line, armed := false }.record
      (.event (.line line)))) :
    ({ s with terminal }.onEvent (.line line)).Attends limit prompts whole := by
  have usable : terminal.disposed = false := taken ▸ poised.usable
  have unarmed : terminal.armed = false := taken ▸ rfl
  have transcript : terminal.transcript = s.terminal.transcript ++ [.event (.line line)] :=
    taken ▸ rfl
  have goes : Going prompts rest link { s with terminal } :=
    ⟨going.goes, going.told, going.prompts, taken ▸ rfl, going.linked⟩
  have idle : s.session.bridge.isEvaluating = false := by rw [Bridge.isEvaluating, awaiting]
  have empty := hears.isIdle idle
  have behind {shown : List String} {next : Listener}
      (took : listener.take line = some (shown, next)) :
      terminal.transcript ++ (shown.map .output ++
        .prompt (next.prompt prompts) :: next.transcript prompts rest) = whole := by
    rw [← all, Listener.transcript_of_take took, transcript, List.append_assoc]
    rfl
  change ({ s with terminal }.react (s.session.onTerminal (.line line))).Attends limit prompts whole
  have answer := s.session.answer_onTerminal (.line line)
  generalize s.session.onTerminal (.line line) = r at answer ⊢
  cases answer with
  | tell _ untold => cases going.told.symm.trans untold
  | exit _ begun found =>
    have took : listener.take line = none := by
      simp [Listener.take, ← empty, begun, found]
    refine .left rfl ?_
    rw [← all, Listener.transcript_of_left took]
    exact transcript
  | clear _ begun found =>
    have took : listener.take line = some ([], listener) := by
      simp [Listener.take, ← empty, begun, found]
    -- The worker is told, in case it should hold something; it holds nothing.
    have carried := Link.ahead_sendAll ahead [.reset s.session.bridge.abandon.generation] (by simp)
    have step : s.session.bridge.step (.interrupt "clear") =
        .ok (s.session.bridge.abandon, [.reset s.session.bridge.abandon.generation,
          .read s.session.bridge.abandon.prompt]) := rfl
    rw [Session.feed_of_ok step]
    refine attends_asking goes usable rfl (Bridge.tidy_abandon _) rfl carried
      (Listener.hears_abandon hears (empty ▸ begun)) ?_ (behind took)
    exact ScriptedTerminal.transcript_shown unarmed [] _
  | @output _ lines _ begun found =>
    have took : listener.take line = some (lines, listener) := by
      simp [Listener.take, ← empty, begun, found]
    refine attends_asking goes usable rfl poised.tidy awaiting ?_ hears ?_ (behind took)
    · rw [Effect.commands_shown]
      exact ahead
    · exact ScriptedTerminal.transcript_shown unarmed lines _
  | line _ plain =>
    exact attends_text goes usable unarmed poised.tidy awaiting ahead hears plain behind

/-! ## What is left to do -/

theorem load_worker {m : Link (Thread LispWorker)} (linked : s.link = some link)
    (works : Thread.Works link m) : { s with link := some m }.load < s.load := by
  have fewer := Link.load_works works
  simp only [load, linked, Option.map_some, Option.getD_some]
  omega

/-- A line costs less than it was counted for, and so does the end. -/
theorem load_event (usable : s.terminal.disposed = false) (goes : s.ending = none)
    (linked : s.link = some link) (live : link.service ≠ none) {e : TerminalEvent}
    {terminal : ScriptedTerminal} (step : ScriptedTerminal.Polled s.terminal (some e) terminal) :
    ({ s with terminal }.onEvent e).load < s.load := by
  have before : s.load = 1 + 4 * s.terminal.script.length + link.load := by
    rw [load, goes, linked]
    rfl
  have still := (ScriptedTerminal.poll_keeps step).2.trans usable
  change ({ s with terminal }.react (s.session.onTerminal e)).load < _
  cases ends : (s.session.onTerminal e).ending with
  | none =>
    have more : e ≠ .closed := by
      rintro rfl
      cases ends
    have shorter := ScriptedTerminal.script_of_event step more
    have few := s.session.length_commands_onTerminal e
    rw [load_react (s := { s with terminal }) still ends linked live, before]
    change 1 + 4 * terminal.script.length + _ + _ < _
    omega
  | some ending =>
    have shorter : terminal.script.length ≤ s.terminal.script.length := by
      cases step with
      | interrupt script => rw [script]; exact Nat.le_succ _
      | line script => rw [script]; exact Nat.le_succ _
      | closed => exact Nat.le_refl _
    rw [react_over ends, before, load, linked]
    change 0 + 4 * terminal.script.length + link.load < _
    omega

/-! ## Moves -/

/-- The answer to the last line is delivered. -/
theorem attends_answered {r : Response} {shown : List String} {bridge : Bridge}
    (poised : s.session.Poised s.terminal) (going : Going prompts rest link s)
    (evaluating : s.session.bridge.isEvaluating = true) (ahead : link.Ahead [r] w)
    (due : listener.Due limit s.session.bridge w r shown bridge)
    (all : s.terminal.transcript ++ (shown.map .output ++
      .prompt (listener.prompt prompts) :: listener.transcript prompts rest) = whole)
    {given : Response} {later : List Response} (waiting : link.responses = given :: later) :
    s.deliver.Attends limit prompts whole ∧ s.deliver.load < s.load := by
  obtain ⟨others, first, emptied⟩ := Link.ahead_deliver ahead waiting
  obtain ⟨rfl, rfl⟩ := List.cons.inj first
  have step : s.session.bridge.step (.response r) =
      .ok (bridge, shown.map Effect.write ++ [.read bridge.prompt]) := congrArg _ due.step
  have reaction : s.session.onResponse r = _ := Session.feed_of_ok step
  have goes : Going prompts rest { link with responses := later }
      { s with link := some { link with responses := later } } :=
    ⟨going.goes, going.told, going.prompts, going.script, rfl⟩
  rw [deliver_of_waiting going.linked waiting, reaction]
  constructor
  · refine attends_asking goes poised.usable due.prompts ?_ due.awaiting ?_ due.hears ?_ all
    · exact Bridge.tidy_step poised.tidy step
    · rw [Effect.commands_shown]
      exact emptied
    · exact ScriptedTerminal.transcript_shown (poised.unarmed evaluating) shown _
  · have fewer := Link.load_deliver waiting
    rw [load_react (s := { s with link := some { link with responses := later } }) poised.usable rfl
      rfl emptied.live, Effect.commands_shown, load, going.goes, going.linked]
    change 1 + 4 * s.terminal.script.length + Link.load { link with responses := later } + 3 * 0 <
      1 + 4 * s.terminal.script.length + link.load
    omega

/-- An event of the terminal comes while a line is awaited. -/
theorem attends_event (poised : s.session.Poised s.terminal) (goes : s.ending = none)
    (attends : s.Attends limit prompts whole) {e : TerminalEvent} {terminal : ScriptedTerminal}
    (polled : ScriptedTerminal.Polled s.terminal (some e) terminal) :
    ({ s with terminal }.onEvent e).Attends limit prompts whole ∧
      ({ s with terminal }.onEvent e).load < s.load := by
  cases attends with
  | left ended => cases goes.symm.trans ended
  | evaluating going evaluating =>
    -- No read is armed, so that neither a line nor the end of the script can come.
    have unarmed := poised.unarmed evaluating
    cases polled with
    | interrupt script =>
      obtain ⟨line, lines, other, -⟩ := going.line_of_script script
      cases other
    | line _ armed => cases unarmed.symm.trans armed
    | closed _ armed => cases unarmed.symm.trans armed
  | @awaiting rest link w listener going awaiting ahead hears all =>
    refine ⟨?_, load_event poised.usable goes going.linked ahead.live polled⟩
    cases polled with
    | interrupt script =>
      obtain ⟨line, lines, other, -⟩ := going.line_of_script script
      cases other
    | line script armed =>
      obtain ⟨line, lines, same, rfl, rfl⟩ := going.line_of_script script
      cases same
      exact attends_line poised going awaiting ahead hears all rfl
    | closed script armed =>
      rw [going.script] at script
      cases rest with
      | cons line rest => cases script
      | nil => exact .left rfl all

/-- Every move keeps a session with the listener, and changes nothing or leaves less to do. -/
theorem attends_move {spawn : Nat → Option (Thread LispWorker)} (sound : s.Sound)
    (attends : s.Attends limit prompts whole) (move : Move Thread.Works spawn s next) :
    next.Attends limit prompts whole ∧ (next = s ∨ next.load < s.load) := by
  cases move with
  | @worker l m linked works =>
    refine ⟨?_, .inr (load_worker linked works)⟩
    cases attends with
    | awaiting going awaiting ahead hears all =>
      cases linked.symm.trans going.linked
      exact .awaiting ⟨going.goes, going.told, going.prompts, going.script, rfl⟩ awaiting
        (Link.ahead_works works ahead) hears all
    | evaluating going evaluating ahead due all =>
      cases linked.symm.trans going.linked
      exact .evaluating ⟨going.goes, going.told, going.prompts, going.script, rfl⟩ evaluating
        (Link.ahead_works works ahead) due all
    | left ended all => exact .left ended all
  | @pause terminal goes polled =>
    have step := s.terminal.polled
    rw [polled] at step
    cases step with
    | idle => exact ⟨attends, .inl rfl⟩
    | pause script =>
      cases attends with
      | awaiting going =>
        obtain ⟨line, lines, other, -⟩ := going.line_of_script script
        cases other
      | evaluating going =>
        obtain ⟨line, lines, other, -⟩ := going.line_of_script script
        cases other
      | left ended => cases goes.symm.trans ended
  | event goes polled =>
    have step := s.terminal.polled
    rw [polled] at step
    obtain ⟨attends, fewer⟩ := attends_event (sound.1 goes) goes attends step
    exact ⟨attends, .inr fewer⟩
  | deliver goes =>
    rcases deliver_cases s with same | ⟨l, r, rest, linked, waiting⟩
    · rw [same]
      exact ⟨attends, .inl rfl⟩
    · cases attends with
      | awaiting going _ ahead =>
        -- No answer is on its way while a line is awaited.
        cases linked.symm.trans going.linked
        obtain ⟨later, some, -⟩ := Link.ahead_deliver ahead waiting
        cases some
      | evaluating going evaluating ahead due all =>
        cases linked.symm.trans going.linked
        obtain ⟨attends, fewer⟩ :=
          attends_answered (sound.1 goes) going evaluating ahead due all waiting
        exact ⟨attends, .inr fewer⟩
      | left ended => cases goes.symm.trans ended
  | @loss l goes linked lost =>
    cases attends with
    | awaiting going _ ahead =>
      -- A thread that can be looked ahead on is not lost.
      cases linked.symm.trans going.linked
      rw [ahead.not_lost] at lost
      cases lost
    | evaluating going _ ahead =>
      cases linked.symm.trans going.linked
      rw [ahead.not_lost] at lost
      cases lost
    | left ended => cases goes.symm.trans ended

/-- A session that has not ended has something to do. -/
theorem moves_of_going (spawn : Nat → Option (Thread LispWorker))
    (poised : s.session.Poised s.terminal) (goes : s.ending = none)
    (attends : s.Attends limit prompts whole) :
    ∃ t, Move Thread.Works spawn s t ∧ t.load < s.load := by
  cases attends with
  | left ended => cases goes.symm.trans ended
  | @awaiting _ link _ _ going awaiting ahead =>
    have armed : s.terminal.armed = true := by
      rw [poised.armed, Bridge.isEvaluating, awaiting]
      rfl
    cases polled : s.terminal.poll with
    | mk event terminal =>
      have step := s.terminal.polled
      rw [polled] at step
      cases event with
      | some e =>
        exact ⟨_, .event goes polled, load_event poised.usable goes going.linked ahead.live step⟩
      | none =>
        cases step with
        | idle unarmed => cases unarmed.symm.trans armed
        | pause script =>
          obtain ⟨line, lines, other, -⟩ := going.line_of_script script
          cases other
  | @evaluating _ link _ _ _ _ _ going evaluating ahead due all =>
    -- The answer waits to be delivered, or the thread still has to give it.
    cases waiting : link.responses with
    | nil =>
      obtain ⟨m, works⟩ := Link.works_of_ahead ahead waiting
      exact ⟨_, .worker going.linked works, load_worker going.linked works⟩
    | cons given later =>
      have answered := attends_answered poised going evaluating ahead due all waiting
      exact ⟨_, .deliver goes, answered.2⟩

/-! ## Runs -/

/-- A session after so many moves that changed something. Moves that change nothing may have been
made in between. -/
inductive Advanced {σ : Type} (behaves : Link σ → Link σ → Prop) (spawn : Nat → Option σ)
    (first : LiveSession ScriptedTerminal σ) : Nat → LiveSession ScriptedTerminal σ → Prop where
  | start : Advanced behaves spawn first 0 first
  | advance {n : Nat} {s t : LiveSession ScriptedTerminal σ} :
    Advanced behaves spawn first n s → Move behaves spawn s t → t ≠ s →
    Advanced behaves spawn first (n + 1) t

section Advanced

variable {σ : Type} {behaves : Link σ → Link σ → Prop} {spawn : Nat → Option σ}
variable {maxRestarts : Nat} {script : List ScriptStep} {s : LiveSession ScriptedTerminal σ}

theorem reached_of_advanced {n : Nat}
    (run : Advanced behaves spawn
      (LiveSession.start spawn (Session.new prompts maxRestarts) (.new script)) n s) :
    Reached behaves spawn prompts maxRestarts script s := by
  induction run with
  | start => exact .refl
  | advance _ move _ ih => exact ih.tail move

/-- Every session that is reached is reached by moves that change something. -/
theorem advanced_of_reached (reached : Reached behaves spawn prompts maxRestarts script s) :
    ∃ n, Advanced behaves spawn
      (LiveSession.start spawn (Session.new prompts maxRestarts) (.new script)) n s := by
  induction reached with
  | refl => exact ⟨0, .start⟩
  | @tail s t _ move ih =>
    obtain ⟨n, run⟩ := ih
    by_cases same : t = s
    · exact ⟨n, same ▸ run⟩
    · exact ⟨n + 1, run.advance move same⟩

end Advanced

theorem attends_start (limit : Nat) (prompts : Prompts) (maxRestarts : Nat)
    (lines : List InputLine) :
    Attends limit prompts (.prompt prompts.primary :: (Listener.new limit).transcript prompts lines)
      (start (spawnLisp limit) (Session.new prompts maxRestarts) (.new (lines.map .line))) :=
  .awaiting ⟨rfl, rfl, rfl, rfl, rfl⟩ rfl (Link.ahead_new _) (Listener.hears_new limit prompts) rfl

theorem load_start (limit : Nat) (prompts : Prompts) (maxRestarts : Nat) (lines : List InputLine) :
    (start (spawnLisp limit) (Session.new prompts maxRestarts) (.new (lines.map .line))).load =
      4 * lines.length + 1 := by
  change 1 + 4 * (lines.map ScriptStep.line).length + 0 = _
  rw [List.length_map]
  omega

/-- Along a run a session keeps with the listener, and what has been done and what is left to do are
no more than there was. -/
theorem attends_run {maxRestarts : Nat} {lines : List InputLine} {n : Nat}
    (run : Advanced Thread.Works (spawnLisp limit)
      (start (spawnLisp limit) (Session.new prompts maxRestarts) (.new (lines.map .line))) n s) :
    Attends limit prompts (.prompt prompts.primary :: (Listener.new limit).transcript prompts lines)
        s ∧ n + s.load ≤ 4 * lines.length + 1 := by
  -- By the moves: each one that changes something is paid for out of what was left to do.
  induction run with
  | start =>
    refine ⟨attends_start limit prompts maxRestarts lines, ?_⟩
    exact Nat.le_of_eq ((Nat.zero_add _).trans (load_start limit prompts maxRestarts lines))
  | @advance n s t run move moved ih =>
    obtain ⟨attends, bound⟩ := ih
    obtain ⟨attends, same | fewer⟩ :=
      attends_move (sound_reached (reached_of_advanced run)) attends move
    · exact absurd same moved
    · exact ⟨attends, by omega⟩

/-- Over a script of lines, with a Lisp worker on a thread and in whatever order things happen: a
run has at most four moves that change something for each line, and one more. As long as it has not
ended there is such a move, so that it does end. It ends because the script is over or a line leaves
the session, and then the terminal shows what a listener shows: the output of its turns, one prompt
before the first, and one behind each that does not leave the session, in this order. -/
theorem agrees_with_listener (limit : Nat) (prompts : Prompts) (maxRestarts : Nat)
    (lines : List InputLine) (n : Nat) (s : LispSession)
    (run : Advanced Thread.Works (spawnLisp limit)
      (start (spawnLisp limit) (Session.new prompts maxRestarts) (.new (lines.map .line))) n s) :
    n ≤ 4 * lines.length + 1 ∧
      ((s.ending = none ∧ ∃ t, Move Thread.Works (spawnLisp limit) s t ∧ t ≠ s) ∨
        (s.ending = some .left ∧
          s.terminal.transcript =
            .prompt prompts.primary :: (Listener.new limit).transcript prompts lines ∧
          s.terminal.output = ((Listener.new limit).turns prompts lines).flatMap Listener.Turn.shown ∧
          s.terminal.prompts = prompts.primary ::
            ((Listener.new limit).turns prompts lines).filterMap Listener.Turn.asked)) := by
  obtain ⟨attends, bound⟩ := attends_run run
  refine ⟨by omega, ?_⟩
  have sound := sound_reached (reached_of_advanced run)
  cases ended : s.ending with
  | none =>
    obtain ⟨t, move, fewer⟩ := moves_of_going (spawnLisp limit) (sound.1 ended) ended attends
    refine .inl ⟨rfl, t, move, ?_⟩
    rintro rfl
    exact absurd fewer (Nat.lt_irrefl _)
  | some ending =>
    cases attends with
    | awaiting going => cases going.goes.symm.trans ended
    | evaluating going => cases going.goes.symm.trans ended
    | left left all => exact .inr ⟨ended.symm.trans left, all, Listener.shown_of_transcript all⟩

/-- Two lines of which the second is rejected, and the end of the script: as many moves as there may
be. -/
theorem agrees_with_listener_on_rejection :
    ∃ s, Advanced Thread.Works (spawnLisp 8)
        (start (spawnLisp 8) (Session.new .standard 0) (.new ([⟨"("⟩, ⟨"))"⟩].map .line))) 9 s ∧
      s.ending = some .left ∧ s.terminal.output = ["Error: Unexpected ')'"] ∧
      s.terminal.prompts = ["> ", ". ", "> "] := by
  have unlike {s t : LispSession} (fewer : t.load < s.load) : t ≠ s := by
    rintro rfl
    exact absurd fewer (Nat.lt_irrefl _)
  have begun : Advanced Thread.Works (spawnLisp 8)
    (start (spawnLisp 8) (Session.new .standard 0) (.new ([⟨"("⟩, ⟨"))"⟩].map .line))) 0 _ := .start
  have sent := begun.advance (.event rfl rfl) (unlike (by decide))
  have taken := sent.advance (.worker rfl .take) (unlike (by decide))
  have holds := LispWorker.handle_of_incomplete (.new 8) 0 "(" rfl
  have answered := taken.advance (.worker rfl (.answer (Worker.service_of_reply holds)))
    (unlike (by decide))
  have asked := answered.advance (.deliver rfl) (unlike (by decide))
  have again := asked.advance (.event rfl rfl) (unlike (by decide))
  have retaken := again.advance (.worker rfl .take) (unlike (by decide))
  have rejects := LispWorker.handle_of_rejected
    ⟨⟨⟨8, "" ++ "(" ++ "\n", 1, false⟩, .initial⟩, 0, 0, 0⟩ 0 "))" rfl
  have rejected := retaken.advance (.worker rfl (.answer (Worker.service_of_reply rejects)))
    (unlike (by decide))
  have shown := rejected.advance (.deliver rfl) (unlike (by decide))
  have closed := shown.advance (.event (e := .closed) rfl rfl) (unlike (by decide))
  obtain ⟨-, ⟨going, -⟩ | ⟨left, -, output, prompts⟩⟩ :=
    agrees_with_listener 8 .standard 0 _ 9 _ closed
  · cases going
  · refine ⟨_, closed, left, ?_, ?_⟩
    · rw [output]
      decide +kernel
    · rw [prompts]
      decide +kernel

end LiveSession

end LispRepl

import LispRepl.Proofs.LineReading
import LispRepl.Proofs.MessageLines
import LispRepl.Proofs.TextBytes
import LispRepl.Proofs.ThreadLookahead
import LispRepl.Worker.Stdio

/-!
# Commands given as lines

Commands may reach a worker in a process of its own, as the bytes of lines, with lines between them
that mean nothing. Nothing is lost on that way and nothing is added: the worker writes one line for
each request up to the first shutdown, which is read back as the very reply that a worker gives
that is handed the commands themselves (`LispWorker.serve_agrees_with_replies`). What the latter
replies is what `Worker.handle` gives for one command after another.

- `Padded`: lines that hold the written forms of commands, and others that are skipped.
- `Worker.serve_line`, `Worker.serve_noise`, `LispWorker.serve_command`: what one line does.
- `LispWorker.serve_padded`: what a whole input does.
- `LispWorker.replies_requests`, `LispWorker.bufferedLines_of_replies`: the replies.
-/

set_option autoImplicit false

namespace LispRepl

/-- The command asks for a reply. -/
def Command.isEval : Command → Bool
  | .eval _ _ => true
  | _ => false

/-- The commands before the first shutdown. -/
def heard (commands : List Command) : List Command :=
  commands.takeWhile (· != .shutdown)

/-- The lines are the written forms of the commands in order, with lines between them that are blank
or hold no command. -/
inductive Padded : List Command → List String → Prop where
  | nil : Padded [] []
  | noise {commands : List Command} {lines : List String} (line : String)
    (within : '\n' ∉ line.toList)
    (idle : Text.isBlankText line = true ∨ Command.decode? line = none) :
    Padded commands lines → Padded commands (line :: lines)
  | command {commands : List Command} {lines : List String} (c : Command) :
    Padded commands lines → Padded (c :: commands) (c.encode :: lines)

/-! ## One line -/

theorem Command.isBlankText_encode (c : Command) : Text.isBlankText c.encode = false := by
  have brace : ∃ rest, c.encodeChars = '\x7b' :: rest := by
    cases c <;> exact ⟨_, rfl⟩
  obtain ⟨rest, brace⟩ := brace
  rw [Text.isBlankText, encode, String.toList_ofList, brace, List.all_cons]
  rfl

theorem Text.isBlankText_dropReturn {s : String} (h : isBlankText s = true) :
    isBlankText (dropReturn s) = true := by
  rcases dropReturn_cases s with same | split
  · rwa [same]
  · rw [isBlankText, split, List.all_append, Bool.and_eq_true] at h
    exact h.1

/-- A carriage return at the end of a line makes no difference to the command that it holds. -/
theorem Command.decode?_dropReturn (line : String) :
    Command.decode? (Text.dropReturn line) = Command.decode? line := by
  rcases Text.dropReturn_cases line with same | split
  · rw [same]
  · rw [decode?, decode?, split, Text.trimEndChars_append_blank _ rfl]

namespace Worker

variable {β : Type} [Backend β] (w : Worker β)

/-- The first line of an input is answered, and then the rest unless the worker has stopped. -/
theorem serve_line {line : String} (within : '\n' ∉ line.toList) (rest : List UInt8) :
    w.serve (Text.bytes (line ++ "\n") ++ rest) =
      match w.serveLine (Text.dropReturn line) with
      | (responses, none) => (responses.map Response.encode, .finished)
      | (responses, some next) =>
        (responses.map Response.encode ++ (next.serve rest).1, (next.serve rest).2) := by
  rw [serve, Text.splitLines_line within, serveLines, Text.decode?_bytes]
  simp only [String.ofList_toList]
  rcases w.serveLine (Text.dropReturn line) with ⟨responses, _ | next⟩ <;> rfl

theorem serve_noise {line : String} (within : '\n' ∉ line.toList)
    (idle : Text.isBlankText line = true ∨ Command.decode? line = none) (rest : List UInt8) :
    w.serve (Text.bytes (line ++ "\n") ++ rest) = w.serve rest := by
  have skipped : w.serveLine (Text.dropReturn line) = ([], some w) := by
    rw [serveLine]
    split
    · rfl
    · next ink =>
      rcases idle with blank | malformed
      · exact absurd (Text.isBlankText_dropReturn blank) ink
      · rw [Command.decode?_dropReturn, malformed]
  rw [serve_line w within, skipped]
  rfl

theorem serveLine_encode (c : Command) :
    w.serveLine (Text.dropReturn c.encode) = Service.handle w c := by
  have decoded : Command.decode? (c.encode ++ "") = some c := c.decode?_encode rfl
  rw [String.append_empty] at decoded
  rw [Text.dropReturn_eq_self c.staysInLine_encode.2, serveLine, c.isBlankText_encode, decoded]
  rfl

end Worker

namespace LispWorker

/-- A shutdown ends the input, whatever stands behind it. -/
theorem serve_shutdown (w : LispWorker) (rest : List UInt8) :
    w.serve (Text.bytes (Command.shutdown.encode ++ "\n") ++ rest) = ([], .finished) := by
  rw [Worker.serve_line w Command.shutdown.staysInLine_encode.1, Worker.serveLine_encode]
  rfl

/-- Any other command is answered, and then the rest of the input. -/
theorem serve_command (w : LispWorker) {c : Command} (running : c ≠ .shutdown)
    (rest : List UInt8) :
    w.serve (Text.bytes (c.encode ++ "\n") ++ rest) =
      ((w.answer c).1.reply?.toList.map Response.encode ++ ((w.answer c).2.serve rest).1,
        ((w.answer c).2.serve rest).2) := by
  rw [Worker.serve_line w c.staysInLine_encode.1, Worker.serveLine_encode]
  rcases given : Service.handle w c with ⟨responses, _ | next⟩
  · exact absurd (stopped_of_handle given) running
  · obtain ⟨step, answer, rfl⟩ := service_eq_answer given
    rw [answer]

/-! ## Whole inputs -/

/-- What is written for lines that hold commands is what the worker replies to the commands up to
the first shutdown; bytes behind the lines have a say only if there is none. -/
theorem serve_padded {commands : List Command} {lines : List String}
    (padded : Padded commands lines) (w : LispWorker) {rest : List UInt8}
    (last : rest = [] ∨ .shutdown ∈ commands) :
    w.serve (Text.bytes (sourceText lines) ++ rest) =
      ((w.replies (heard commands)).1.map fun a => a.2.encode, .finished) := by
  induction padded generalizing w with
  | nil =>
    obtain rfl : rest = [] := last.resolve_right List.not_mem_nil
    rfl
  | noise line within idle _ ih =>
    rw [sourceText, Text.bytes_append, List.append_assoc, Worker.serve_noise w within idle,
      ih w last]
  | @command commands lines c _ ih =>
    rw [sourceText, Text.bytes_append, List.append_assoc]
    by_cases stop : c = .shutdown
    · -- Nothing more is heard, and nothing more is served.
      subst stop
      rw [serve_shutdown]
      rfl
    · have later : rest = [] ∨ .shutdown ∈ commands :=
        last.imp_right fun member => (List.mem_cons.1 member).resolve_left (Ne.symm stop)
      have more : heard (c :: commands) = c :: heard commands :=
        List.takeWhile_cons_of_pos (bne_iff_ne.2 stop)
      rw [serve_command w stop, ih _ later, more, replies_cons, List.map_append]
      cases (w.answer c).1.reply? <;> rfl

/-! ## The replies -/

/-- Requests are replied to, and nothing else. -/
theorem reply?_isSome (w : LispWorker) (c : Command) :
    (w.answer c).1.reply?.isSome = c.isEval := by
  cases c with
  | eval g line =>
    rcases w.answer_eval_cases g line with ⟨next, answer, -⟩ | ⟨outcome, next, answer, -⟩
    · rw [answer]
      rfl
    · rw [answer]
      rfl
  | reset g => rfl
  | shutdown => rfl

/-- The replies to commands are to the requests among them, in order. -/
theorem replies_requests (w : LispWorker) (commands : List Command) :
    (w.replies commands).1.map Prod.fst = commands.filter Command.isEval := by
  induction commands generalizing w with
  | nil => rfl
  | cons c commands ih =>
    have one := w.reply?_isSome c
    rw [replies_cons, List.map_append, ih, List.filter_cons, ← one]
    cases (w.answer c).1.reply? <;> rfl

/-- One command adds at most one line to those held, and a reply counts no more than these. -/
theorem answer_lines (w : LispWorker) (c : Command) :
    (∀ r ∈ (w.answer c).1.reply?, r.bufferedLines ≤ w.backend.reader.lines + 1) ∧
      (w.answer c).2.backend.reader.lines ≤ w.backend.reader.lines + 1 := by
  cases c with
  | eval g line =>
    have held : (w.readerFor g).lines ≤ w.backend.reader.lines := by
      rw [readerFor]
      split
      · exact Nat.le_refl _
      · exact Nat.zero_le _
    rcases w.answer_eval_cases g line with
      ⟨next, answer, -, -, lines⟩ | ⟨outcome, next, answer, -, cleared⟩
    · have more : next.backend.reader.lines ≤ w.backend.reader.lines + 1 := by
        rw [lines]
        exact Nat.succ_le_succ held
      rw [answer]
      refine ⟨fun r reply => ?_, more⟩
      cases reply
      exact Nat.succ_le_succ held
    · have none : next.backend.reader.lines = 0 := by
        rw [cleared]
        rfl
      rw [answer]
      refine ⟨fun r reply => ?_, none ▸ Nat.zero_le _⟩
      cases reply
      exact Nat.zero_le _
  | reset g =>
    refine ⟨fun r reply => ?_, Nat.zero_le _⟩
    cases reply
  | shutdown =>
    refine ⟨fun r reply => ?_, Nat.le_succ _⟩
    cases reply

/-- A reply counts no more lines than were held at first and have been sent since. -/
theorem bufferedLines_of_replies (w : LispWorker) (commands : List Command) :
    ∀ a ∈ (w.replies commands).1,
      a.2.bufferedLines ≤ w.backend.reader.lines + commands.length := by
  induction commands generalizing w with
  | nil => exact nofun
  | cons c commands ih =>
    intro a member
    obtain ⟨now, next⟩ := w.answer_lines c
    rw [replies_cons, List.mem_append, Option.mem_toList,
      Option.map_eq_some_iff] at member
    rw [List.length_cons]
    rcases member with ⟨r, reply, rfl⟩ | later
    · have := now r reply
      simp only
      omega
    · have := ih _ a later
      omega

/-- A fresh worker whose input is lines that hold the written forms of commands, with blank lines
and lines that are no command anywhere between them, writes one line for each request before the
first shutdown, in order, and finishes. Each of these lines stays one line and is read back as the
reply that a fresh worker gives when it is handed the commands themselves, as long as there are no
more of them than a word can count. Behind a shutdown the input may go on with any bytes. -/
theorem serve_agrees_with_replies (limit : Nat) {commands : List Command} {lines : List String}
    (padded : Padded commands lines) :
    let replies := ((LispWorker.new limit).replies (heard commands)).1
    replies.map Prod.fst = (heard commands).filter Command.isEval ∧
      ∃ written : List String,
        (∀ rest, rest = [] ∨ .shutdown ∈ commands →
          (LispWorker.new limit).serve (Text.bytes (sourceText lines) ++ rest) =
            (written, .finished)) ∧
        written.length = replies.length ∧
        ((heard commands).length < UInt64.size →
          (∀ line ∈ written, Text.StaysInLine line) ∧
            written.map Response.decode? = replies.map fun a => some a.2) := by
  intro replies
  refine ⟨replies_requests _ _, replies.map fun a => a.2.encode,
    fun rest last => serve_padded padded _ last, List.length_map _, fun few => ?_⟩
  have fits : ∀ a ∈ replies, a.2.bufferedLines < UInt64.size := by
    intro a member
    have counted := bufferedLines_of_replies _ _ a member
    have empty : (LispWorker.new limit).backend.reader.lines = 0 := rfl
    omega
  constructor
  · intro line member
    obtain ⟨a, reply, rfl⟩ := List.mem_map.1 member
    exact Response.staysInLine_encode (fits a reply)
  · rw [List.map_map]
    refine List.map_congr_left fun a member => ?_
    have decoded : Response.decode? (a.2.encode ++ "") = some a.2 :=
      Response.decode?_encode (fits a member) rfl
    rwa [String.append_empty] at decoded

/-- An expression over two lines. Between the commands there are a blank line, one that is no JSON and
ends with a carriage return, and an object without a command; a request stands behind the
shutdown. -/
theorem serve_agrees_with_replies_padded :
    let first : Command := .eval 0 "(* 6"
    let second : Command := .eval 0 "7)"
    let behind : Command := .eval 1 "(define x 1)"
    let commands := [first, second, .shutdown, behind]
    let lines := [" ", first.encode, "no command\r", second.encode, "\x7b\x7d",
      Command.shutdown.encode, behind.encode]
    Padded commands lines ∧ (heard commands).length < UInt64.size ∧
      ∃ written : List String,
        (∀ rest, (LispWorker.new 100).serve (Text.bytes (sourceText lines) ++ rest) =
          (written, .finished)) ∧
        written.map Response.decode? =
          [some (.incomplete 0 1), some (.finished 0 (.success "42"))] := by
  intro first second behind commands lines
  have padded : Padded commands lines :=
    .noise _ (by decide) (.inl (by decide)) <| .command _ <|
      .noise _ (by decide) (.inr (by decide +kernel)) <| .command _ <|
      .noise _ (by decide) (.inr (by decide +kernel)) <| .command _ <| .command _ .nil
  have few : (heard commands).length < UInt64.size := by decide +kernel
  have replies : ((LispWorker.new 100).replies (heard commands)).1.map (fun a => some a.2) =
      [some (.incomplete 0 1), some (.finished 0 (.success "42"))] := by
    decide +kernel
  obtain ⟨-, written, served, -, read⟩ := serve_agrees_with_replies 100 padded
  exact ⟨padded, few, written, fun rest => served rest (.inr (by decide)),
    (read few).2.trans replies⟩

end LispWorker

end LispRepl

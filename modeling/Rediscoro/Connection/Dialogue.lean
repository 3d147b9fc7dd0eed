import Rediscoro.Connection.Pushes
import Rediscoro.Pipeline.Accounts
import Rediscoro.Pipeline.Wire

/-! An open connection and the server at its other end.

The server takes the commands off the wire one after another and answers each with a value of its
choice. Octets are under way in both directions, in pieces, and the socket reports what it took of a
write some time after it took it, so an answer may be back before the write it belongs to is reported.
-/

set_option autoImplicit false

namespace Rediscoro.Connection

open Rediscoro.Semantics Rediscoro.Resp3 Rediscoro.Pipeline

variable {σ : Type}

/-- A request that was accepted, with the commands it was built from. -/
structure Question where
  ref : SinkRef
  commands : List Command

namespace Question

def ticket (question : Question) : Ticket := ⟨question.ref, Request.ofCommands question.commands⟩

def words (question : Question) : List (List Bytes) := question.commands.map Command.words

end Question

/-- A command that the server took off the wire, and what it answered. -/
structure Answer where
  words : List Bytes
  value : Sentence

structure Dialogue (σ : Type) extends Line σ where
  asked : List Question := []
  /-- How much the socket took of the buffer in front, if it has not reported it yet. -/
  unreported : Option Nat := none
  /-- The octets that the server has not looked at. -/
  inbox : Bytes := []
  answered : List Answer := []
  /-- The octets of its answers that are not read yet. -/
  outbox : Bytes := []

namespace Dialogue

inductive Turn (σ : Type) where
  | ask (commands : List Command) (sink : σ) (deadline : TimePoint)
  | send (n : Nat)
  | report
  | answer (words : List Bytes) (value : Sentence)
  | read (n : Nat) (memory : Memory)

/-- The octets of some commands. -/
def spoken (commands : List (List Bytes)) : Bytes :=
  (commands.map fun words => (Command.message words).encode).flatten

theorem spoken_append (first second : List (List Bytes)) :
    spoken (first ++ second) = spoken first ++ spoken second := by
  rw [spoken, List.map_append, List.flatten_append]
  rfl

/-- Commands whose octets stand in front of those of others are the first of them. -/
theorem spoken_isPrefix {first all : List (List Bytes)} {rest : Bytes} (front : spoken first ++ rest <+: spoken all) :
    ∃ later, all = first ++ later ∧ rest <+: spoken later := by
  induction first generalizing all with
  | nil => exact ⟨all, rfl, front⟩
  | cons words first ih =>
    obtain ⟨behind, whole⟩ := front
    cases all with
    | nil =>
      simp [spoken, Command.message, Message.encode, Message.sentence, Sentence.encode, header] at whole
    | cons other all =>
      simp only [spoken, List.map_cons, List.flatten_cons, List.append_assoc] at whole
      obtain ⟨rfl, same⟩ := message_append_inj whole
      obtain ⟨later, rfl, within⟩ := @ih all ⟨behind, by rw [List.append_assoc]; exact same⟩
      exact ⟨later, rfl, within⟩

section Model

def start (parser : Parser Buffer View) (limits : Pipeline.Limits) : Dialogue σ :=
  { toLine := Line.start parser limits }

/-- The octets that the socket took and has not reported. -/
def flight (d : Dialogue σ) : Bytes := (d.pipeline.nextWriteBuffer.getD []).take (d.unreported.getD 0)

def values (d : Dialogue σ) : List Sentence := d.answered.map Answer.value

/-- A read finds the colon of every verbatim string, moved or not: no assertion fails. -/
def Sound (d : Dialogue σ) : Turn σ → Prop
  | .read n memory => (d.parser.feed 4096 (d.outbox.take n)).Colons memory
  | _ => True

/-- A read moves no text of the unfinished message. -/
def Calm (d : Dialogue σ) : Turn σ → Prop
  | .read .. => d.parser.Undisturbed 4096
  | _ => True

instance (d : Dialogue σ) (turn : Turn σ) : Decidable (d.Sound turn) :=
  match turn with
  | .read n memory => inferInstanceAs (Decidable ((d.parser.feed 4096 (d.outbox.take n)).Colons memory))
  | .ask .. | .send _ | .report | .answer .. => inferInstanceAs (Decidable True)

instance (d : Dialogue σ) (turn : Turn σ) : Decidable (d.Calm turn) :=
  match turn with
  | .read .. => inferInstanceAs (Decidable (d.parser.Undisturbed 4096))
  | .ask .. | .send _ | .report | .answer .. => inferInstanceAs (Decidable True)

variable [ResponseSink σ Message ErrorInfo] [FloatChars] (fuel : Nat)

/-- `none` where nothing can happen, as on a line that is down, or where the step of the line is refused. -/
def step (d : Dialogue σ) (turn : Turn σ) : Option (Dialogue σ) :=
  if d.down then none
  else
    match turn with
    | .ask commands sink deadline =>
        some { d with
          toLine := d.accept (Request.ofCommands commands) sink deadline
          asked :=
            match d.pipeline.push (Request.ofCommands commands) (d.sinks.alloc sink).1 deadline with
            | none => d.asked
            | some _ => d.asked ++ [⟨(d.sinks.alloc sink).1, commands⟩] }
    | .send n =>
        match d.unreported, d.pipeline.nextWriteBuffer with
        | none, some buffer =>
            if n ≤ buffer.length then some { d with unreported := some n, inbox := d.inbox ++ buffer.take n }
            else none
        | _, _ => none
    | .report =>
        match d.unreported with
        | none => none
        | some n => (d.toLine.step fuel (.wrote n)).map fun line => { d with toLine := line, unreported := none }
    | .answer words value =>
        if (Command.message words).encode <+: d.inbox then
          some { d with
            inbox := d.inbox.drop (Command.message words).encode.length
            answered := d.answered ++ [⟨words, value⟩]
            outbox := d.outbox ++ value.encode }
        else none
    | .read n memory =>
        if 0 < n ∧ n ≤ d.outbox.length ∧ n ≤ (d.parser.input.prepare 4096).available then
          (d.toLine.step fuel (.read (d.outbox.take n) memory)).map fun line =>
            { d with toLine := line, outbox := d.outbox.drop n }
        else none

/-- A request has a command, and its sink is complete after exactly the expected replies. -/
def Turn.Lawful : Turn σ → Prop
  | .ask commands sink _ =>
      commands ≠ [] ∧ expectedReplies sink = commands.length ∧ Counts sink (expectedReplies sink)
  | _ => True

section Cases

variable {fuel} {d next : Dialogue σ} {n : Nat}

theorem up_of_step {turn : Turn σ} (stepped : d.step fuel turn = some next) : d.down = false := by
  unfold step at stepped
  split at stepped
  · cases stepped
  · rename_i up
    exact Bool.not_eq_true _ ▸ up

theorem ask_cases {commands : List Command} {sink : σ} {deadline : TimePoint}
    (stepped : d.step fuel (.ask commands sink deadline) = some next) :
    next = { d with
      toLine := d.accept (Request.ofCommands commands) sink deadline
      asked :=
        match d.pipeline.push (Request.ofCommands commands) (d.sinks.alloc sink).1 deadline with
        | none => d.asked
        | some _ => d.asked ++ [⟨(d.sinks.alloc sink).1, commands⟩] } := by
  unfold step at stepped
  split at stepped
  · cases stepped
  · exact (Option.some.inj stepped).symm

theorem send_cases (stepped : d.step fuel (.send n) = some next) :
    ∃ buffer, d.unreported = none ∧ d.pipeline.nextWriteBuffer = some buffer ∧ n ≤ buffer.length ∧
      next = { d with unreported := some n, inbox := d.inbox ++ buffer.take n } := by
  unfold step at stepped
  split at stepped
  · cases stepped
  dsimp only at stepped
  split at stepped
  · rename_i buffer idle shown
    split at stepped
    · rename_i fits
      exact ⟨buffer, idle, shown, fits, (Option.some.inj stepped).symm⟩
    · cases stepped
  · cases stepped

theorem report_cases (stepped : d.step fuel .report = some next) :
    ∃ n line, d.unreported = some n ∧ d.toLine.step fuel (.wrote n) = some line ∧
      next = { d with toLine := line, unreported := none } := by
  unfold step at stepped
  split at stepped
  · cases stepped
  dsimp only at stepped
  split at stepped
  · cases stepped
  · rename_i n taken
    obtain ⟨line, reported, rfl⟩ := Option.map_eq_some_iff.mp stepped
    exact ⟨n, line, taken, reported, rfl⟩

theorem answer_cases {words : List Bytes} {value : Sentence} (stepped : d.step fuel (.answer words value) = some next) :
    (Command.message words).encode <+: d.inbox ∧
      next = { d with
        inbox := d.inbox.drop (Command.message words).encode.length
        answered := d.answered ++ [⟨words, value⟩]
        outbox := d.outbox ++ value.encode } := by
  unfold step at stepped
  split at stepped
  · cases stepped
  dsimp only at stepped
  split at stepped
  · rename_i front
    exact ⟨front, (Option.some.inj stepped).symm⟩
  · cases stepped

theorem read_cases {memory : Memory} (stepped : d.step fuel (.read n memory) = some next) :
    ∃ line, n ≤ d.outbox.length ∧ n ≤ (d.parser.input.prepare 4096).available ∧ d.outbox.take n ≠ [] ∧
      d.toLine.receive fuel memory (d.outbox.take n) = some line ∧
      next = { d with toLine := line, outbox := d.outbox.drop n } := by
  unfold step at stepped
  split at stepped
  · cases stepped
  dsimp only at stepped
  split at stepped
  · rename_i allowed
    obtain ⟨line, received, rfl⟩ := Option.map_eq_some_iff.mp stepped
    refine ⟨line, allowed.2.1, allowed.2.2, ?_, received, rfl⟩
    apply List.ne_nil_of_length_pos
    rw [List.length_take]
    omega
  · cases stepped

end Cases

end Model

/-! The octets in both directions. -/

theorem wire_pos {commands : List Command} (some : commands ≠ []) : 0 < (Request.ofCommands commands).wire.length := by
  obtain ⟨command, rest, rfl⟩ := List.exists_cons_of_ne_nil some
  rw [Request.ofCommands_wire, List.map_cons, List.flatten_cons, List.length_append]
  simp [Command.message, Message.encode, Message.sentence, Sentence.encode, header]

/-- The wires of the questions are the octets of their commands. -/
theorem wires_questions (questions : List Question) :
    wires (questions.map Question.ticket) = spoken (questions.flatMap Question.words) := by
  induction questions with
  | nil => rfl
  | cons question rest ih =>
    rw [List.flatMap_cons, spoken_append, ← ih, wires, wires, List.map_cons, List.flatMap_cons]
    simp only [Question.ticket, Request.ofCommands_wire, spoken, Question.words, List.map_map]
    rfl

/-- The request in front is written to its end, or to somewhere in it. -/
theorem onWriteDone_front {p q : Pipeline} {n : Nat} (done : p.onWriteDone n = some q) :
    ∃ front rest, p.pendingWrite = front :: rest ∧
      (front.written + n = front.req.wire.length ∧ q.pendingWrite = rest ∨
        front.written + n < front.req.wire.length ∧ ∃ item : PendingItem, q.pendingWrite = item :: rest ∧
          item.ticket = front.ticket ∧ item.written = front.written + n) := by
  unfold onWriteDone at done
  split at done
  · cases done
  · rename_i front rest queue
    refine ⟨front, rest, queue, ?_⟩
    split at done
    · rename_i fits
      have within := front.written_le
      split at done
      · rename_i whole
        cases done
        exact .inl ⟨whole, rfl⟩
      · rename_i part
        cases done
        exact .inr ⟨by omega, _, rfl, rfl, rfl⟩
    · cases done

/-- What the socket took are the beginnings of the accepted requests, and what the server has answered and not
looked at are the same octets; what was read and not read are those of the answers. -/
structure Books (d : Dialogue σ) : Prop where
  tickets : d.tickets = d.asked.map Question.ticket
  posed : ∀ question ∈ d.asked, question.commands ≠ []
  sent : ∃ earlier, d.tickets = earlier ++ d.pipeline.pendingWrite.map PendingItem.ticket ∧
    spoken (d.answered.map Answer.words) ++ d.inbox = wires earlier ++ begun d.pipeline.pendingWrite ++ d.flight
  reports : ∀ n, d.unreported = some n → ∃ buffer, d.pipeline.nextWriteBuffer = some buffer ∧ n ≤ buffer.length
  unbegun : ∀ item ∈ d.pipeline.pendingWrite.tail, item.written = 0
  unfinished : ∀ item ∈ d.pipeline.pendingWrite, item.written < item.req.wire.length
  heard : d.heard ++ d.outbox = Sentence.encodeAll d.values

namespace Books

variable {d next : Dialogue σ}

theorem start (parser : Parser Buffer View) (limits : Pipeline.Limits) :
    Books (Dialogue.start parser limits : Dialogue σ) where
  tickets := rfl
  posed := List.forall_mem_nil _
  sent := ⟨[], rfl, rfl⟩
  reports := by simp [Dialogue.start]
  unbegun := List.forall_mem_nil _
  unfinished := List.forall_mem_nil _
  heard := rfl

/-- The commands answered are the first of those asked. -/
theorem answered_first (books : Books d) :
    ∃ later, d.asked.flatMap Question.words = d.answered.map Answer.words ++ later ∧ d.inbox <+: spoken later := by
  obtain ⟨earlier, tickets, sent⟩ := books.sent
  apply spoken_isPrefix
  rw [sent, ← wires_questions, ← books.tickets, tickets, wires, wires, List.flatMap_append, List.append_assoc]
  apply (List.prefix_append_right_inj _).mpr
  cases queue : d.pipeline.pendingWrite with
  | nil => simp [begun, flight, nextWriteBuffer, queue]
  | cons front rest =>
    simp only [begun, flight, nextWriteBuffer, queue, List.head?_cons, Option.map_some, Option.getD_some,
      PendingItem.unwritten, ← List.take_add, List.map_cons, List.flatMap_cons]
    exact (List.take_prefix _ _).trans (List.prefix_append _ _)

/-- A read leaves the write queue alone. -/
theorem read (books : Books d) {line : Line σ} {n : Nat} (tickets : line.tickets = d.tickets)
    (queue : line.pipeline.pendingWrite = d.pipeline.pendingWrite) (heard : line.heard = d.heard ++ d.outbox.take n) :
    Books { d with toLine := line, outbox := d.outbox.drop n } where
  tickets := tickets.trans books.tickets
  posed := books.posed
  sent := by
    have same : flight { d with toLine := line, outbox := d.outbox.drop n } = d.flight := by
      simp only [flight, nextWriteBuffer, queue]
    rw [same, tickets, queue]
    exact books.sent
  reports := by
    simp only [nextWriteBuffer, queue]
    exact books.reports
  unbegun := by
    rw [queue]
    exact books.unbegun
  unfinished := by
    rw [queue]
    exact books.unfinished
  heard := by
    dsimp only
    rw [heard, List.append_assoc, List.take_append_drop]
    exact books.heard

theorem ask (books : Books d) {commands : List Command} {ref : SinkRef} {deadline : TimePoint} {line : Line σ}
    (some : commands ≠ []) (tickets : line.tickets = d.tickets ++ [⟨ref, Request.ofCommands commands⟩])
    (queue : line.pipeline.pendingWrite =
      d.pipeline.pendingWrite ++ [.unsent (Request.ofCommands commands) ref deadline]) (heard : line.heard = d.heard) :
    Books { d with toLine := line, asked := d.asked ++ [⟨ref, commands⟩] } where
  tickets := by
    dsimp only
    rw [tickets, books.tickets, List.map_append]
    rfl
  posed := List.forall_mem_append.mpr ⟨books.posed, List.forall_mem_singleton.mpr some⟩
  sent := by
    obtain ⟨earlier, before, sent⟩ := books.sent
    refine ⟨earlier, ?_, ?_⟩
    · dsimp only
      rw [tickets, queue, before, List.map_append, List.append_assoc]
      rfl
    · -- the new request is behind the one that is being written, if there is one
      have same : flight { d with toLine := line, asked := d.asked ++ [⟨ref, commands⟩] } = d.flight := by
        cases front : d.pipeline.pendingWrite with
        | cons front rest => simp [flight, nextWriteBuffer, queue, front]
        | nil =>
          cases unreported : d.unreported with
          | none => simp [flight, unreported]
          | some n =>
            obtain ⟨buffer, shown, -⟩ := books.reports n unreported
            simp [nextWriteBuffer, front] at shown
      dsimp only
      rw [same, queue, begun_concat]
      exact sent
  reports := by
    intro n unreported
    obtain ⟨buffer, shown, fits⟩ := books.reports n unreported
    refine ⟨buffer, ?_, fits⟩
    cases front : d.pipeline.pendingWrite with
    | cons front rest => simpa [nextWriteBuffer, queue, front] using shown
    | nil => simp [nextWriteBuffer, front] at shown
  unbegun := by
    dsimp only
    rw [queue]
    exact unbegun_concat books.unbegun _ _ _
  unfinished := by
    dsimp only
    rw [queue]
    refine List.forall_mem_append.mpr ⟨books.unfinished, List.forall_mem_singleton.mpr ?_⟩
    exact wire_pos some
  heard := by
    dsimp only
    rw [heard]
    exact books.heard

theorem send (books : Books d) {n : Nat} {buffer : Bytes} (idle : d.unreported = none)
    (shown : d.pipeline.nextWriteBuffer = some buffer) (fits : n ≤ buffer.length) :
    Books { d with unreported := some n, inbox := d.inbox ++ buffer.take n } where
  tickets := books.tickets
  posed := books.posed
  sent := by
    obtain ⟨earlier, tickets, sent⟩ := books.sent
    refine ⟨earlier, tickets, ?_⟩
    have none : d.flight = [] := by simp [flight, idle]
    have taken : flight { d with unreported := some n, inbox := d.inbox ++ buffer.take n } = buffer.take n := by
      simp [flight, shown]
    rw [none, List.append_nil] at sent
    rw [taken, ← List.append_assoc, sent]
  reports := by
    intro m same
    cases same
    exact ⟨buffer, shown, fits⟩
  unbegun := books.unbegun
  unfinished := books.unfinished
  heard := books.heard

/-- What is reported was taken before. -/
theorem report (books : Books d) {n : Nat} {pipeline : Pipeline} (taken : d.unreported = some n)
    (done : d.pipeline.onWriteDone n = some pipeline) :
    Books { d with toLine := { d.toLine with pipeline := pipeline }, unreported := none } := by
  obtain ⟨front, rest, queue, outcome⟩ := onWriteDone_front done
  obtain ⟨earlier, tickets, sent⟩ := books.sent
  have unbegun := books.unbegun
  have unfinished := books.unfinished
  have flying : d.flight = front.unwritten.take n := by simp [flight, nextWriteBuffer, queue, taken]
  rw [flying, queue, begun, PendingItem.unwritten, List.append_assoc, ← List.take_add] at sent
  rw [queue, List.map_cons] at tickets
  rw [queue, List.tail_cons] at unbegun
  rw [queue, List.forall_mem_cons] at unfinished
  -- what was in flight becomes part of what is begun, or ends the request in front
  rcases outcome with ⟨whole, later⟩ | ⟨part, item, later, ticket, written⟩
  · rw [whole, List.take_length] at sent
    have none : begun rest = [] := by
      cases rest with
      | nil => rfl
      | cons second others => simp [begun, unbegun second List.mem_cons_self]
    refine ⟨books.tickets, books.posed, ⟨earlier ++ [front.ticket], ?_, ?_⟩, by simp, ?_, ?_, books.heard⟩
    · rw [later, List.append_assoc]
      exact tickets
    · rw [later, none, sent, wires, wires, List.flatMap_append]
      simp [flight, PendingItem.ticket]
    · rw [later]
      exact fun other member => unbegun other (List.mem_of_mem_tail member)
    · rw [later]
      exact unfinished.2
  · have same : item.req = front.req := congrArg Ticket.request ticket
    refine ⟨books.tickets, books.posed, ⟨earlier, ?_, ?_⟩, by simp, ?_, ?_, books.heard⟩
    · rw [later, List.map_cons, ticket]
      exact tickets
    · rw [later, begun, same, written, sent]
      simp [flight]
    · rw [later]
      exact unbegun
    · rw [later]
      refine List.forall_mem_cons.mpr ⟨?_, unfinished.2⟩
      rw [written, same]
      exact part

theorem answer (books : Books d) {words : List Bytes} (front : (Command.message words).encode <+: d.inbox)
    (value : Sentence) :
    Books { d with
      inbox := d.inbox.drop (Command.message words).encode.length
      answered := d.answered ++ [⟨words, value⟩]
      outbox := d.outbox ++ value.encode } where
  tickets := books.tickets
  posed := books.posed
  sent := by
    obtain ⟨earlier, tickets, sent⟩ := books.sent
    refine ⟨earlier, tickets, ?_⟩
    obtain ⟨rest, same⟩ := front
    dsimp only
    rw [← same, List.drop_left, List.map_append, spoken_append, List.append_assoc]
    rw [← same] at sent
    simpa [spoken, flight] using sent
  reports := books.reports
  unbegun := books.unbegun
  unfinished := books.unfinished
  heard := by
    have before := books.heard
    dsimp only [values] at before ⊢
    rw [← List.append_assoc, before, List.map_append, Sentence.encodeAll_append]
    simp [Sentence.encodeAll]

end Books

section Steps

variable [ResponseSink σ Message ErrorInfo] [FloatChars] {fuel : Nat}

theorem Books.step {d next : Dialogue σ} {turn : Turn σ} (books : Books d) (lawful : turn.Lawful)
    (stepped : d.step fuel turn = some next) : Books next := by
  cases turn with
  | ask commands sink deadline =>
    obtain rfl := ask_cases stepped
    unfold Line.accept
    cases pushed : d.pipeline.push (Request.ofCommands commands) (d.sinks.alloc sink).1 deadline with
    | none => exact books
    | some pipeline =>
      have queue := congrArg pendingWrite (push_eq_some pushed)
      exact books.ask lawful.1 rfl queue rfl
  | send n =>
    obtain ⟨buffer, idle, shown, fits, rfl⟩ := send_cases stepped
    exact books.send idle shown fits
  | report =>
    obtain ⟨n, line, taken, reported, rfl⟩ := report_cases stepped
    obtain ⟨pipeline, done, rfl⟩ := Option.map_eq_some_iff.mp reported
    exact books.report taken done
  | answer words value =>
    obtain ⟨front, rfl⟩ := answer_cases stepped
    exact books.answer front value
  | read n memory =>
    obtain ⟨line, -, -, -, received, rfl⟩ := read_cases stepped
    obtain ⟨tickets, queue, heard⟩ := Line.receive_keeps received
    exact books.read tickets queue heard

end Steps

/-! What the connection has understood. -/

/-- Answers that are well-formed values, none of them a push, and built with so much fuel. -/
structure Honest [FloatChars] (fuel : Nat) (limits : Resp3.Limits) (values : List Sentence) : Prop where
  formed : ∀ value ∈ values, value.WellFormed limits
  small : ∀ value ∈ values, value.encode.length < 2 ^ 32
  short : (Sentence.encodeAll values).length ≤ Buffer.sizeMax
  built : ∀ value ∈ values, value.builtIn fuel = true
  solicited : ∀ value ∈ values, value.meaning.isPush = false

section Talks

variable [FloatChars] {still : Prop} {fuel : Nat} {limits : Resp3.Limits} {values others : List Sentence}

theorem Honest.isPrefix (honest : Honest fuel limits values) (front : others <+: values) :
    Honest fuel limits others where
  formed value member := honest.formed value (front.subset member)
  small value member := honest.small value (front.subset member)
  short := by
    rw [List.prefix_iff_eq_take.mp front]
    exact (Sentence.encodeAll_take_isPrefix values _).length_le.trans honest.short
  built value member := honest.built value (front.subset member)
  solicited value member := honest.solicited value (front.subset member)

theorem Honest.stream {parser : Parser Buffer View} (honest : Honest fuel parser.limits values) :
    Parser.Stream fuel (parser.reset.copy .zeroed) values :=
  Line.stream_reset honest.formed honest.small honest.short honest.built

variable [ResponseSink σ Message ErrorInfo]

omit [FloatChars] [ResponseSink σ Message ErrorInfo] in
/-- No push is kept apart from where there is none. -/
theorem apart_of_solicited (solicited : ∀ value ∈ values, value.meaning.isPush = false) (line : Line σ)
    (event : Line.Event σ) : line.Apart values event := by
  cases event with
  | enqueue | wrote => trivial
  | read octets memory =>
    intro k inside push
    rw [List.getElem?_eq_getElem inside, Option.map_some, solicited _ (List.getElem_mem inside)] at push
    cases push

omit [FloatChars] in
/-- More answers behind those that are known change nothing. -/
theorem served_more {line : Line σ} {n : Nat} (served : line.Served still fuel values n) (more : List Sentence) :
    line.Served still fuel (values ++ more) n := by
  obtain ⟨ordered, within, solicited, delivered⟩ := served
  have same : (values ++ more).take n = values.take n := List.take_append_of_le_length within
  refine ⟨ordered, by rw [List.length_append]; omega, ?_, ?_⟩
  · rw [same]
    exact solicited
  · rw [same]
    exact delivered

theorem running_more {line : Line σ} {first : Parser Bytes Text} {n : Nat}
    (running : line.Running still fuel first values n) (more : List Sentence) :
    line.Running still fuel first (values ++ more) n := by
  refine ⟨served_more running.toServed more, running.up, ?_⟩
  rw [List.take_append_of_le_length running.within]
  exact running.held

omit [FloatChars] [ResponseSink σ Message ErrorInfo] in
/-- Octets that wait can be read as far as there is room. -/
theorem legal_read {d : Dialogue σ} {n : Nat} (room : n ≤ (d.parser.input.prepare 4096).available) (memory : Memory) :
    d.toLine.Legal (.read (d.outbox.take n) memory) := by
  show (d.outbox.take n).length ≤ _
  rw [List.length_take]
  omega

/-- The line has understood the answers that it has read. -/
def Understands (still : Prop) (fuel : Nat) (parser : Parser Buffer View) (d : Dialogue σ) : Prop :=
  ∃ n, d.toLine.Served still fuel d.values n ∧
    (d.down = false → d.toLine.Running still fuel (parser.reset.copy .zeroed) d.values n)

variable {parser : Parser Buffer View} {d next : Dialogue σ}

theorem understands_start (still : Prop) (fuel : Nat) (parser : Parser Buffer View) (limits : Pipeline.Limits) :
    Understands still fuel parser (start parser limits : Dialogue σ) := by
  have running := Line.start_running (σ := σ) still fuel parser [] limits
  exact ⟨0, running.toServed, fun _ => running⟩

section Steps

variable (books : Books d) (understands : Understands still fuel parser d)
  (honest : Honest fuel parser.limits d.values) (up : d.down = false)

include books understands honest up in
/-- An event of the line. -/
theorem understands_event {event : Line.Event σ} (lawful : event.Lawful) (legal : d.toLine.Legal event)
    (sound : d.toLine.Sound event) (calm : still → d.toLine.Calm event) (offered : event.octets <+: d.outbox) :
    ∃ line n, d.toLine.step fuel event = some line ∧ line.Served still fuel d.values n ∧
      (line.down = false → line.Running still fuel (parser.reset.copy .zeroed) d.values n) := by
  obtain ⟨n, -, running⟩ := understands
  have arrives : d.heard ++ event.octets <+: Sentence.encodeAll d.values := by
    rw [← books.heard]
    exact (List.prefix_append_right_inj _).mpr offered
  obtain ⟨line, n', stepped, served, onward⟩ := (running up).event honest.stream lawful legal sound
    (apart_of_solicited honest.solicited _ _) calm arrives
  exact ⟨line, n', stepped, served, fun alive => (onward alive).2⟩

include books understands honest up in
/-- An event of the line in which nothing is read. -/
theorem understands_silent {event : Line.Event σ} (lawful : event.Lawful) (legal : d.toLine.Legal event)
    (silent : event.octets = []) (sound : d.toLine.Sound event) (calm : d.toLine.Calm event) :
    ∃ line n, d.toLine.step fuel event = some line ∧ line.Served still fuel d.values n ∧
      (line.down = false → line.Running still fuel (parser.reset.copy .zeroed) d.values n) :=
  understands_event books understands honest up lawful legal sound (fun _ => calm)
    (by rw [silent]; exact List.nil_prefix)

omit up in
include books understands honest in
theorem understands_step {turn : Turn σ} (lawful : turn.Lawful) (sound : d.Sound turn) (calm : still → d.Calm turn)
    (stepped : d.step fuel turn = some next) : Understands still fuel parser next := by
  have up := up_of_step stepped
  cases turn with
  | ask commands sink deadline =>
    obtain rfl := ask_cases stepped
    obtain ⟨some, expected, counts⟩ := lawful
    have replies : (Request.ofCommands commands).replyCount = commands.length :=
      Request.ofCommands_commandCount commands
    have lawful : (Line.Event.enqueue (Request.ofCommands commands) sink deadline).Lawful := by
      refine ⟨?_, expected.trans replies.symm, counts⟩
      rw [replies]
      exact List.length_pos_iff.mpr some
    obtain ⟨line, n, same, understood⟩ :=
      understands_silent books understands honest up lawful trivial rfl trivial trivial
    cases same
    exact ⟨n, understood⟩
  | send n =>
    obtain ⟨buffer, -, -, -, rfl⟩ := send_cases stepped
    exact understands
  | report =>
    obtain ⟨n, line, taken, reported, rfl⟩ := report_cases stepped
    obtain ⟨buffer, shown, fits⟩ := books.reports n taken
    have lawful : (Line.Event.wrote n : Line.Event σ).Lawful := trivial
    obtain ⟨line', m, same, understood⟩ :=
      understands_silent books understands honest up lawful ⟨buffer, shown, fits⟩ rfl trivial trivial
    rw [reported] at same
    cases same
    exact ⟨m, understood⟩
  | answer words value =>
    -- one more value is on its way, and the line has not heard of it
    obtain ⟨-, rfl⟩ := answer_cases stepped
    obtain ⟨n, served, running⟩ := understands
    refine ⟨n, ?_, fun up => ?_⟩
    · rw [Dialogue.values, List.map_append]
      exact served_more served _
    · rw [Dialogue.values, List.map_append]
      exact running_more (running up) _
  | read n memory =>
    obtain ⟨line, -, room, -, received, rfl⟩ := read_cases stepped
    have lawful : (Line.Event.read (d.outbox.take n) memory : Line.Event σ).Lawful := trivial
    obtain ⟨line', k, same, understood⟩ := understands_event books understands honest up lawful
      (legal_read room memory) sound calm (List.take_prefix n d.outbox)
    rw [Line.step, received] at same
    cases same
    exact ⟨k, understood⟩

end Steps

end Talks

end Dialogue

end Rediscoro.Connection

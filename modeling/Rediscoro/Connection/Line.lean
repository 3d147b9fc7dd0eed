import Rediscoro.Connection.Hearing
import Rediscoro.Connection.Traffic
import Rediscoro.Pipeline.Delivery

/-! The line of an open connection.

A line is what `enqueue`, `do_write` and `do_read` work on while the connection is open. Its
deliveries go to the requests in order of acceptance, and there are no more of them than commands
of requests that are reported to be written.
-/

set_option autoImplicit false

namespace Rediscoro.Connection

open Rediscoro.Semantics Rediscoro.Resp3 Rediscoro.Pipeline

variable {σ : Type}

structure Line (σ : Type) extends Exchange σ where
  /-- The requests that were accepted, in order. -/
  tickets : List Ticket := []
  /-- The octets that were read. -/
  heard : Bytes := []
  /-- `handle_error` was called. -/
  down : Bool := false

namespace Line

inductive Event (σ : Type) where
  | enqueue (req : Request) (sink : σ) (deadline : TimePoint)
  | wrote (n : Nat)
  /-- The octets of a read, and what is found through the views whose storage is gone by then. -/
  | read (octets : Bytes) (memory : Memory)

def Event.octets : Event σ → Bytes
  | .read octets _ => octets
  | _ => []

/-- What has arrived in these events. -/
def received (events : List (Event σ)) : Bytes := events.flatMap Event.octets

theorem received_cons (event : Event σ) (rest : List (Event σ)) :
    received (event :: rest) = event.octets ++ received rest := List.flatMap_cons

/-- A connection that was just opened: the parser was reset, and nothing is queued. -/
def start (parser : Parser Buffer View) (limits : Pipeline.Limits) : Line σ :=
  { parser := parser.reset, pipeline := { limits := limits }, sinks := {} }

/-- The owners of the commands, in order of acceptance. -/
def owners (line : Line σ) : List SinkRef := line.tickets.flatMap Ticket.claims

variable [ResponseSink σ Message ErrorInfo]

/-- A request that is refused is answered by `enqueue` itself and leaves the line alone. -/
def accept (line : Line σ) (req : Request) (sink : σ) (deadline : TimePoint) : Line σ :=
  match line.pipeline.push req (line.sinks.alloc sink).1 deadline with
  | none => line
  | some pipeline =>
      { line with
        pipeline := pipeline
        sinks := (line.sinks.alloc sink).2
        tickets := line.tickets ++ [⟨(line.sinks.alloc sink).1, req⟩] }

variable [FloatChars] (fuel : Nat)

/-- `do_read`: the room was prepared before anything else happened to the parser. -/
def receive (line : Line σ) (memory : Memory) (octets : Bytes) : Option (Line σ) :=
  if octets = [] then some { line with down := true }
  else
    match Exchange.dispatch fuel memory (fun _ => false)
        ⟨line.parser.feed 4096 octets, line.pipeline, line.sinks⟩ with
    | (.faulty, _) => none
    | (.invalid _, x) | (.unsolicited, x) =>
        some { line with toExchange := x, heard := line.heard ++ octets, down := true }
    | (.starved, x) | (.complete, x) => some { line with toExchange := x, heard := line.heard ++ octets }

/-- `none` where an assertion fails or a message cannot be built. -/
def step (line : Line σ) : Event σ → Option (Line σ)
  | .enqueue req sink deadline => some (line.accept req sink deadline)
  | .wrote n => (line.pipeline.onWriteDone n).map fun pipeline => { line with pipeline := pipeline }
  | .read octets memory => line.receive fuel memory octets

/-- A read of the connection is one of its line. -/
theorem receive_consume {ρ : Type} (s : System ρ) (memory : Memory) (octets : Bytes) :
    { s with parser := s.nextRead.1 }.consume fuel memory octets (fun _ => false) =
      Exchange.dispatch fuel memory (fun _ => false) ⟨s.parser.feed 4096 octets, s.pipeline, s.sinks⟩ := rfl

/-- A read leaves the requests that are being written alone. -/
theorem receive_keeps {fuel : Nat} {line next : Line σ} {memory : Memory} {octets : Bytes}
    (received : line.receive fuel memory octets = some next) :
    next.tickets = line.tickets ∧ next.pipeline.pendingWrite = line.pipeline.pendingWrite ∧
      next.heard = line.heard ++ octets := by
  have answered := Exchange.dispatch_answered fuel memory (fun _ => false)
    (⟨line.parser.feed 4096 octets, line.pipeline, line.sinks⟩ : Exchange σ)
  unfold receive at received
  split at received
  · rename_i closed
    cases received
    exact ⟨rfl, rfl, by rw [closed, List.append_nil]⟩
  · split at received
    · cases received
    all_goals
      rename_i dispatched
      rw [dispatched] at answered
      cases received
      exact ⟨rfl, answered.pendingWrite, rfl⟩

/-! What can happen to a line. -/

/-- The event can happen: a write reports what it was given, and a read what there was room for. -/
def Legal (line : Line σ) : Event σ → Prop
  | .enqueue .. => True
  | .wrote n => ∃ buffer ∈ line.pipeline.nextWriteBuffer, n ≤ buffer.length
  | .read octets _ => octets.length ≤ (line.parser.input.prepare 4096).available

/-- A read finds the colon of every verbatim string, moved or not: no assertion fails. -/
def Sound (line : Line σ) : Event σ → Prop
  | .read octets memory => (line.parser.feed 4096 octets).Colons memory
  | _ => True

/-- A read moves no text of the unfinished message. -/
def Calm (line : Line σ) : Event σ → Prop
  | .read .. => line.parser.Undisturbed 4096
  | _ => True

instance (line : Line σ) (event : Event σ) : Decidable (line.Legal event) :=
  match event with
  | .enqueue .. => inferInstanceAs (Decidable True)
  | .wrote _ => inferInstanceAs (Decidable (∃ buffer ∈ _, _))
  | .read .. => inferInstanceAs (Decidable (_ ≤ _))

instance (line : Line σ) (event : Event σ) : Decidable (line.Sound event) :=
  match event with
  | .enqueue .. | .wrote _ => inferInstanceAs (Decidable True)
  | .read octets memory => inferInstanceAs (Decidable ((line.parser.feed 4096 octets).Colons memory))

instance (line : Line σ) (event : Event σ) : Decidable (line.Calm event) :=
  match event with
  | .enqueue .. | .wrote _ => inferInstanceAs (Decidable True)
  | .read .. => inferInstanceAs (Decidable (line.parser.Undisturbed 4096))

/-- A request has a command, and its sink is complete after exactly the expected replies. -/
def Event.Lawful : Event σ → Prop
  | .enqueue req sink _ =>
      0 < req.replyCount ∧ expectedReplies sink = req.replyCount ∧ Counts sink (expectedReplies sink)
  | _ => True

/-! The requests of a line, as a desk sees them. -/

/-- The deliveries so far went to the accepted requests in order. -/
def Ordered (pipeline : Pipeline) (sinks : Sinks σ Message ErrorInfo) (tickets : List Ticket) : Prop :=
  ∃ (d : Desk σ Message ErrorInfo) (ledger : Ledger SinkRef), d.Refines ledger ∧ d.pipeline = pipeline ∧
    d.sinks = sinks ∧ d.requests = tickets ∧ d.settled = 0 ∧ d.logged = 0

section Ordered

omit [FloatChars]

variable {pipeline next : Pipeline} {sinks after : Sinks σ Message ErrorInfo} {tickets : List Ticket}

theorem ordered_start (limits : Pipeline.Limits) : Ordered ({ limits := limits } : Pipeline) ({} : Sinks σ _ _) [] :=
  ⟨Desk.start limits, .empty, Desk.start_refines limits, rfl, rfl, rfl, rfl, rfl⟩

theorem Ordered.owner (ordered : Ordered pipeline sinks tickets) {j : Nat} {ref : SinkRef}
    {delivery : Delivery Message ErrorInfo} (delivered : sinks.log[j]? = some (ref, delivery)) :
    (tickets.flatMap Ticket.claims)[j]? = some ref := by
  obtain ⟨d, ledger, ⟨earlier, awaiting, queued, entered, served, -⟩, rfl, rfl, rfl, settled, logged⟩ := ordered
  have first : ledger.served[j]? = some ref := by
    rw [served, Desk.served, logged, List.drop_zero, List.getElem?_map, delivered]
    rfl
  have owner := ledger.served_at first
  rw [entered, Desk.owners, Desk.current, settled] at owner
  exact owner

/-- A reply is taken by the request in front, which still waits for it. -/
theorem Ordered.reply (ordered : Ordered pipeline sinks tickets) {delivery : Delivery Message ErrorInfo}
    (delivered : pipeline.dispatch delivery sinks = some (next, after)) :
    Ordered next after tickets ∧ ∃ ref, after.log = sinks.log ++ [(ref, delivery)] := by
  obtain ⟨d, ledger, refines, rfl, rfl, rfl, settled, logged⟩ := ordered
  have stepped : d.replied delivery (d.pipeline.dispatch delivery d.sinks) =
      some { d with pipeline := next, sinks := after, replies := d.replies ++ [delivery] } := by
    rw [delivered]
    rfl
  obtain ⟨-, ledger', -, refines'⟩ := refines.answered stepped
  refine ⟨⟨_, ledger', refines', rfl, rfl, rfl, settled, logged⟩, ?_⟩
  obtain ⟨earlier, awaiting, queued, -⟩ := refines
  obtain ⟨front, rest, queue, same⟩ := Desk.replied_cases stepped
  obtain ⟨ticket, others, left, rfl, ref, -, missing⟩ := queued.first queue
  have needed := queued.needs ticket (queued.mem_awaiting List.mem_cons_self)
  rw [missing, ref] at needed
  refine ⟨front.sink, ?_⟩
  rw [← (needed.deliver delivery).2]
  exact congrArg (fun d : Desk σ Message ErrorInfo => d.sinks.log) same

theorem Ordered.accept (ordered : Ordered pipeline sinks tickets) {req : Request} {sink : σ} {deadline : TimePoint}
    (lawful : (Event.enqueue req sink deadline).Lawful)
    (pushed : pipeline.push req (sinks.alloc sink).1 deadline = some next) :
    Ordered next (sinks.alloc sink).2 (tickets ++ [⟨(sinks.alloc sink).1, req⟩]) := by
  obtain ⟨d, ledger, refines, rfl, rfl, rfl, settled, logged⟩ := ordered
  have stepped : d.step 0 (.push req sink deadline) = some
      { d with
        pipeline := next
        sinks := (d.sinks.alloc sink).2
        requests := d.requests ++ [⟨(d.sinks.alloc sink).1, req⟩] } := by
    rw [Desk.step, pushed]
  have lawful : d.Lawful (.push req sink deadline) := lawful
  obtain ⟨-, ledger', -, refines'⟩ := Desk.step_refines refines lawful stepped
  exact ⟨_, ledger', refines', rfl, rfl, rfl, settled, logged⟩

/-- As many octets as were offered can be reported as written. -/
theorem Ordered.wrote (ordered : Ordered pipeline sinks tickets) {n : Nat} {buffer : Bytes}
    (offered : pipeline.nextWriteBuffer = some buffer) (fits : n ≤ buffer.length) :
    ∃ next, pipeline.onWriteDone n = some next ∧ Ordered next sinks tickets := by
  obtain ⟨d, ledger, refines, rfl, rfl, rfl, settled, logged⟩ := ordered
  obtain ⟨earlier, awaiting, queued, -⟩ := id refines
  obtain ⟨after, stepped⟩ := Option.isSome_iff_exists.mp (queued.writeDone_allowed 0 offered fits)
  have lawful : d.Lawful (.writeDone n) := trivial
  obtain ⟨-, ledger', -, refines'⟩ := Desk.step_refines refines lawful stepped
  rw [Desk.step] at stepped
  split at stepped
  · rename_i front pipeline _ done
    cases stepped
    exact ⟨pipeline, done, _, ledger', refines', rfl, rfl, rfl, settled, logged⟩
  · cases stepped

/-- Deliveries one after another, until one is not awaited. -/
theorem Ordered.attend (ordered : Ordered pipeline sinks tickets) (messages : List Message) :
    let attended := attend (fun _ => false) messages pipeline sinks
    Ordered attended.pipeline attended.sinks tickets ∧
      attended.sinks.log.map (·.2) = sinks.log.map (·.2) ++ attended.taken.map Delivery.message ∧
      (attended.outcome = none ∨ attended.outcome = some .unsolicited) := by
  induction messages generalizing pipeline sinks with
  | nil => exact ⟨ordered, (List.append_nil _).symm, .inl rfl⟩
  | cons msg rest ih =>
    cases delivered : pipeline.onMessage msg sinks with
    | none =>
      rw [attend_unsolicited delivered]
      exact ⟨ordered, (List.append_nil _).symm, .inr rfl⟩
    | some answered =>
      obtain ⟨next, after⟩ := answered
      obtain ⟨ordered', ref, log⟩ := ordered.reply delivered
      obtain ⟨last, logs, outcome⟩ := ih ordered'
      rw [attend_again delivered (by simp)]
      refine ⟨last, ?_, outcome⟩
      dsimp only
      rw [logs, log, List.map_append, List.append_assoc]
      rfl

end Ordered

/-! How many replies are awaited. -/

/-- The commands of the requests that are reported to be written. -/
def confirmed (pipeline : Pipeline) (tickets : List Ticket) : Nat :=
  ((tickets.take (tickets.length - pipeline.pendingWrite.length)).map fun ticket => ticket.request.replyCount).sum

section Counts

omit [FloatChars]

variable {pipeline : Pipeline} {sinks : Sinks σ Message ErrorInfo} {tickets : List Ticket}
  (ordered : Ordered pipeline sinks tickets)

include ordered in
/-- The replies delivered are those to the commands that are confirmed, as far as none is awaited. -/
theorem count_ordered : sinks.log.length ≤ confirmed pipeline tickets ∧
    (pipeline.hasPendingRead = false ↔ sinks.log.length = confirmed pipeline tickets) := by
  obtain ⟨d, ledger, ⟨earlier, awaiting, queued, entered, served, waiting⟩, rfl, rfl, rfl, settled, logged⟩ := ordered
  -- Of all claims that were entered, some are served and the others are waiting.
  have balanced := congrArg List.length ledger.balanced
  rw [entered, served, waiting, List.length_append] at balanced
  have first : d.requests.take (d.requests.length - d.pipeline.pendingWrite.length) = earlier ++ awaiting := by
    rw [queued.requests, ← List.append_assoc, Desk.pending, List.length_append, List.length_map, Nat.add_sub_cancel]
    exact List.take_left
  -- A request that is being written has no reply yet, so its claims are on both sides.
  have fresh : ∀ ticket ∈ d.pending, ticket.left d.sinks.log = ticket.request.replyCount := by
    intro ticket member
    rw [Ticket.left, queued.silent ticket member]
    rfl
  have size : d.served.length = d.sinks.log.length := by rw [Desk.served, logged, List.drop_zero, List.length_map]
  have pendingClaims : ((d.pending).map fun ticket => ticket.left d.sinks.log).sum =
      (d.pending.map fun ticket => ticket.request.replyCount).sum := by rw [List.map_congr_left fresh]
  have owners : d.owners.length = ((earlier ++ awaiting).map fun ticket => ticket.request.replyCount).sum +
      (d.pending.map fun ticket => ticket.request.replyCount).sum := by
    rw [← List.sum_append, ← List.map_append, List.append_assoc, ← queued.requests, Desk.owners, Desk.current, settled,
      List.drop_zero, List.length_flatMap]
    simp [Ticket.claims]
  have outstanding : (d.outstanding awaiting).length = (awaiting.map fun ticket => ticket.left d.sinks.log).sum +
      (d.pending.map fun ticket => ticket.left d.sinks.log).sum := by
    rw [Desk.outstanding, List.length_flatMap, ← List.sum_append, ← List.map_append]
    simp
  have total : d.sinks.log.length + (awaiting.map fun ticket => ticket.left d.sinks.log).sum =
      confirmed d.pipeline d.requests := by
    rw [confirmed, first]
    omega
  refine ⟨by omega, ?_⟩
  have empty : d.pipeline.hasPendingRead = false ↔ awaiting = [] := by
    rw [hasPendingRead, Bool.not_eq_false', List.isEmpty_iff, ← List.map_eq_nil_iff (f := AwaitingItem.sink),
      queued.awaitingRead, List.map_eq_nil_iff]
  rw [empty]
  constructor
  · rintro rfl
    simpa using total
  · intro same
    cases awaiting with
    | nil => rfl
    | cons ticket rest =>
      have positive := queued.incomplete ticket (List.mem_append_left _ List.mem_cons_self)
      rw [List.map_cons, List.sum_cons] at total
      omega

include ordered in
/-- Messages are delivered as long as there are confirmed commands for them. -/
theorem count_attend (messages : List Message) :
    let attended := attend (fun _ => false) messages pipeline sinks
    (attended.outcome = none ↔ sinks.log.length + messages.length ≤ confirmed pipeline tickets) ∧
      attended.sinks.log.length = min (sinks.log.length + messages.length) (confirmed pipeline tickets) := by
  induction messages generalizing pipeline sinks with
  | nil =>
    have within := (count_ordered ordered).1
    exact ⟨⟨fun _ => within, fun _ => rfl⟩, (Nat.min_eq_left within).symm⟩
  | cons msg rest ih =>
    have count := count_ordered ordered
    cases delivered : pipeline.onMessage msg sinks with
    | none =>
      have same := count.2.mp (onMessage_eq_none_iff.mp delivered)
      rw [attend_unsolicited delivered, List.length_cons]
      refine ⟨⟨by simp, fun less => by omega⟩, ?_⟩
      dsimp only
      omega
    | some answered =>
      obtain ⟨next, after⟩ := answered
      obtain ⟨ordered', ref, log⟩ := ordered.reply delivered
      have queue : next.pendingWrite = pipeline.pendingWrite := (dispatch_answered delivered).pendingWrite
      have later := ih ordered'
      have size := congrArg List.length log
      rw [List.length_append, List.length_singleton] at size
      have same : confirmed next tickets = confirmed pipeline tickets := by rw [confirmed, confirmed, queue]
      rw [size, same, Nat.add_right_comm] at later
      rw [attend_again delivered (by simp), List.length_cons]
      exact later

end Counts

end Line

end Rediscoro.Connection

import Mathlib.Algebra.Order.BigOperators.Group.List
import Mathlib.Data.List.Nodup
import Rediscoro.Pipeline.PendingResponse
import Rediscoro.Semantics.Ledger
import Rediscoro.Semantics.Transition

/-! Replies are delivered first in, first out, and each exactly once.

A desk is a pipeline with its sinks and the history of what was asked of it. The
history is kept beside the code and never read by it. A ledger of commands is
the purpose of the pipeline: an accepted request enters one claim for each of
its commands, each reply serves the claim in front, and `clear_all` wipes it. The
desk refines the ledger, whatever sinks are behind the interface.
-/

set_option autoImplicit false

namespace Rediscoro.Pipeline

open Rediscoro.Semantics

structure Ticket where
  ref : SinkRef
  request : Request

def PendingItem.ticket (item : PendingItem) : Ticket := ⟨item.sink, item.req⟩

/-- One claim for each command of the request. -/
def Ticket.claims (ticket : Ticket) : List SinkRef := List.replicate ticket.request.replyCount ticket.ref

structure Desk (σ μ ε : Type) where
  pipeline : Pipeline
  sinks : Sinks σ μ ε := {}
  /-- Every request that was accepted, in order. -/
  requests : List Ticket := []
  /-- How many of them the last `clear_all` came after. -/
  settled : Nat := 0
  /-- The length of the log after the last `clear_all`. -/
  logged : Nat := 0
  /-- What `on_message` and `on_error` were called with since then. -/
  replies : List (Delivery μ ε) := []
  /-- Every call of `on_write_done`, with the request in front of the queue. -/
  written : List (SinkRef × Nat) := []

inductive Operation (σ μ ε : Type) where
  | push (req : Request) (sink : σ) (deadline : TimePoint)
  | writeDone (n : Nat)
  | message (msg : μ)
  | error (err : ε)
  | clearAll (err : ε)

def writtenTo (written : List (SinkRef × Nat)) (ref : SinkRef) : Nat :=
  ((written.filter fun entry => entry.1 = ref).map fun entry => entry.2).sum

theorem writtenTo_append (written : List (SinkRef × Nat)) (front : SinkRef) (n : Nat) (ref : SinkRef) :
    writtenTo (written ++ [(front, n)]) ref = writtenTo written ref + if front = ref then n else 0 := by
  by_cases same : front = ref <;> simp [writtenTo, same]

theorem writtenTo_eq_zero {written : List (SinkRef × Nat)} {ref : SinkRef} (absent : ∀ entry ∈ written, entry.1 ≠ ref) :
    writtenTo written ref = 0 := by
  have none : (written.filter fun entry => entry.1 = ref) = [] := by
    apply List.filter_eq_nil_iff.mpr
    intro entry member
    simpa using absent entry member
  rw [writtenTo, none]
  rfl

section Left

variable {μ ε : Type}

/-- The replies a request still waits for. -/
def Ticket.left (ticket : Ticket) (log : List (SinkRef × Delivery μ ε)) : Nat :=
  ticket.request.replyCount - (deliveriesTo log ticket.ref).length

theorem Ticket.left_append_of_ne {ticket : Ticket} {ref : SinkRef} (apart : ref ≠ ticket.ref)
    (log : List (SinkRef × Delivery μ ε)) (delivery : Delivery μ ε) :
    ticket.left (log ++ [(ref, delivery)]) = ticket.left log := by
  rw [left, left, deliveriesTo_concat_of_ne apart]

theorem Ticket.left_append_self (ticket : Ticket) (log : List (SinkRef × Delivery μ ε)) (delivery : Delivery μ ε) :
    ticket.left (log ++ [(ticket.ref, delivery)]) = ticket.left log - 1 := by
  rw [left, left, deliveriesTo_concat_self, List.length_append, List.length_singleton]
  omega

end Left

namespace Desk

variable {σ μ ε : Type}

def start (limits : Limits) : Desk σ μ ε := { pipeline := { limits := limits } }

/-- The requests accepted since the last `clear_all`. -/
def current (d : Desk σ μ ε) : List Ticket := d.requests.drop d.settled

/-- The owners of their commands, in order of acceptance. -/
def owners (d : Desk σ μ ε) : List SinkRef := d.current.flatMap Ticket.claims

/-- Who got the replies since the last `clear_all`, in order. -/
def served (d : Desk σ μ ε) : List SinkRef := (d.sinks.log.drop d.logged).map fun entry => entry.1

/-- The requests that are not completely written. -/
def pending (d : Desk σ μ ε) : List Ticket := d.pipeline.pendingWrite.map PendingItem.ticket

variable [ResponseSink σ μ ε]

def replied (d : Desk σ μ ε) (delivery : Delivery μ ε) : Option (Pipeline × Sinks σ μ ε) → Option (Desk σ μ ε)
  | none => none
  | some (pipeline, sinks) => some { d with pipeline := pipeline, sinks := sinks, replies := d.replies ++ [delivery] }

def step (fuel : Nat) (d : Desk σ μ ε) : Operation σ μ ε → Option (Desk σ μ ε)
  | .push req sink deadline =>
      match d.pipeline.push req (d.sinks.alloc sink).1 deadline with
      | none => some { d with sinks := (d.sinks.alloc sink).2 }
      | some pipeline =>
          some { d with
            pipeline := pipeline
            sinks := (d.sinks.alloc sink).2
            requests := d.requests ++ [⟨(d.sinks.alloc sink).1, req⟩] }
  | .writeDone n =>
      match d.pipeline.pendingWrite.head?, d.pipeline.onWriteDone n with
      | some front, some pipeline =>
          some { d with pipeline := pipeline, written := d.written ++ [(front.sink, n)] }
      | _, _ => none
  | .message msg => d.replied (.message msg) (d.pipeline.onMessage msg d.sinks)
  | .error err => d.replied (.error err) (d.pipeline.onError err d.sinks)
  | .clearAll err =>
      match d.pipeline.clearAll fuel err d.sinks with
      | none => none
      | some (pipeline, sinks) =>
          some { d with
            pipeline := pipeline
            sinks := sinks
            settled := d.requests.length
            logged := sinks.log.length
            replies := [] }

/-- A pushed request has a command, and its sink is complete after exactly the expected replies. -/
def Lawful (_ : Desk σ μ ε) : Operation σ μ ε → Prop
  | .push req sink _ =>
      0 < req.replyCount ∧ expectedReplies sink = req.replyCount ∧ Counts sink (expectedReplies sink)
  | _ => True

/-! What a step can do. -/

@[reducible] def withSink (d : Desk σ μ ε) (sink : σ) : Desk σ μ ε :=
  { d with sinks := { d.sinks with cells := d.sinks.cells ++ [sink] } }

@[reducible] def accept (d : Desk σ μ ε) (req : Request) (sink : σ) (deadline : TimePoint) : Desk σ μ ε :=
  { d.withSink sink with
    pipeline := { d.pipeline with
      pendingWriteBytes := d.pipeline.pendingWriteBytes + req.wire.length
      pendingWrite := d.pipeline.pendingWrite ++ [.unsent req d.sinks.cells.length deadline] }
    requests := d.requests ++ [⟨d.sinks.cells.length, req⟩] }

@[reducible] def wroteWhole (d : Desk σ μ ε) (front : PendingItem) (rest : List PendingItem) (n : Nat) : Desk σ μ ε :=
  { d with
    pipeline := { d.pipeline with
      pendingWriteBytes := d.pipeline.pendingWriteBytes - n
      awaitingRead := d.pipeline.awaitingRead ++ [⟨front.sink, front.deadline⟩]
      pendingWrite := rest }
    written := d.written ++ [(front.sink, n)] }

@[reducible] def wroteSome (d : Desk σ μ ε) (front : PendingItem) (rest : List PendingItem) (n : Nat)
    (within : front.written + n ≤ front.req.wire.length) : Desk σ μ ε :=
  { d with
    pipeline := { d.pipeline with
      pendingWriteBytes := d.pipeline.pendingWriteBytes - n
      pendingWrite := ⟨front.req, front.sink, front.written + n, front.deadline, within⟩ :: rest }
    written := d.written ++ [(front.sink, n)] }

@[reducible] def answered (d : Desk σ μ ε) (pipeline : Pipeline) (ref : SinkRef) (delivery : Delivery μ ε) :
    Desk σ μ ε :=
  { d with pipeline := pipeline, sinks := d.sinks.deliver ref delivery, replies := d.replies ++ [delivery] }

@[reducible] def wiped (d : Desk σ μ ε) (sinks : Sinks σ μ ε) : Desk σ μ ε :=
  { d with
    pipeline := { d.pipeline with pendingWrite := [], pendingWriteBytes := 0, awaitingRead := [] }
    sinks := sinks
    settled := d.requests.length
    logged := sinks.log.length
    replies := [] }

theorem push_cases {d next : Desk σ μ ε} {fuel : Nat} {req : Request} {sink : σ} {deadline : TimePoint}
    (stepped : d.step fuel (.push req sink deadline) = some next) :
    (d.pipeline.push req d.sinks.cells.length deadline = none ∧ next = d.withSink sink) ∨
      (d.pipeline.push req d.sinks.cells.length deadline ≠ none ∧ next = d.accept req sink deadline) := by
  simp only [step, Sinks.alloc] at stepped
  split at stepped
  · rename_i refused
    exact .inl ⟨refused, (Option.some.inj stepped).symm⟩
  · rename_i pipeline pushed
    refine .inr ⟨by simp [pushed], ?_⟩
    cases push_eq_some pushed
    exact (Option.some.inj stepped).symm

theorem writeDone_cases {d next : Desk σ μ ε} {fuel n : Nat} (stepped : d.step fuel (.writeDone n) = some next) :
    ∃ front rest, d.pipeline.pendingWrite = front :: rest ∧ n ≤ front.req.wire.length - front.written ∧
      ((front.written + n = front.req.wire.length ∧ next = d.wroteWhole front rest n) ∨
        ∃ within, next = d.wroteSome front rest n within) := by
  cases queue : d.pipeline.pendingWrite with
  | nil => simp only [step, queue, List.head?_nil, reduceCtorEq] at stepped
  | cons front rest =>
    simp only [step, queue, List.head?_cons, Pipeline.onWriteDone] at stepped
    split at stepped
    · rename_i first pipeline shown done
      cases shown
      split at done
      · rename_i fits
        refine ⟨front, rest, rfl, fits.1, ?_⟩
        split at done
        · rename_i whole
          cases done
          exact .inl ⟨whole, (Option.some.inj stepped).symm⟩
        · have within : front.written + n ≤ front.req.wire.length := by
            have := front.written_le
            omega
          cases done
          exact .inr ⟨within, (Option.some.inj stepped).symm⟩
      · cases done
    · cases stepped

/-- What `on_message` and `on_error` have in common. -/
theorem replied_cases {d next : Desk σ μ ε} {delivery : Delivery μ ε}
    (stepped : d.replied delivery (d.pipeline.dispatch delivery d.sinks) = some next) :
    ∃ front rest, d.pipeline.awaitingRead = front :: rest ∧
      next = d.answered
        (if (d.sinks.deliver front.sink delivery).isComplete front.sink then { d.pipeline with awaitingRead := rest }
          else d.pipeline) front.sink delivery := by
  cases queue : d.pipeline.awaitingRead with
  | nil => simp only [Pipeline.dispatch, queue, replied, reduceCtorEq] at stepped
  | cons front rest =>
    simp only [Pipeline.dispatch, queue, replied] at stepped
    exact ⟨front, rest, rfl, (Option.some.inj stepped).symm⟩

theorem clearAll_cases {d next : Desk σ μ ε} {fuel : Nat} {err : ε}
    (stepped : d.step fuel (.clearAll err) = some next) :
    ∃ sinks, next = d.wiped sinks := by
  rw [step] at stepped
  split at stepped
  · cases stepped
  · rename_i pipeline sinks cleared
    refine ⟨sinks, ?_⟩
    unfold Pipeline.clearAll at cleared
    split at cleared
    · cases cleared
    · split at cleared
      · cases cleared
      · cases cleared
        exact (Option.some.inj stepped).symm

/-! The invariant.

The accepted requests are, in order, those that have all their replies, those
whose replies are awaited, and those that are still being written. -/

structure Queued (d : Desk σ μ ε) (earlier awaiting : List Ticket) : Prop where
  requests : d.requests = earlier ++ (awaiting ++ d.pending)
  awaitingRead : d.pipeline.awaitingRead.map AwaitingItem.sink = awaiting.map Ticket.ref
  distinct : (d.requests.map Ticket.ref).Nodup
  settled : d.settled ≤ earlier.length
  needs : ∀ ticket ∈ d.requests, d.sinks.Needs ticket.ref (ticket.left d.sinks.log)
  counted : ∀ ticket ∈ d.requests, (deliveriesTo d.sinks.log ticket.ref).length ≤ ticket.request.replyCount
  complete : ∀ ticket ∈ earlier, ticket.left d.sinks.log = 0
  incomplete : ∀ ticket ∈ awaiting ++ d.pending, 0 < ticket.left d.sinks.log
  logged : d.logged ≤ d.sinks.log.length
  known : ∀ entry ∈ d.sinks.log, entry.1 < d.sinks.cells.length
  knownWritten : ∀ entry ∈ d.written, entry.1 < d.sinks.cells.length
  silent : ∀ ticket ∈ d.pending, deliveriesTo d.sinks.log ticket.ref = []
  replies : (d.sinks.log.drop d.logged).map (fun entry => entry.2) = d.replies
  bytes :
    d.pipeline.pendingWriteBytes = (d.pipeline.pendingWrite.map fun item => item.req.wire.length - item.written).sum
  progress : ∀ item ∈ d.pipeline.pendingWrite, writtenTo d.written item.sink = item.written
  sent : ∀ ticket ∈ awaiting, writtenTo d.written ticket.ref = ticket.request.wire.length
  servedSent :
    ∀ ticket ∈ d.requests, ticket.ref ∈ d.served → writtenTo d.written ticket.ref = ticket.request.wire.length

/-- The claims that are still to be served. -/
def outstanding (d : Desk σ μ ε) (awaiting : List Ticket) : List SinkRef :=
  (awaiting ++ d.pending).flatMap fun ticket => List.replicate (ticket.left d.sinks.log) ticket.ref

/-- The ledger has the claims of the requests since the last `clear_all`. -/
def Refines (d : Desk σ μ ε) (ledger : Ledger SinkRef) : Prop :=
  ∃ earlier awaiting, d.Queued earlier awaiting ∧ ledger.entered = d.owners ∧ ledger.served = d.served ∧
    ledger.waiting = d.outstanding awaiting

omit [ResponseSink σ μ ε] in
theorem mem_pending {d : Desk σ μ ε} {item : PendingItem} (member : item ∈ d.pipeline.pendingWrite) :
    item.ticket ∈ d.pending := List.mem_map_of_mem member

omit [ResponseSink σ μ ε] in
theorem pending_cons {d : Desk σ μ ε} {front : PendingItem} {rest : List PendingItem}
    (queue : d.pipeline.pendingWrite = front :: rest) :
    d.pending = front.ticket :: rest.map PendingItem.ticket := by
  rw [pending, queue, List.map_cons]

section Steps

variable {d next : Desk σ μ ε} {earlier awaiting : List Ticket}

theorem Queued.mem_pending (queued : d.Queued earlier awaiting) {ticket : Ticket} (member : ticket ∈ d.pending) :
    ticket ∈ d.requests := by
  rw [queued.requests]
  exact List.mem_append_right _ (List.mem_append_right _ member)

theorem Queued.mem_awaiting (queued : d.Queued earlier awaiting) {ticket : Ticket} (member : ticket ∈ awaiting) :
    ticket ∈ d.requests := by
  rw [queued.requests]
  exact List.mem_append_right _ (List.mem_append_left _ member)

/-- Requests that miss replies, in the order in which `clear_all` goes through them. -/
theorem Queued.mem_queue (queued : d.Queued earlier awaiting) {ticket : Ticket}
    (member : ticket ∈ d.pending ++ awaiting) : ticket ∈ d.requests :=
  (List.mem_append.mp member).elim queued.mem_pending queued.mem_awaiting

theorem Queued.bound (queued : d.Queued earlier awaiting) {ticket : Ticket} (member : ticket ∈ d.requests) :
    ticket.ref < d.sinks.cells.length := by
  obtain ⟨sink, found, -⟩ := queued.needs ticket member
  exact (List.getElem?_eq_some_iff.mp found).1

/-- Requests are told apart by their sinks. -/
theorem Queued.eq_of_ref (queued : d.Queued earlier awaiting) {first second : Ticket} (left : first ∈ d.requests)
    (right : second ∈ d.requests) (same : first.ref = second.ref) : first = second :=
  List.inj_on_of_nodup_map queued.distinct left right same

/-- A sink that is not given to a request changes nothing. -/
theorem Queued.withSink (queued : d.Queued earlier awaiting) (sink : σ) :
    (d.withSink sink).Queued earlier awaiting := by
  have grows : d.sinks.cells.length < (d.sinks.cells ++ [sink]).length := by simp
  refine { queued with needs := ?_, known := ?_, knownWritten := ?_ }
  · intro ticket member
    exact (queued.needs ticket member).congr (List.getElem?_append_left (queued.bound member))
  · intro entry member
    exact Nat.lt_trans (queued.known entry member) grows
  · intro entry member
    exact Nat.lt_trans (queued.knownWritten entry member) grows

/-- An accepted request is the last one, with all its replies missing. -/
theorem Queued.accept (queued : d.Queued earlier awaiting) {req : Request} {sink : σ} {deadline : TimePoint}
    (lawful : d.Lawful (.push req sink deadline)) : (d.accept req sink deadline).Queued earlier awaiting := by
  obtain ⟨positive, expected, counts⟩ := lawful
  have grows : d.sinks.cells.length < (d.sinks.cells ++ [sink]).length := by simp
  -- The new sink is behind all others, so neither log knows it yet.
  have silent : deliveriesTo d.sinks.log d.sinks.cells.length = [] :=
    deliveriesTo_eq_nil fun entry member => Nat.ne_of_lt (queued.known entry member)
  have unwritten : writtenTo d.written d.sinks.cells.length = 0 :=
    writtenTo_eq_zero fun entry member => Nat.ne_of_lt (queued.knownWritten entry member)
  have all : Ticket.left ⟨d.sinks.cells.length, req⟩ d.sinks.log = req.replyCount := by
    rw [Ticket.left, silent]
    rfl
  have pending : (d.accept req sink deadline).pending = d.pending ++ [⟨d.sinks.cells.length, req⟩] := List.map_append
  constructor
  case requests =>
    rw [pending, ← List.append_assoc, ← List.append_assoc, List.append_assoc earlier, ← queued.requests]
  case awaitingRead => exact queued.awaitingRead
  case distinct =>
    show (List.map Ticket.ref (d.requests ++ _)).Nodup
    rw [List.map_append]
    refine List.Nodup.append queued.distinct (List.nodup_singleton _) (List.disjoint_singleton.mpr ?_)
    intro member
    obtain ⟨ticket, member, same⟩ := List.mem_map.mp member
    exact Nat.ne_of_lt (queued.bound member) same
  case settled => exact queued.settled
  case needs =>
    intro ticket member
    rcases List.mem_append.mp member with member | member
    · exact (queued.needs ticket member).congr (List.getElem?_append_left (queued.bound member))
    · rw [List.mem_singleton.mp member]
      refine ⟨sink, List.getElem?_concat_length, ?_⟩
      rw [expected, ← all] at counts
      exact counts
  case counted =>
    intro ticket member
    rcases List.mem_append.mp member with member | member
    · exact queued.counted ticket member
    · rw [List.mem_singleton.mp member]
      show (deliveriesTo d.sinks.log d.sinks.cells.length).length ≤ _
      rw [silent]
      exact Nat.zero_le _
  case complete => exact queued.complete
  case incomplete =>
    rw [pending, ← List.append_assoc]
    intro ticket member
    rcases List.mem_append.mp member with member | member
    · exact queued.incomplete ticket member
    · rw [List.mem_singleton.mp member]
      exact all ▸ positive
  case logged => exact queued.logged
  case known =>
    intro entry member
    exact Nat.lt_trans (queued.known entry member) grows
  case knownWritten =>
    intro entry member
    exact Nat.lt_trans (queued.knownWritten entry member) grows
  case silent =>
    rw [pending]
    exact List.forall_mem_append.mpr ⟨queued.silent, List.forall_mem_singleton.mpr silent⟩
  case replies => exact queued.replies
  case bytes =>
    show d.pipeline.pendingWriteBytes + _ = (List.map _ (d.pipeline.pendingWrite ++ [_])).sum
    rw [queued.bytes, List.map_append, List.sum_append]
    rfl
  case progress =>
    intro item member
    rcases List.mem_append.mp member with member | member
    · exact queued.progress item member
    · rw [List.mem_singleton.mp member]
      exact unwritten
  case sent => exact queued.sent
  case servedSent =>
    intro ticket member served
    rcases List.mem_append.mp member with member | member
    · exact queued.servedSent ticket member served
    · rw [List.mem_singleton.mp member] at served
      obtain ⟨entry, member, same⟩ := List.mem_map.mp served
      exact absurd same (Nat.ne_of_lt (queued.known entry (List.mem_of_mem_drop member)))

theorem Queued.apart (queued : d.Queued earlier awaiting) {before after : List Ticket} {ticket : Ticket}
    (shape : d.requests = before ++ ticket :: after) : ∀ other ∈ before ++ after, other.ref ≠ ticket.ref := by
  have distinct := queued.distinct
  rw [shape, List.map_append, List.map_cons, List.nodup_middle, ← List.map_append] at distinct
  intro other member same
  exact (List.nodup_cons.mp distinct).1 (List.mem_map.mpr ⟨other, member, same⟩)

section Writes

variable {front : PendingItem} {rest : List PendingItem} {n : Nat}

/-- The octets written are counted for the request in front of the queue only. -/
theorem Queued.writtenTo_front (queued : d.Queued earlier awaiting) (queue : d.pipeline.pendingWrite = front :: rest) :
    (∀ n, writtenTo (d.written ++ [(front.sink, n)]) front.sink = front.written + n) ∧
      (∀ n, ∀ item ∈ rest, writtenTo (d.written ++ [(front.sink, n)]) item.sink = item.written) ∧
      ∀ n, ∀ ticket ∈ awaiting, writtenTo (d.written ++ [(front.sink, n)]) ticket.ref = ticket.request.wire.length := by
  have shape : d.requests = (earlier ++ awaiting) ++ front.ticket :: rest.map PendingItem.ticket := by
    rw [queued.requests, pending_cons queue, List.append_assoc]
  have apart := queued.apart shape
  refine ⟨?_, ?_, ?_⟩
  · intro n
    rw [writtenTo_append, if_pos rfl, queued.progress front (queue ▸ List.mem_cons_self)]
  · intro n item member
    have other : item.sink ≠ front.sink := apart item.ticket (List.mem_append_right _ (List.mem_map_of_mem member))
    rw [writtenTo_append, if_neg other.symm, queued.progress item (queue ▸ List.mem_cons_of_mem _ member)]
    rfl
  · intro n ticket member
    have other : ticket.ref ≠ front.sink := apart ticket (List.mem_append_left _ (List.mem_append_right _ member))
    rw [writtenTo_append, if_neg other.symm, queued.sent ticket member]
    rfl

theorem Queued.servedSent_append (queued : d.Queued earlier awaiting) (queue : d.pipeline.pendingWrite = front :: rest)
    (fits : n ≤ front.req.wire.length - front.written) {ticket : Ticket} (member : ticket ∈ d.requests)
    (served : ticket.ref ∈ d.served) :
    writtenTo (d.written ++ [(front.sink, n)]) ticket.ref = ticket.request.wire.length := by
  have whole := queued.servedSent ticket member served
  rw [writtenTo_append, whole]
  split
  · rename_i same
    have pending : front.ticket ∈ d.requests := queued.mem_pending (Desk.mem_pending (queue ▸ List.mem_cons_self))
    have progress := queued.progress front (queue ▸ List.mem_cons_self)
    obtain rfl := queued.eq_of_ref pending member same
    -- All its octets had been written before, so there were none left to write.
    have nothing : front.written = front.req.wire.length := progress.symm.trans whole
    omega
  · rfl

/-- The last octets of the request in front were written. -/
theorem Queued.wroteWhole (queued : d.Queued earlier awaiting) (queue : d.pipeline.pendingWrite = front :: rest)
    (whole : front.written + n = front.req.wire.length) :
    (d.wroteWhole front rest n).Queued earlier (awaiting ++ [front.ticket]) := by
  obtain ⟨self, others, sent⟩ := queued.writtenTo_front queue
  have pending := pending_cons queue
  have same : awaiting ++ d.pending = awaiting ++ [front.ticket] ++ rest.map PendingItem.ticket := by
    rw [pending, List.append_assoc]
    rfl
  have first : front ∈ d.pipeline.pendingWrite := queue ▸ List.mem_cons_self
  refine { queued with
    requests := ?_, awaitingRead := ?_, incomplete := ?_, knownWritten := ?_, silent := ?_, bytes := ?_, progress := ?_,
    sent := ?_, servedSent := ?_ }
  · show d.requests = _
    rw [queued.requests, same]
    rfl
  · show List.map _ (_ ++ _) = _
    rw [List.map_append, queued.awaitingRead, List.map_append]
    rfl
  · have incomplete := queued.incomplete
    rw [same] at incomplete
    exact incomplete
  · intro entry member
    rcases List.mem_append.mp member with member | member
    · exact queued.knownWritten entry member
    · rw [List.mem_singleton.mp member]
      exact queued.bound (queued.mem_pending (Desk.mem_pending first))
  · have silent := queued.silent
    rw [pending] at silent
    exact (List.forall_mem_cons.mp silent).2
  · have bytes := queued.bytes
    rw [queue, List.map_cons, List.sum_cons] at bytes
    show d.pipeline.pendingWriteBytes - n = (rest.map fun item => item.req.wire.length - item.written).sum
    omega
  · exact others n
  · intro ticket member
    rcases List.mem_append.mp member with member | member
    · exact sent n ticket member
    · rw [List.mem_singleton.mp member]
      exact (self n).trans whole
  · intro ticket member served
    exact queued.servedSent_append queue (by omega) member served

/-- Some octets of the request in front were written, but not all. -/
theorem Queued.wroteSome (queued : d.Queued earlier awaiting) (queue : d.pipeline.pendingWrite = front :: rest)
    (fits : n ≤ front.req.wire.length - front.written) (within : front.written + n ≤ front.req.wire.length) :
    (d.wroteSome front rest n within).Queued earlier awaiting := by
  obtain ⟨self, others, sent⟩ := queued.writtenTo_front queue
  have pending := pending_cons queue
  have first : front ∈ d.pipeline.pendingWrite := queue ▸ List.mem_cons_self
  refine { queued with
    requests := ?_, incomplete := ?_, knownWritten := ?_, silent := ?_, bytes := ?_, progress := ?_, sent := sent n,
    servedSent := ?_ }
  · show d.requests = _
    rw [queued.requests, pending]
    rfl
  · have incomplete := queued.incomplete
    rw [pending] at incomplete
    exact incomplete
  · intro entry member
    rcases List.mem_append.mp member with member | member
    · exact queued.knownWritten entry member
    · rw [List.mem_singleton.mp member]
      exact queued.bound (queued.mem_pending (Desk.mem_pending first))
  · have silent := queued.silent
    rw [pending] at silent
    exact silent
  · have bytes := queued.bytes
    rw [queue, List.map_cons, List.sum_cons] at bytes
    show d.pipeline.pendingWriteBytes - n = List.sum (_ :: _)
    rw [List.sum_cons]
    dsimp only
    omega
  · intro item member
    rcases List.mem_cons.mp member with rfl | member
    · exact self n
    · exact others n item member
  · intro ticket member served
    exact queued.servedSent_append queue fits member served

end Writes

section Replies

variable {front : AwaitingItem} {rest : List AwaitingItem} {delivery : Delivery μ ε}

/-- The reply goes to the first awaited request, which still needs it. -/
theorem Queued.first (queued : d.Queued earlier awaiting) (queue : d.pipeline.awaitingRead = front :: rest) :
    ∃ ticket others left, awaiting = ticket :: others ∧ ticket.ref = front.sink ∧
      rest.map AwaitingItem.sink = others.map Ticket.ref ∧ ticket.left d.sinks.log = left + 1 := by
  have refs := queued.awaitingRead
  rw [queue, List.map_cons] at refs
  obtain ⟨ticket, others, rfl, same, later⟩ := List.map_eq_cons_iff.mp refs.symm
  have positive := queued.incomplete ticket List.mem_cons_self
  obtain ⟨left, missing⟩ := Nat.exists_eq_succ_of_ne_zero (Nat.ne_of_gt positive)
  exact ⟨ticket, others, left, rfl, same, later.symm, missing⟩

theorem Queued.left_others (queued : d.Queued earlier awaiting) {before after : List Ticket} {ticket : Ticket}
    (shape : d.requests = before ++ ticket :: after) {other : Ticket} (member : other ∈ before ++ after)
    (delivery : Delivery μ ε) : other.left (d.sinks.log ++ [(ticket.ref, delivery)]) = other.left d.sinks.log :=
  Ticket.left_append_of_ne (queued.apart shape other member).symm _ _

/-- The reply is delivered, and its request is done with if that was the last one. -/
theorem Queued.answered {ticket : Ticket} {others : List Ticket} {left : Nat}
    (queued : d.Queued earlier (ticket :: others)) (missing : ticket.left d.sinks.log = left + 1)
    (delivery : Delivery μ ε) (pipeline : Pipeline) {earlier' awaiting' : List Ticket}
    (writes : pipeline.pendingWrite = d.pipeline.pendingWrite)
    (bytes : pipeline.pendingWriteBytes = d.pipeline.pendingWriteBytes)
    (reads : pipeline.awaitingRead.map AwaitingItem.sink = awaiting'.map Ticket.ref)
    (moved : (left = 0 ∧ earlier' = earlier ++ [ticket] ∧ awaiting' = others) ∨
      (0 < left ∧ earlier' = earlier ∧ awaiting' = ticket :: others)) :
    (d.answered pipeline ticket.ref delivery).Queued earlier' awaiting' ∧
      (d.answered pipeline ticket.ref delivery).served = d.served ++ [ticket.ref] := by
  have shape : d.requests = earlier ++ ticket :: (others ++ d.pending) := queued.requests
  have mine : ticket ∈ d.requests := queued.mem_awaiting List.mem_cons_self
  have needed := queued.needs ticket mine
  rw [missing] at needed
  obtain ⟨needs, log⟩ := needed.deliver delivery
  have size := d.sinks.length_cells_deliver ticket.ref delivery
  have served : (List.drop d.logged (d.sinks.deliver ticket.ref delivery).log).map (fun entry => entry.1) =
      d.served ++ [ticket.ref] := by
    rw [log, List.drop_append_of_le_length queued.logged, List.map_append]
    rfl
  -- One reply less is missing to the request in front, and none to anybody else.
  have kept {other : Ticket} (member : other ∈ earlier ++ (others ++ d.pending)) :
      other.left (d.sinks.deliver ticket.ref delivery).log = other.left d.sinks.log := by
    rw [log]
    exact queued.left_others shape member delivery
  have less : ticket.left (d.sinks.deliver ticket.ref delivery).log = left := by
    rw [log, Ticket.left_append_self, missing]
    rfl
  have split {other : Ticket} (member : other ∈ d.requests) :
      other = ticket ∨ other ∈ earlier ++ (others ++ d.pending) := by
    rw [shape] at member
    simpa [or_left_comm] using member
  have pending :
      pipeline.pendingWrite.map PendingItem.ticket = d.pending := congrArg (List.map PendingItem.ticket) writes
  refine ⟨?_, served⟩
  constructor
  case requests =>
    show d.requests = earlier' ++ (awaiting' ++ pipeline.pendingWrite.map PendingItem.ticket)
    rw [shape, pending]
    rcases moved with ⟨-, rfl, rfl⟩ | ⟨-, rfl, rfl⟩
    · rw [List.append_assoc]
      rfl
    · rfl
  case awaitingRead => exact reads
  case distinct => exact queued.distinct
  case settled =>
    refine Nat.le_trans queued.settled ?_
    rcases moved with ⟨-, rfl, -⟩ | ⟨-, rfl, -⟩
    · rw [List.length_append]
      exact Nat.le_add_right _ _
    · exact Nat.le_refl _
  case needs =>
    intro other member
    rcases split member with rfl | elsewhere
    · rw [less]
      exact needs
    · rw [kept elsewhere]
      exact (queued.needs other member).congr (Sinks.cells_deliver_of_ne (queued.apart shape other elsewhere) delivery)
  case counted =>
    intro other member
    show (deliveriesTo (d.sinks.deliver ticket.ref delivery).log other.ref).length ≤ _
    rw [log]
    rcases split member with rfl | elsewhere
    · rw [Ticket.left] at missing
      rw [deliveriesTo_concat_self, List.length_append, List.length_singleton]
      omega
    · rw [deliveriesTo_concat_of_ne (queued.apart shape other elsewhere).symm]
      exact queued.counted other member
  case complete =>
    intro other member
    rcases moved with ⟨rfl, rfl, -⟩ | ⟨-, rfl, -⟩
    · rcases List.mem_append.mp member with member | member
      · exact (kept (List.mem_append_left _ member)).trans (queued.complete other member)
      · rw [List.mem_singleton.mp member]
        exact less
    · exact (kept (List.mem_append_left _ member)).trans (queued.complete other member)
  case incomplete =>
    show ∀ other ∈ awaiting' ++ pipeline.pendingWrite.map PendingItem.ticket, _
    rw [pending]
    intro other member
    have elsewhere (member : other ∈ others ++ d.pending) :
        0 < other.left (d.sinks.deliver ticket.ref delivery).log :=
      (kept (List.mem_append_right _ member)).symm ▸ queued.incomplete other (List.mem_cons_of_mem _ member)
    rcases moved with ⟨-, -, rfl⟩ | ⟨positive, -, rfl⟩
    · exact elsewhere member
    · rcases List.mem_cons.mp member with rfl | member
      · exact less.symm ▸ positive
      · exact elsewhere member
  case logged =>
    show d.logged ≤ (d.sinks.deliver ticket.ref delivery).log.length
    rw [log, List.length_append]
    exact Nat.le_trans queued.logged (Nat.le_add_right _ _)
  case known =>
    show ∀ entry ∈ (d.sinks.deliver ticket.ref delivery).log,
      entry.1 < (d.sinks.deliver ticket.ref delivery).cells.length
    rw [log, size]
    intro entry member
    rcases List.mem_append.mp member with member | member
    · exact queued.known entry member
    · rw [List.mem_singleton.mp member]
      exact queued.bound mine
  case knownWritten =>
    intro entry member
    exact size.symm ▸ queued.knownWritten entry member
  case silent =>
    show ∀ other ∈ pipeline.pendingWrite.map PendingItem.ticket,
      deliveriesTo (d.sinks.deliver ticket.ref delivery).log other.ref = []
    rw [pending, log]
    intro other member
    have elsewhere : other ∈ earlier ++ (others ++ d.pending) :=
      List.mem_append_right _ (List.mem_append_right _ member)
    rw [deliveriesTo_concat_of_ne (queued.apart shape other elsewhere).symm]
    exact queued.silent other member
  case replies =>
    show List.map _ (List.drop d.logged (d.sinks.deliver ticket.ref delivery).log) = d.replies ++ [delivery]
    rw [log, List.drop_append_of_le_length queued.logged, List.map_append, queued.replies]
    rfl
  case bytes =>
    show pipeline.pendingWriteBytes = _
    rw [bytes, writes]
    exact queued.bytes
  case progress =>
    intro item member
    exact queued.progress item (writes ▸ member)
  case sent =>
    intro other member
    rcases moved with ⟨-, -, rfl⟩ | ⟨-, -, rfl⟩
    · exact queued.sent other (List.mem_cons_of_mem _ member)
    · exact queued.sent other member
  case servedSent =>
    intro other member
    show other.ref ∈ List.map _ (List.drop d.logged _) → _
    rw [served, List.mem_append, List.mem_singleton]
    rintro (earlierOn | now)
    · exact queued.servedSent other member earlierOn
    · rw [queued.eq_of_ref member mine now]
      exact queued.sent ticket List.mem_cons_self

end Replies

section Clear

/-- The missing replies of a queue of requests, as errors. -/
def failures (err : ε) (log : List (SinkRef × Delivery μ ε)) (queue : List Ticket) : List (SinkRef × Delivery μ ε) :=
  queue.flatMap fun ticket => List.replicate (ticket.left log) (ticket.ref, .error err)

omit [ResponseSink σ μ ε] in
theorem mem_failures {err : ε} {log : List (SinkRef × Delivery μ ε)} {queue : List Ticket}
    {entry : SinkRef × Delivery μ ε} (member : entry ∈ failures err log queue) : entry.1 ∈ queue.map Ticket.ref := by
  obtain ⟨ticket, among, repeated⟩ := List.mem_flatMap.mp member
  rw [List.eq_of_mem_replicate repeated]
  exact List.mem_map_of_mem among

omit [ResponseSink σ μ ε] in
theorem deliveriesTo_failures_absent (err : ε) (log : List (SinkRef × Delivery μ ε)) {queue : List Ticket}
    {ref : SinkRef} (absent : ref ∉ queue.map Ticket.ref) : deliveriesTo (failures err log queue) ref = [] :=
  deliveriesTo_eq_nil fun _ member same => absent (same ▸ mem_failures member)

omit [ResponseSink σ μ ε] in
theorem deliveriesTo_failures (err : ε) (log : List (SinkRef × Delivery μ ε)) {queue : List Ticket}
    (distinct : (queue.map Ticket.ref).Nodup) {ticket : Ticket} (member : ticket ∈ queue) :
    deliveriesTo (failures err log queue) ticket.ref = List.replicate (ticket.left log) (.error err) := by
  induction queue with
  | nil => cases member
  | cons front rest ih =>
    obtain ⟨fresh, distinct⟩ := List.nodup_cons.mp distinct
    rw [failures, List.flatMap_cons, deliveriesTo_append]
    rcases List.mem_cons.mp member with rfl | later
    · rw [deliveriesTo_replicate]
      exact (congrArg _ (deliveriesTo_failures_absent err log fresh)).trans (List.append_nil _)
    · rw [deliveriesTo_eq_nil, List.nil_append]
      · exact ih distinct later
      · intro entry repeated same
        rw [List.eq_of_mem_replicate repeated] at same
        exact fresh (List.mem_map.mpr ⟨ticket, later, same.symm⟩)

omit [ResponseSink σ μ ε] in
theorem map_sink_pendingWrite (d : Desk σ μ ε) :
    d.pipeline.pendingWrite.map PendingItem.sink = d.pending.map Ticket.ref := by
  rw [pending, List.map_map]
  rfl

/-- `clear_all` fails the pending requests and then the awaited ones. -/
theorem Queued.clearAll_eq (queued : d.Queued earlier awaiting) (fuel : Nat) (err : ε) :
    d.pipeline.clearAll fuel err d.sinks =
      (d.sinks.failEach fuel err ((d.pending ++ awaiting).map Ticket.ref)).map fun sinks =>
        ({ d.pipeline with pendingWrite := [], pendingWriteBytes := 0, awaitingRead := [] }, sinks) := by
  rw [Pipeline.clearAll, List.map_append, Sinks.failEach_append, map_sink_pendingWrite, queued.awaitingRead]
  cases d.sinks.failEach fuel err (d.pending.map Ticket.ref) with
  | none => rfl
  | some sinks =>
    dsimp only [Option.bind_some]
    cases sinks.failEach fuel err (awaiting.map Ticket.ref) with
    | none => rfl
    | some sinks => rfl

theorem Queued.distinct_queue (queued : d.Queued earlier awaiting) :
    ((d.pending ++ awaiting).map Ticket.ref).Nodup := by
  have distinct := queued.distinct
  rw [queued.requests, List.map_append] at distinct
  have suffix := (List.nodup_append.mp distinct).2.1
  rw [List.map_append] at suffix ⊢
  exact List.nodup_append_comm.mp suffix

/-- A cleared desk: every request is done with. -/
theorem Queued.wiped (queued : d.Queued earlier awaiting) {err : ε} {sinks : Sinks σ μ ε}
    (failed : Sinks.FailedEach Ticket.ref (fun ticket => ticket.left d.sinks.log) err
      (d.pending ++ awaiting) d.sinks sinks) :
    (∀ ticket ∈ d.requests, deliveriesTo sinks.log ticket.ref =
      deliveriesTo d.sinks.log ticket.ref ++ List.replicate (ticket.left d.sinks.log) (.error err)) ∧
    (d.wiped sinks).Queued d.requests [] := by
  have log : sinks.log = d.sinks.log ++ failures err d.sinks.log (d.pending ++ awaiting) := failed.log
  have split {ticket : Ticket} (member : ticket ∈ d.requests) : ticket ∈ earlier ∨ ticket ∈ d.pending ++ awaiting := by
    rw [queued.requests] at member
    simpa [or_comm] using member
  -- A request that has all its replies is in neither queue.
  have gone {ticket : Ticket} (member : ticket ∈ earlier) : ticket.ref ∉ (d.pending ++ awaiting).map Ticket.ref := by
    intro again
    obtain ⟨other, among, same⟩ := List.mem_map.mp again
    have missing := queued.incomplete other (by simpa [or_comm] using among)
    have earlierOn : ticket ∈ d.requests := by
      rw [queued.requests]
      exact List.mem_append_left _ member
    rw [queued.eq_of_ref (queued.mem_queue among) earlierOn same, queued.complete ticket member] at missing
    exact Nat.lt_irrefl 0 missing
  have made : ∀ ticket ∈ d.requests, deliveriesTo sinks.log ticket.ref =
      deliveriesTo d.sinks.log ticket.ref ++ List.replicate (ticket.left d.sinks.log) (.error err) := by
    intro ticket member
    rw [log, deliveriesTo_append]
    rcases split member with done | queueing
    · rw [queued.complete ticket done, deliveriesTo_failures_absent err _ (gone done)]
      rfl
    · rw [deliveriesTo_failures err d.sinks.log queued.distinct_queue queueing]
  have received {ticket : Ticket} (member : ticket ∈ d.requests) :
      (deliveriesTo sinks.log ticket.ref).length = ticket.request.replyCount := by
    have counted := queued.counted ticket member
    rw [made ticket member, List.length_append, List.length_replicate, Ticket.left]
    omega
  have finished {ticket : Ticket} (member : ticket ∈ d.requests) : ticket.left sinks.log = 0 := by
    rw [Ticket.left, received member, Nat.sub_self]
  have unseen : (List.drop sinks.log.length sinks.log).map (fun entry => entry.1) = [] := by
    rw [List.drop_length]
    rfl
  refine ⟨made, ?_⟩
  constructor
  case requests => exact (List.append_nil _).symm
  case awaitingRead => rfl
  case distinct => exact queued.distinct
  case settled => exact Nat.le_refl _
  case needs =>
    intro ticket member
    rw [finished member]
    rcases split member with done | queueing
    · have needs := queued.needs ticket member
      rw [queued.complete ticket done] at needs
      exact needs.congr (failed.others _ (gone done))
    · exact failed.needs ticket queueing
  case counted =>
    intro ticket member
    exact Nat.le_of_eq (received member)
  case complete =>
    intro ticket member
    exact finished member
  case incomplete =>
    intro ticket member
    cases member
  case logged => exact Nat.le_refl _
  case known =>
    show ∀ entry ∈ sinks.log, entry.1 < sinks.cells.length
    rw [log, failed.size]
    intro entry member
    rcases List.mem_append.mp member with member | failing
    · exact queued.known entry member
    · obtain ⟨other, among, same⟩ := List.mem_map.mp (mem_failures failing)
      rw [← same]
      exact queued.bound (queued.mem_queue among)
  case knownWritten =>
    intro entry member
    exact failed.size.symm ▸ queued.knownWritten entry member
  case silent =>
    intro ticket member
    cases member
  case replies =>
    show List.map _ (List.drop sinks.log.length sinks.log) = []
    rw [List.drop_length]
    rfl
  case bytes => rfl
  case progress =>
    intro item member
    cases member
  case sent =>
    intro ticket member
    cases member
  case servedSent =>
    intro ticket member
    show ticket.ref ∈ List.map _ (List.drop _ _) → _
    rw [unseen]
    intro served
    cases served

/-- With enough rounds `clear_all` ends, and a clear that ended went like this. -/
theorem Queued.cleared (queued : d.Queued earlier awaiting) (err : ε) :
    ∃ sinks,
      Sinks.FailedEach Ticket.ref (fun ticket => ticket.left d.sinks.log) err (d.pending ++ awaiting) d.sinks sinks ∧
      (∃ enough, ∀ fuel, enough ≤ fuel → (d.step fuel (.clearAll err)).isSome = true) ∧
      ∀ fuel next, d.step fuel (.clearAll err) = some next → next = d.wiped sinks := by
  have needs (ticket : Ticket) (among : ticket ∈ d.pending ++ awaiting) :
      d.sinks.Needs ticket.ref (ticket.left d.sinks.log) := queued.needs ticket (queued.mem_queue among)
  have enough (ticket : Ticket) (among : ticket ∈ d.pending ++ awaiting) :
      ticket.left d.sinks.log < (d.requests.map fun ticket => ticket.request.replyCount).sum + 1 :=
    Nat.lt_succ_of_le (Nat.le_trans (Nat.sub_le _ _) (List.le_sum_of_mem
      (List.mem_map_of_mem (f := fun ticket : Ticket => ticket.request.replyCount) (queued.mem_queue among))))
  obtain ⟨sinks, all, failed⟩ :=
    Sinks.failEach_needs Ticket.ref (fun ticket => ticket.left d.sinks.log) err queued.distinct_queue needs enough
  refine ⟨sinks, failed, ⟨(d.requests.map fun ticket => ticket.request.replyCount).sum + 1, ?_⟩, ?_⟩
  · intro fuel within
    rw [step, queued.clearAll_eq, Sinks.failEach_of_le all within]
    rfl
  · intro fuel next stepped
    -- However many rounds were given, the sinks that are left are the same.
    rw [step, queued.clearAll_eq] at stepped
    cases done : d.sinks.failEach fuel err ((d.pending ++ awaiting).map Ticket.ref) with
    | none =>
      rw [done] at stepped
      cases stepped
    | some after =>
      rw [done] at stepped
      rw [← Sinks.failEach_deterministic done all]
      exact (Option.some.inj stepped).symm

end Clear

/-! Refinement. -/

theorem Queued.enters (queued : d.Queued earlier awaiting) (req : Request) (sink : σ) (deadline : TimePoint) :
    (d.accept req sink deadline).owners = d.owners ++ Ticket.claims ⟨d.sinks.cells.length, req⟩ ∧
      (d.accept req sink deadline).outstanding awaiting =
        d.outstanding awaiting ++ Ticket.claims ⟨d.sinks.cells.length, req⟩ := by
  have silent : deliveriesTo d.sinks.log d.sinks.cells.length = [] :=
    deliveriesTo_eq_nil fun entry member => Nat.ne_of_lt (queued.known entry member)
  have within : d.settled ≤ d.requests.length := by
    refine Nat.le_trans queued.settled ?_
    rw [queued.requests, List.length_append]
    exact Nat.le_add_right _ _
  constructor
  · show List.flatMap _ (List.drop d.settled (d.requests ++ _)) = _
    rw [List.drop_append_of_le_length within, List.flatMap_append, List.flatMap_singleton]
    rfl
  · simp only [outstanding, Desk.pending, List.map_append, ← List.append_assoc, List.flatMap_append]
    simp [PendingItem.ticket, PendingItem.unsent, Ticket.claims, Ticket.left, silent]

omit [ResponseSink σ μ ε] in
theorem outstanding_cons (d : Desk σ μ ε) (ticket : Ticket) (others : List Ticket) :
    d.outstanding (ticket :: others) = List.replicate (ticket.left d.sinks.log) ticket.ref ++ d.outstanding others := by
  rw [outstanding, List.cons_append, List.flatMap_cons]
  rfl

/-- A reply serves the claim in front. -/
theorem Queued.serves {ticket : Ticket} {others : List Ticket} {left : Nat}
    (queued : d.Queued earlier (ticket :: others)) (missing : ticket.left d.sinks.log = left + 1)
    (delivery : Delivery μ ε) (pipeline : Pipeline) (writes : pipeline.pendingWrite = d.pipeline.pendingWrite) :
    d.outstanding (ticket :: others) =
        ticket.ref :: (d.answered pipeline ticket.ref delivery).outstanding (ticket :: others) ∧
      (left = 0 → (d.answered pipeline ticket.ref delivery).outstanding (ticket :: others) =
        (d.answered pipeline ticket.ref delivery).outstanding others) := by
  have shape : d.requests = earlier ++ ticket :: (others ++ d.pending) := queued.requests
  have needed := queued.needs ticket (queued.mem_awaiting List.mem_cons_self)
  rw [missing] at needed
  obtain ⟨-, log⟩ := needed.deliver delivery
  have pending : (d.answered pipeline ticket.ref delivery).pending = d.pending :=
    congrArg (List.map PendingItem.ticket) writes
  have kept : (d.answered pipeline ticket.ref delivery).outstanding others = d.outstanding others := by
    rw [outstanding, outstanding, pending]
    apply List.flatMap_congr
    intro other member
    rw [log, queued.left_others shape (List.mem_append_right _ member)]
  have less : ticket.left (d.answered pipeline ticket.ref delivery).sinks.log = left := by
    rw [log, Ticket.left_append_self, missing]
    rfl
  rw [outstanding_cons, outstanding_cons, kept, missing, less, List.replicate_succ]
  refine ⟨rfl, ?_⟩
  rintro rfl
  rfl

theorem Refines.answered {ledger : Ledger SinkRef} (refines : d.Refines ledger) {delivery : Delivery μ ε}
    (stepped : d.replied delivery (d.pipeline.dispatch delivery d.sinks) = some next) :
    ∃ ref ledger', ledger.move (.serve ref) = some ledger' ∧ next.Refines ledger' := by
  obtain ⟨earlier, awaiting, queued, entered, served, waiting⟩ := refines
  obtain ⟨front, rest, queue, rfl⟩ := replied_cases stepped
  obtain ⟨ticket, others, left, rfl, same, later, missing⟩ := queued.first queue
  have needed := queued.needs ticket (queued.mem_awaiting List.mem_cons_self)
  rw [missing] at needed
  obtain ⟨needs, -⟩ := needed.deliver delivery
  rw [← same]
  -- `dispatch` asks the sink whether it is complete; the ticket tells whether this was the last reply it missed.
  by_cases last : left = 0
  · rw [if_pos (needs.complete.mpr last)]
    obtain ⟨queued', served'⟩ := queued.answered missing delivery { d.pipeline with awaitingRead := rest } rfl rfl later
      (.inl ⟨last, rfl, rfl⟩)
    obtain ⟨front, done⟩ := queued.serves missing delivery { d.pipeline with awaitingRead := rest } rfl
    obtain ⟨ledger', moved, entered', enlarged, shrunk⟩ := Ledger.move_serve (waiting.trans front)
    refine ⟨ticket.ref, ledger', moved, earlier ++ [ticket], others, queued', entered'.trans entered, ?_, ?_⟩
    · rw [enlarged, served, served']
    · rw [shrunk, done last]
  · rw [if_neg fun done => last (needs.complete.mp done)]
    obtain ⟨queued', served'⟩ := queued.answered missing delivery d.pipeline rfl rfl queued.awaitingRead
      (.inr ⟨Nat.pos_of_ne_zero last, rfl, rfl⟩)
    obtain ⟨front, -⟩ := queued.serves missing delivery d.pipeline rfl
    obtain ⟨ledger', moved, entered', enlarged, shrunk⟩ := Ledger.move_serve (waiting.trans front)
    refine ⟨ticket.ref, ledger', moved, earlier, ticket :: others, queued', entered'.trans entered, ?_, shrunk⟩
    rw [enlarged, served, served']

/-- Every operation of the pipeline is a move of the ledger, or none. -/
theorem step_refines {fuel : Nat} {ledger : Ledger SinkRef} {operation : Operation σ μ ε} (refines : d.Refines ledger)
    (lawful : d.Lawful operation) (stepped : d.step fuel operation = some next) :
    ∃ moves ledger', runFrom Ledger.move ledger moves = some ledger' ∧ next.Refines ledger' := by
  have one {move : Ledger.Move SinkRef} {ledger' : Ledger SinkRef} (moved : ledger.move move = some ledger') :
      runFrom Ledger.move ledger [move] = some ledger' := by
    rw [runFrom, moved]
    rfl
  cases operation with
  | push req sink deadline =>
    obtain ⟨earlier, awaiting, queued, entered, served, waiting⟩ := refines
    rcases push_cases stepped with ⟨-, rfl⟩ | ⟨-, rfl⟩
    · exact ⟨[], ledger, rfl, earlier, awaiting, queued.withSink sink, entered, served, waiting⟩
    · obtain ⟨owners, outstanding⟩ := queued.enters req sink deadline
      refine ⟨[.enter (Ticket.claims ⟨d.sinks.cells.length, req⟩)], _, one rfl, earlier, awaiting, queued.accept lawful,
        ?_, served, ?_⟩
      · exact (congrArg (· ++ _) entered).trans owners.symm
      · exact (congrArg (· ++ _) waiting).trans outstanding.symm
  | writeDone n =>
    obtain ⟨earlier, awaiting, queued, entered, served, waiting⟩ := refines
    obtain ⟨front, rest, queue, fits, whole⟩ := writeDone_cases stepped
    have pending := pending_cons queue
    refine ⟨[], ledger, rfl, ?_⟩
    rcases whole with ⟨whole, rfl⟩ | ⟨within, rfl⟩
    · refine ⟨earlier, awaiting ++ [front.ticket], queued.wroteWhole queue whole, entered, served, ?_⟩
      rw [waiting, outstanding, outstanding, pending, List.append_assoc]
      rfl
    · refine ⟨earlier, awaiting, queued.wroteSome queue fits within, entered, served, ?_⟩
      rw [waiting, outstanding, outstanding, pending]
      rfl
  | message msg =>
    obtain ⟨ref, ledger', moved, refines⟩ := refines.answered stepped
    exact ⟨[.serve ref], ledger', one moved, refines⟩
  | error err =>
    obtain ⟨ref, ledger', moved, refines⟩ := refines.answered stepped
    exact ⟨[.serve ref], ledger', one moved, refines⟩
  | clearAll err =>
    obtain ⟨earlier, awaiting, queued, -⟩ := refines
    obtain ⟨sinks, failed, -, same⟩ := queued.cleared err
    obtain rfl := same fuel next stepped
    refine ⟨[.wipe], .empty, one rfl, d.requests, [], (queued.wiped failed).2, ?_, ?_, rfl⟩
    · simp [Ledger.empty, owners, current]
    · simp [Ledger.empty, Desk.served]

/-- As many octets as the write buffer holds can be reported as written. -/
theorem Queued.writeDone_allowed (queued : d.Queued earlier awaiting) (fuel : Nat) {n : Nat} {buffer : Bytes}
    (shown : d.pipeline.nextWriteBuffer = some buffer) (fits : n ≤ buffer.length) :
    (d.step fuel (.writeDone n)).isSome = true := by
  have bytes := queued.bytes
  cases queue : d.pipeline.pendingWrite with
  | nil => simp [Pipeline.nextWriteBuffer, queue] at shown
  | cons front rest =>
    simp only [Pipeline.nextWriteBuffer, queue, List.head?_cons, Option.map_some, Option.some.injEq] at shown
    rw [← shown, PendingItem.unwritten, List.length_drop] at fits
    rw [queue, List.map_cons, List.sum_cons] at bytes
    have within : n ≤ front.req.wire.length - front.written ∧ n ≤ d.pipeline.pendingWriteBytes := by omega
    by_cases whole : front.written + n = front.req.wire.length <;>
      simp [step, Pipeline.onWriteDone, queue, within, whole]

theorem start_queued (limits : Limits) : (start limits : Desk σ μ ε).Queued [] [] := by
  constructor <;> simp [start, Desk.pending, Desk.served]

theorem start_refines (limits : Limits) : (start limits : Desk σ μ ε).Refines .empty :=
  ⟨[], [], start_queued limits, rfl, rfl, rfl⟩

/-- Replies are matched with commands in order of acceptance, each delivery is
made once, and `clear_all` makes up for the missing ones. -/
theorem delivers_in_order {fuel : Nat} {limits : Limits} {operations : List (Operation σ μ ε)}
    (lawful : Guarded (step fuel) Lawful (start limits) operations)
    (run : runFrom (step fuel) (start limits) operations = some d) :
    (d.replies.length ≤ d.owners.length ∧
      d.sinks.log.drop d.logged = (d.owners.take d.replies.length).zip d.replies) ∧
    (∀ ticket ∈ d.requests, ticket.ref ∈ d.served → writtenTo d.written ticket.ref = ticket.request.wire.length) ∧
    (∀ err : ε, (∃ enough, ∀ fuel, enough ≤ fuel → (d.step fuel (.clearAll err)).isSome = true) ∧
      ∀ (fuel : Nat) (next : Desk σ μ ε), d.step fuel (.clearAll err) = some next →
        (next.pipeline.pendingWrite = [] ∧ next.pipeline.awaitingRead = []) ∧
        ∀ ticket ∈ d.requests, deliveriesTo next.sinks.log ticket.ref = deliveriesTo d.sinks.log ticket.ref ++
          List.replicate (ticket.request.replyCount - (deliveriesTo d.sinks.log ticket.ref).length) (.error err)) ∧
    (∀ ticket ∈ d.requests, (deliveriesTo d.sinks.log ticket.ref).length ≤ ticket.request.replyCount ∧
      (d.sinks.isComplete ticket.ref = true ↔
        (deliveriesTo d.sinks.log ticket.ref).length = ticket.request.replyCount)) ∧
    ∀ (n : Nat) (buffer : Bytes), d.pipeline.nextWriteBuffer = some buffer → n ≤ buffer.length →
      (d.step fuel (.writeDone n)).isSome = true := by
  -- Every run is one of the ledger, which serves its claims in the order in which they were entered.
  obtain ⟨-, ledger, -, earlier, awaiting, queued, entered, served, -⟩ :=
    runFrom_simulates (fun (d : Desk σ μ ε) ledger => d.Refines ledger)
      (fun _ _ _ _ refines lawful stepped => step_refines refines lawful stepped) (start_refines limits) lawful run
  have front : d.served <+: d.owners := by
    rw [← served, ← entered, ← ledger.balanced]
    exact List.prefix_append _ _
  have size : d.served.length = d.replies.length := by
    rw [← queued.replies, Desk.served, List.length_map, List.length_map]
  refine ⟨⟨size ▸ front.length_le, ?_⟩, queued.servedSent, ?_, ?_, ?_⟩
  · rw [← size, ← List.prefix_iff_eq_take.mp front, ← queued.replies]
    exact List.zip_of_prod rfl rfl
  · intro err
    obtain ⟨sinks, failed, ends, same⟩ := queued.cleared err
    refine ⟨ends, fun fuel next stepped => ?_⟩
    obtain rfl := same fuel next stepped
    exact ⟨⟨rfl, rfl⟩, (queued.wiped failed).1⟩
  · intro ticket member
    refine ⟨queued.counted ticket member, (queued.needs ticket member).complete.trans ?_⟩
    have counted := queued.counted ticket member
    rw [Ticket.left]
    omega
  · intro n buffer shown fits
    exact queued.writeDone_allowed fuel shown fits

end Steps

section Exchange

/-- Two requests with three commands between them, written in pieces, and what arrives for them. -/
def exchange : List (Operation (PendingResponse fun _ => (Except.ok : Bool → Except Unit Bool)) Bool Unit) :=
  [.push ⟨[80, 73, 78, 71], 2⟩ { expected := 2 } ⊤, .push ⟨[71, 69, 84], 1⟩ { expected := 1 } ⊤, .writeDone 3,
    .writeDone 1, .message true, .writeDone 3, .error (), .message false]

/-- The error is the second reply to the first request. -/
theorem exchange_delivers :
    ∃ d, runFrom (step 4) (start {}) exchange = some d ∧ d.owners = [0, 0, 1] ∧
      d.sinks.log.drop d.logged = [(0, .message true), (0, .error ()), (1, .message false)] := by
  have lawful : Guarded (step 4) Lawful (start {}) exchange :=
    .cons ⟨Nat.two_pos, rfl, PendingResponse.counts_new Nat.two_pos⟩ rfl
      (.cons ⟨Nat.one_pos, rfl, PendingResponse.counts_new Nat.one_pos⟩ rfl
        (.cons trivial rfl (.cons trivial rfl (.cons trivial rfl (.cons trivial rfl (.cons trivial rfl
          (.cons trivial rfl trivial)))))))
  have run : ((runFrom (step 4) (start {}) exchange).map fun d => (d.owners, d.replies)) =
      some ([0, 0, 1], [.message true, .error (), .message false]) := by
    decide +kernel
  obtain ⟨d, run, seen⟩ := Option.map_eq_some_iff.mp run
  obtain ⟨owners, replies⟩ := Prod.mk.inj seen
  have order := (delivers_in_order lawful run).1.2
  rw [owners, replies] at order
  exact ⟨d, run, owners, order⟩

end Exchange

end Desk

end Rediscoro.Pipeline

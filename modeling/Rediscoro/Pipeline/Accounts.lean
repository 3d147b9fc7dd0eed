import Mathlib.Order.Lattice
import Rediscoro.Pipeline.Delivery

/-! The books of the pipeline: octets, limits and deadlines.

The pipeline counts the octets it still has to write beside the queues and looks
at the front of each queue only for the earliest deadline. Both are right in every
state it can come to, whatever sinks are behind it.
-/

set_option autoImplicit false

namespace Rediscoro.Pipeline

open Rediscoro.Semantics

/-- How many octets of the queued requests are still to be written. -/
def unwrittenBytes (queue : List PendingItem) : Nat :=
  (queue.map fun item => item.req.wire.length - item.written).sum

/-- The octets of the request in front that are written. -/
def begun : List PendingItem → Bytes
  | [] => []
  | front :: _ => front.req.wire.take front.written

/-- A request that is queued is not begun. -/
theorem begun_concat (queue : List PendingItem) (req : Request) (sink : SinkRef) (deadline : TimePoint) :
    begun (queue ++ [.unsent req sink deadline]) = begun queue := by
  cases queue with
  | nil => rfl
  | cons front rest => rfl

theorem unbegun_concat {queue : List PendingItem} (unbegun : ∀ item ∈ queue.tail, item.written = 0) (req : Request)
    (sink : SinkRef) (deadline : TimePoint) :
    ∀ item ∈ (queue ++ [PendingItem.unsent req sink deadline]).tail, item.written = 0 := by
  cases queue with
  | nil => simp
  | cons front rest =>
    intro item member
    rcases List.mem_append.mp member with earlier | last
    · exact unbegun item earlier
    · rw [List.mem_singleton.mp last]
      rfl

/-- The wires of some requests, one behind the other. -/
def wires (tickets : List Ticket) : Bytes := tickets.flatMap fun ticket => ticket.request.wire

variable {σ μ ε : Type}

/-- A desk with the octets that were reported as written since the last `clear_all`. -/
structure Account (σ μ ε : Type) where
  desk : Desk σ μ ε
  sent : Bytes := []

namespace Account

def start (limits : Limits) : Account σ μ ε := { desk := .start limits }

section Steps

variable [ResponseSink σ μ ε]

def step (fuel : Nat) (a : Account σ μ ε) (op : Operation σ μ ε) : Option (Account σ μ ε) :=
  (a.desk.step fuel op).map fun d =>
    { desk := d
      sent :=
        match op with
        | .writeDone n => a.sent ++ (a.desk.pipeline.nextWriteBuffer.getD []).take n
        | .clearAll _ => []
        | _ => a.sent }

end Steps

/-- The counters are what the queues say, within the limits, and what was sent are the requests
of the connection in order, the one in front perhaps in part. -/
structure Exact (allowed : Limits) (a : Account σ μ ε) : Prop where
  limits : a.desk.pipeline.limits = allowed
  bytes : a.desk.pipeline.pendingWriteBytes = unwrittenBytes a.desk.pipeline.pendingWrite
  bounded : a.desk.pipeline.pendingWriteBytes ≤ allowed.maxPendingWriteBytes
  counted : a.desk.pipeline.pendingCount ≤ allowed.maxRequests
  settled : a.desk.settled ≤ a.desk.requests.length
  sent : ∃ earlier, a.desk.current = earlier ++ a.desk.pending ∧
    a.sent = wires earlier ++ begun a.desk.pipeline.pendingWrite
  unbegun : ∀ item ∈ a.desk.pipeline.pendingWrite.tail, item.written = 0

namespace Exact

variable {allowed : Limits} {a next : Account σ μ ε}

theorem start (allowed : Limits) : Exact allowed (Account.start allowed : Account σ μ ε) where
  limits := rfl
  bytes := rfl
  bounded := Nat.zero_le _
  counted := Nat.zero_le _
  settled := Nat.le_refl 0
  sent := ⟨[], rfl, rfl⟩
  unbegun := by simp [Account.start, Desk.start]

/-- What was sent is the beginning of what was accepted. -/
theorem sent_prefix (exact : Exact allowed a) : a.sent <+: wires a.desk.current := by
  obtain ⟨earlier, current, sent⟩ := exact.sent
  rw [sent, current, wires, wires, List.flatMap_append]
  apply (List.prefix_append_right_inj _).mpr
  cases queue : a.desk.pipeline.pendingWrite with
  | nil => exact List.nil_prefix
  | cons front rest =>
    simp only [begun, Desk.pending, queue, List.map_cons, List.flatMap_cons]
    exact (List.take_prefix _ _).trans (List.prefix_append _ _)

/-- As many octets as the write buffer holds can be reported: no assertion fails. -/
theorem writable (exact : Exact allowed a) {buffer : Bytes} {n : Nat}
    (shown : a.desk.pipeline.nextWriteBuffer = some buffer) (fits : n ≤ buffer.length) :
    ∃ pipeline, a.desk.pipeline.onWriteDone n = some pipeline := by
  have bytes := exact.bytes
  cases queue : a.desk.pipeline.pendingWrite with
  | nil => simp [nextWriteBuffer, queue] at shown
  | cons front rest =>
    simp only [nextWriteBuffer, queue, List.head?_cons, Option.map_some, Option.some.injEq] at shown
    rw [← shown, PendingItem.unwritten, List.length_drop] at fits
    rw [queue, unwrittenBytes, List.map_cons, List.sum_cons] at bytes
    have within : n ≤ front.req.wire.length - front.written ∧ n ≤ a.desk.pipeline.pendingWriteBytes := by omega
    by_cases whole : front.written + n = front.req.wire.length <;> simp [onWriteDone, queue, within, whole]

/-! What each operation does to the books. -/

theorem accept (exact : Exact allowed a) {req : Request} {sink : σ} {deadline : TimePoint}
    (accepted : a.desk.pipeline.push req a.desk.sinks.cells.length deadline ≠ none) :
    Exact allowed { a with desk := a.desk.accept req sink deadline } := by
  rw [ne_eq, push_eq_none_iff, not_or, exact.limits] at accepted
  obtain ⟨earlier, current, sent⟩ := exact.sent
  refine ⟨exact.limits, ?_, ?_, ?_, ?_, ⟨earlier, ?_, ?_⟩, ?_⟩
  · simp [unwrittenBytes, exact.bytes, PendingItem.unsent]
  · dsimp only
    omega
  · have counted :
      a.desk.pipeline.pendingWrite.length + a.desk.pipeline.awaitingRead.length + 1 ≤ allowed.maxRequests :=
      Nat.le_of_not_lt accepted.1
    simp only [pendingCount, List.length_append, List.length_singleton]
    omega
  · simp only [List.length_append]
    exact Nat.le_add_right_of_le exact.settled
  · have longer : (a.desk.requests ++ [(⟨a.desk.sinks.cells.length, req⟩ : Ticket)]).drop a.desk.settled =
        a.desk.current ++ [⟨a.desk.sinks.cells.length, req⟩] := List.drop_append_of_le_length exact.settled
    simp only [Desk.current, Desk.pending, List.map_append]
    rw [longer, current, List.append_assoc]
    rfl
  · rw [begun_concat]
    exact sent
  · exact unbegun_concat exact.unbegun req a.desk.sinks.cells.length deadline

section Writes

variable {front : PendingItem} {rest : List PendingItem} {n : Nat}

/-- The request in front is written to its end, and none of the next one is. -/
theorem wroteWhole (exact : Exact allowed a) (queue : a.desk.pipeline.pendingWrite = front :: rest)
    (whole : front.written + n = front.req.wire.length) :
    Exact allowed ⟨a.desk.wroteWhole front rest n, a.sent ++ front.unwritten.take n⟩ := by
  have bytes := exact.bytes
  have unbegun := exact.unbegun
  have bounded := exact.bounded
  have counted := exact.counted
  obtain ⟨earlier, current, sent⟩ := exact.sent
  rw [queue] at bytes unbegun sent
  rw [unwrittenBytes, List.map_cons, List.sum_cons] at bytes
  refine ⟨exact.limits, ?_, ?_, ?_, exact.settled, ⟨earlier ++ [front.ticket], ?_, ?_⟩, ?_⟩
  · simp only [unwrittenBytes]
    omega
  · dsimp only
    omega
  · simp only [pendingCount, queue, List.length_cons, List.length_append, List.length_nil] at counted ⊢
    omega
  · rw [Desk.pending, queue, List.map_cons] at current
    rw [List.append_assoc]
    exact current
  · have none : begun rest = [] := by
      cases rest with
      | nil => rfl
      | cons second others => simp [begun, unbegun second List.mem_cons_self]
    have written : front.req.wire.take front.written ++ front.unwritten.take n = front.req.wire := by
      rw [PendingItem.unwritten, ← List.take_add, whole, List.take_length]
    rw [none, List.append_nil, sent, wires, wires, List.flatMap_append, List.flatMap_singleton, List.append_assoc,
      begun]
    exact congrArg _ written
  · intro item member
    exact unbegun item (List.mem_of_mem_tail member)

theorem wroteSome (exact : Exact allowed a) (queue : a.desk.pipeline.pendingWrite = front :: rest)
    (within : front.written + n ≤ front.req.wire.length) :
    Exact allowed ⟨a.desk.wroteSome front rest n within, a.sent ++ front.unwritten.take n⟩ := by
  have bytes := exact.bytes
  have unbegun := exact.unbegun
  have bounded := exact.bounded
  have counted := exact.counted
  obtain ⟨earlier, current, sent⟩ := exact.sent
  rw [queue] at bytes unbegun sent
  rw [unwrittenBytes, List.map_cons, List.sum_cons] at bytes
  refine ⟨exact.limits, ?_, ?_, ?_, exact.settled, ⟨earlier, ?_, ?_⟩, unbegun⟩
  · simp only [unwrittenBytes, List.map_cons, List.sum_cons]
    omega
  · dsimp only
    omega
  · simp only [pendingCount, queue, List.length_cons] at counted ⊢
    exact counted
  · rw [Desk.pending, queue] at current
    exact current
  · rw [sent, List.append_assoc, begun, begun, PendingItem.unwritten, List.take_add]

end Writes

variable [ResponseSink σ μ ε]

theorem answered (exact : Exact allowed a) {front : AwaitingItem} {rest : List AwaitingItem} {delivery : Delivery μ ε}
    (queue : a.desk.pipeline.awaitingRead = front :: rest) (complete : Bool) :
    Exact allowed { a with
      desk := a.desk.answered (if complete then { a.desk.pipeline with awaitingRead := rest } else a.desk.pipeline)
        front.sink delivery } := by
  cases complete with
  | false => exact ⟨exact.limits, exact.bytes, exact.bounded, exact.counted, exact.settled, exact.sent, exact.unbegun⟩
  | true =>
    have counted := exact.counted
    refine ⟨exact.limits, exact.bytes, exact.bounded, ?_, exact.settled, exact.sent, exact.unbegun⟩
    simp only [pendingCount, queue, List.length_cons, if_true] at counted ⊢
    omega

omit [ResponseSink σ μ ε] in
theorem wiped (exact : Exact allowed a) (sinks : Sinks σ μ ε) : Exact allowed ⟨a.desk.wiped sinks, []⟩ where
  limits := exact.limits
  bytes := rfl
  bounded := Nat.zero_le _
  counted := Nat.zero_le _
  settled := Nat.le_refl _
  sent := ⟨[], by simp [Desk.current, Desk.pending], rfl⟩
  unbegun := by simp

theorem step {fuel : Nat} {op : Operation σ μ ε} (exact : Exact allowed a) (stepped : a.step fuel op = some next) :
    Exact allowed next := by
  obtain ⟨d, moved, rfl⟩ := Option.map_eq_some_iff.mp stepped
  have replied {delivery : Delivery μ ε}
      (answer : a.desk.replied delivery (a.desk.pipeline.dispatch delivery a.desk.sinks) = some d) :
      Exact allowed ⟨d, a.sent⟩ := by
    obtain ⟨front, rest, queue, rfl⟩ := Desk.replied_cases answer
    exact exact.answered queue _
  cases op with
  | push req sink deadline =>
    rcases Desk.push_cases moved with ⟨-, rfl⟩ | ⟨accepted, rfl⟩
    · exact ⟨exact.limits, exact.bytes, exact.bounded, exact.counted, exact.settled, exact.sent, exact.unbegun⟩
    · exact exact.accept accepted
  | writeDone n =>
    obtain ⟨front, rest, queue, fits, ⟨whole, rfl⟩ | ⟨within, rfl⟩⟩ := Desk.writeDone_cases moved
    · simpa [nextWriteBuffer, queue] using exact.wroteWhole queue whole
    · simpa [nextWriteBuffer, queue] using exact.wroteSome queue within
  | message msg => exact replied moved
  | error err => exact replied moved
  | clearAll err =>
    obtain ⟨sinks, rfl⟩ := Desk.clearAll_cases moved
    exact exact.wiped sinks

theorem run {fuel : Nat} {ops : List (Operation σ μ ε)}
    (reached : runFrom (Account.step fuel) (Account.start allowed) ops = some a) : Exact allowed a := by
  have free : Guarded (Account.step fuel) (fun _ _ => True) (Account.start allowed) ops := guarded_true ops
  exact runFrom_invariant (Exact allowed) (fun _ _ _ exact _ stepped => exact.step stepped)
    (.start allowed) free reached

end Exact

/-- In every state the counter is the sum over the queue and both limits hold, `on_write_done`
meets its assertions for as many octets as the write buffer holds, a request is refused exactly
where it would exceed a limit and then changes nothing, and what was reported as written since
the last `clear_all` is the beginning of what was accepted since. -/
theorem accounts_exact [ResponseSink σ μ ε] {fuel : Nat} {limits : Limits} {ops : List (Operation σ μ ε)}
    {a : Account σ μ ε} (run : runFrom (step fuel) (start limits) ops = some a) :
    (a.desk.pipeline.pendingWriteBytes = unwrittenBytes a.desk.pipeline.pendingWrite ∧
      a.desk.pipeline.pendingWriteBytes ≤ limits.maxPendingWriteBytes ∧
      a.desk.pipeline.pendingCount ≤ limits.maxRequests) ∧
    (∀ (buffer : Bytes) (n : Nat), a.desk.pipeline.nextWriteBuffer = some buffer → n ≤ buffer.length →
      ∃ pipeline, a.desk.pipeline.onWriteDone n = some pipeline) ∧
    (∀ (req : Request) (ref : SinkRef) (deadline : TimePoint), a.desk.pipeline.push req ref deadline = none ↔
      limits.maxRequests < a.desk.pipeline.pendingCount + 1 ∨
        limits.maxPendingWriteBytes < a.desk.pipeline.pendingWriteBytes + req.wire.length) ∧
    (∀ (req : Request) (sink : σ) (deadline : TimePoint) (next : Account σ μ ε),
      a.desk.pipeline.push req a.desk.sinks.cells.length deadline = none →
      a.step fuel (.push req sink deadline) = some next → next.desk.pipeline = a.desk.pipeline) ∧
    a.sent <+: wires a.desk.current := by
  have exact := Exact.run run
  refine ⟨⟨exact.bytes, exact.bounded, exact.counted⟩, fun buffer n shown fits => exact.writable shown fits,
    fun req ref deadline => ?_, fun req sink deadline next refused stepped => ?_, exact.sent_prefix⟩
  · rw [push_eq_none_iff, exact.limits]
  · obtain ⟨d, moved, rfl⟩ := Option.map_eq_some_iff.mp stepped
    rcases Desk.push_cases moved with ⟨-, rfl⟩ | ⟨accepted, -⟩
    · rfl
    · exact absurd refused accepted

/-- Two requests, the first written and the second begun. -/
theorem accounts_exact_begun :
    ∃ a : Account (PendingResponse fun _ => (Except.ok : Bool → Except Unit Bool)) Bool Unit,
      runFrom (step 4) (start {}) [.push ⟨[80, 73], 1⟩ { expected := 1 } ⊤, .push ⟨[78, 71, 13], 1⟩ { expected := 1 } ⊤,
        .writeDone 2, .writeDone 1] = some a ∧ a.sent = [80, 73, 78] ∧ a.sent <+: wires a.desk.current := by
  have run : ((runFrom (step 4) (start {}) [.push ⟨[80, 73], 1⟩ { expected := 1 } ⊤,
      .push ⟨[78, 71, 13], 1⟩ { expected := 1 } ⊤, .writeDone 2, .writeDone 1]).map
      (Account.sent (σ := PendingResponse fun _ => (Except.ok : Bool → Except Unit Bool)))) = some [80, 73, 78] := by
    decide +kernel
  obtain ⟨a, run, sent⟩ := Option.map_eq_some_iff.mp run
  exact ⟨a, run, sent, (accounts_exact run).2.2.2.2⟩

end Account

/-! Deadlines. -/

/-- The deadlines of the queued requests, those that are written first. -/
def deadlines (p : Pipeline) : List TimePoint :=
  p.awaitingRead.map AwaitingItem.deadline ++ p.pendingWrite.map PendingItem.deadline

/-- The least of some deadlines. -/
def earliest (times : List TimePoint) : TimePoint := times.foldr min ⊤

theorem earliest_append (first second : List TimePoint) :
    earliest (first ++ second) = min (earliest first) (earliest second) := by
  induction first with
  | nil => simp [earliest]
  | cons time rest ih =>
    simp only [earliest, List.cons_append, List.foldr_cons] at ih ⊢
    rw [ih, min_assoc]

theorem le_earliest {bound : TimePoint} {times : List TimePoint} (all : ∀ time ∈ times, bound ≤ time) :
    bound ≤ earliest times := by
  induction times with
  | nil => exact le_top
  | cons time rest ih =>
    rw [List.forall_mem_cons] at all
    exact le_min all.1 (ih all.2)

theorem earliest_sorted {times : List TimePoint} (sorted : times.Pairwise (· ≤ ·)) :
    earliest times = times.head?.getD ⊤ := by
  cases sorted with
  | nil => rfl
  | cons first rest => exact min_eq_left (le_earliest first)

/-- Only a request with a deadline can be overdue. -/
theorem earliest_le_iff (times : List TimePoint) (now : Nat) :
    earliest times ≤ now ↔ ∃ time ∈ times, time ≤ (now : TimePoint) := by
  induction times with
  | nil => simp [earliest]
  | cons time rest ih =>
    simp only [earliest, List.foldr_cons, min_le_iff, List.exists_mem_cons_iff] at ih ⊢
    rw [ih]

theorem nextDeadline_eq {p : Pipeline} (sorted : p.deadlines.Pairwise (· ≤ ·)) :
    p.nextDeadline = earliest p.deadlines := by
  obtain ⟨awaiting, pending, -⟩ := List.pairwise_append.mp sorted
  rw [deadlines, earliest_append, earliest_sorted awaiting, earliest_sorted pending, List.head?_map, List.head?_map,
    min_comm]
  rfl

def Operation.deadline : Operation σ μ ε → Option TimePoint
  | .push _ _ deadline => some deadline
  | _ => none

variable [ResponseSink σ μ ε]

/-- A step leaves the deadlines in their order, with that of a pushed request at the end. -/
theorem Desk.deadlines_step {d next : Desk σ μ ε} {fuel : Nat} {op : Operation σ μ ε}
    (stepped : d.step fuel op = some next) :
    (next.pipeline.deadlines).Sublist (d.pipeline.deadlines ++ op.deadline.toList) := by
  have replied {delivery : Delivery μ ε}
      (answer : d.replied delivery (d.pipeline.dispatch delivery d.sinks) = some next) :
      (next.pipeline.deadlines).Sublist d.pipeline.deadlines := by
    obtain ⟨front, rest, queue, rfl⟩ := replied_cases answer
    dsimp only
    split
    · simp [deadlines, queue]
    · exact .refl _
  cases op with
  | push req sink deadline =>
    rcases push_cases stepped with ⟨-, rfl⟩ | ⟨-, rfl⟩
    · exact List.sublist_append_left _ _
    · simp [deadlines, Operation.deadline, PendingItem.unsent]
  | writeDone n =>
    obtain ⟨front, rest, queue, fits, ⟨whole, rfl⟩ | ⟨within, rfl⟩⟩ := writeDone_cases stepped
    · simp [deadlines, queue]
    · simp [deadlines, queue]
  | message msg => exact (replied stepped).trans (List.sublist_append_left _ _)
  | error err => exact (replied stepped).trans (List.sublist_append_left _ _)
  | clearAll err =>
    obtain ⟨sinks, rfl⟩ := clearAll_cases stepped
    exact List.nil_sublist _

/-- The deadlines in the queues and those still to be pushed stay in order. -/
theorem Desk.deadlines_run {d last : Desk σ μ ε} {fuel : Nat} {ops : List (Operation σ μ ε)}
    (sorted : (d.pipeline.deadlines ++ ops.filterMap Operation.deadline).Pairwise (· ≤ ·))
    (run : runFrom (step fuel) d ops = some last) : last.pipeline.deadlines.Pairwise (· ≤ ·) := by
  induction ops generalizing d with
  | nil =>
    cases run
    simpa using sorted
  | cons op rest ih =>
    obtain ⟨next, stepped, run⟩ := runFrom_cons run
    have ordered : op.deadline.toList ++ rest.filterMap Operation.deadline =
        (op :: rest).filterMap Operation.deadline := by
      cases known : op.deadline with
      | none => simp [known]
      | some time => simp [known]
    rw [← ordered, ← List.append_assoc] at sorted
    exact ih (sorted.sublist ((deadlines_step stepped).append_right _)) run

/-- Where requests are pushed with deadlines in order, the one that `next_deadline` returns is the
earliest of all queued requests, and `has_expired` tells whether one of them is overdue. -/
theorem Desk.deadline_earliest {fuel : Nat} {limits : Limits} {ops : List (Operation σ μ ε)} {d : Desk σ μ ε}
    (ordered : (ops.filterMap Operation.deadline).Pairwise (· ≤ ·))
    (run : runFrom (step fuel) (start limits) ops = some d) :
    d.pipeline.nextDeadline = earliest d.pipeline.deadlines ∧
      ∀ now : Nat, d.pipeline.hasExpired now = true ↔ ∃ time ∈ d.pipeline.deadlines, time ≤ (now : TimePoint) := by
  have same := nextDeadline_eq (deadlines_run (d := start limits) ordered run)
  refine ⟨same, fun now => ?_⟩
  rw [hasExpired, same, ← earliest_le_iff]
  simp only [ne_eq, Bool.and_eq_true, decide_eq_true_eq, and_iff_right_iff_imp]
  rintro overdue top
  rw [top] at overdue
  exact absurd overdue (by simp)

omit [ResponseSink σ μ ε] in
/-- The request that is written waits for its reply with the earlier deadline. -/
theorem Desk.deadline_earliest_awaited :
    ∃ d : Desk (PendingResponse fun _ => (Except.ok : Bool → Except Unit Bool)) Bool Unit,
      runFrom (step 4) (start {}) [.push ⟨[80, 73], 1⟩ { expected := 1 } (5 : Nat),
        .push ⟨[78, 71, 13], 1⟩ { expected := 1 } (7 : Nat), .writeDone 2] = some d ∧
      d.pipeline.nextDeadline = earliest d.pipeline.deadlines ∧ d.pipeline.deadlines = [(5 : Nat), (7 : Nat)] := by
  have run : ((runFrom (step 4) (start {}) [.push ⟨[80, 73], 1⟩ { expected := 1 } (5 : Nat),
      .push ⟨[78, 71, 13], 1⟩ { expected := 1 } (7 : Nat), .writeDone 2]).map
      fun d : Desk (PendingResponse fun _ => (Except.ok : Bool → Except Unit Bool)) Bool Unit => d.pipeline.deadlines) =
      some [((5 : Nat) : TimePoint), (7 : Nat)] := by decide +kernel
  obtain ⟨d, run, held⟩ := Option.map_eq_some_iff.mp run
  exact ⟨d, run, (deadline_earliest (by decide +kernel) run).1, held⟩

end Rediscoro.Pipeline

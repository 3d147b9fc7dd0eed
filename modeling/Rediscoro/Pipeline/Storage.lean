import Rediscoro.Pipeline.Delivery
import Rediscoro.Pipeline.RingQueue

/-! The pipeline over its two ring queues.

`Pipeline` keeps its queues as lists, which is what they are for. Here every
function of the pipeline works on ring queues as the source does: the item in
front is changed where it lies, an item is taken off only after it was read, and
`clear_all` goes round until a queue is empty. Whatever is asked of it, the
pipeline over ring queues answers as the pipeline over lists.
-/

set_option autoImplicit false

namespace Rediscoro.Pipeline

open Rediscoro.Semantics

namespace RingQueue

variable {α : Type}

/-- `empty()`. -/
def isEmpty (q : RingQueue α) : Bool := q.size == 0

/-- The element in front is changed through the reference that `front()` gives. -/
def setFront (q : RingQueue α) (value : α) : RingQueue α := { q with data := q.data.set q.head (some value) }

/-! How large a queue is. -/

theorem cap_popFront {q next : RingQueue α} (popped : q.popFront = some next) : next.cap = q.cap := by
  unfold popFront at popped
  split at popped
  · cases popped
    exact List.length_set
  · cases popped

@[simp] theorem cap_setFront (q : RingQueue α) (value : α) : (q.setFront value).cap = q.cap := List.length_set

@[simp] theorem size_setFront (q : RingQueue α) (value : α) : (q.setFront value).size = q.size := rfl

@[simp] theorem size_emplaceBack (q : RingQueue α) (value : α) : (q.emplaceBack value).size = q.size + 1 := by
  simp only [emplaceBack, construct, ensureCapacity]
  split <;> rfl

/-- One doubling is enough for one more element. -/
theorem grownCap_le {q : RingQueue α} {need : Nat} (short : q.cap < need) :
    q.grownCap need ≤ max 8 (2 * (need - 1)) := by
  apply run_invariant (growPass_decreases need) (fun newCap => newCap.val ≤ max 8 (2 * (need - 1)))
    (fun newCap => newCap ≤ max 8 (2 * (need - 1)))
  · intro newCap next _ pass
    unfold growPass at pass
    split at pass
    · cases pass
      dsimp only
      omega
    · cases pass
  · intro newCap result within pass
    unfold growPass at pass
    split at pass
    · cases pass
    · cases pass
      exact within
  · dsimp only
    omega

theorem cap_emplaceBack_le {q : RingQueue α} {value : α} {bound : Nat} (within : q.cap ≤ max 8 (2 * bound))
    (few : q.size ≤ bound) : (q.emplaceBack value).cap ≤ max 8 (2 * bound) := by
  have enough := Represents.le_grownCap q (q.size + 1)
  simp only [emplaceBack, construct, cap, List.length_set]
  unfold ensureCapacity
  split
  · exact within
  · rename_i short
    have grown := grownCap_le (Nat.lt_of_not_le short)
    simp only [List.length_append, length_window, List.length_replicate]
    omega

namespace Represents

variable {q : RingQueue α} {values : List α} {value : α}

theorem isEmpty (represents : Represents q values) : q.isEmpty = values.isEmpty := by
  rw [RingQueue.isEmpty, represents.size_eq]
  cases values with
  | nil => rfl
  | cons value rest => rfl

theorem front (represents : Represents q values) : q.front = values.head? := by
  cases values with
  | nil => exact represents.none_left.1
  | cons value rest => exact represents.pop.1

theorem setFront (represents : Represents q (value :: values)) (new : α) :
    Represents (q.setFront new) (new :: values) := by
  have size : q.size = values.length + 1 := represents.size_eq
  have fits : values.length < q.data.length := by
    have := represents.fits
    rw [cap] at this
    omega
  have start : q.head < q.data.length := by
    rcases represents.within with inside | ⟨-, none⟩
    · exact inside
    · rw [cap] at none
      omega
  have rest := represents.contents
  rw [size, window_pop fits start (some new), List.map_cons, List.cons.injEq] at rest
  apply Represents.mk
  · simp only [RingQueue.setFront, cap, List.length_set]
    exact represents.fits
  · simp only [RingQueue.setFront, cap, List.length_set]
    exact represents.within
  · -- the cells behind the first are those of the old window
    have inside : q.head < (q.data.set q.head (some new)).length := by rwa [List.length_set]
    have room : values.length < (q.data.set q.head (some new)).length := by rwa [List.length_set]
    simp only [RingQueue.setFront, size]
    rw [window_pop room inside (some new), List.set_set, List.length_set, rest.2]
    simp [start]

end Represents

end RingQueue

/-! The functions of the pipeline. -/

structure Stored where
  pendingWrite : RingQueue PendingItem := {}
  awaitingRead : RingQueue AwaitingItem := {}
  limits : Limits := {}
  pendingWriteBytes : Nat := 0

namespace Stored

def pendingCount (p : Stored) : Nat := p.pendingWrite.size + p.awaitingRead.size

def hasPendingWrite (p : Stored) : Bool := !p.pendingWrite.isEmpty

def hasPendingRead (p : Stored) : Bool := !p.awaitingRead.isEmpty

def push (p : Stored) (req : Request) (sink : SinkRef) (deadline : TimePoint) : Option Stored :=
  if p.limits.maxRequests ≤ p.pendingCount then none
  else if p.limits.maxPendingWriteBytes < req.wire.length ∨
      p.limits.maxPendingWriteBytes - req.wire.length < p.pendingWriteBytes then none
  else
    some { p with
      pendingWriteBytes := p.pendingWriteBytes + req.wire.length
      pendingWrite := p.pendingWrite.emplaceBack (.unsent req sink deadline) }

def nextWriteBuffer (p : Stored) : Option Bytes := p.pendingWrite.front.map PendingItem.unwritten

/-- `front.written += n`. -/
def advance (front : PendingItem) (n : Nat) (fits : n ≤ front.req.wire.length - front.written) : PendingItem :=
  { front with
    written := front.written + n
    written_le := Nat.add_comm n front.written ▸ (Nat.le_sub_iff_add_le front.written_le).mp fits }

/-- `none` where an assertion of the source fails, be it one of the queue. -/
def onWriteDone (p : Stored) (n : Nat) : Option Stored :=
  match p.pendingWrite.front with
  | none => none
  | some front =>
      if fits : n ≤ front.req.wire.length - front.written ∧ n ≤ p.pendingWriteBytes then
        let pendingWrite := p.pendingWrite.setFront (advance front n fits.1)
        if (advance front n fits.1).written = front.req.wire.length then
          pendingWrite.popFront.map fun rest =>
            { p with
              pendingWriteBytes := p.pendingWriteBytes - n
              awaitingRead := p.awaitingRead.emplaceBack ⟨front.sink, front.deadline⟩
              pendingWrite := rest }
        else some { p with pendingWriteBytes := p.pendingWriteBytes - n, pendingWrite := pendingWrite }
      else none

def nextDeadline (p : Stored) : TimePoint :=
  min ((p.pendingWrite.front.map PendingItem.deadline).getD ⊤) ((p.awaitingRead.front.map AwaitingItem.deadline).getD ⊤)

def hasExpired (p : Stored) (now : Nat) : Bool := p.nextDeadline ≠ ⊤ && p.nextDeadline ≤ (now : TimePoint)

section Replies

variable {ι σ μ ε : Type} [ResponseSink σ μ ε]

def dispatch (p : Stored) (delivery : Delivery μ ε) (sinks : Sinks σ μ ε) : Option (Stored × Sinks σ μ ε) :=
  match p.awaitingRead.front with
  | none => none
  | some front =>
      let sinks := sinks.deliver front.sink delivery
      if sinks.isComplete front.sink then
        p.awaitingRead.popFront.map fun rest => ({ p with awaitingRead := rest }, sinks)
      else some (p, sinks)

/-- One round of a loop of `clear_all`: the sink in front fails, and then its item goes. -/
def clearRound (sinkOf : ι → SinkRef) (fuel : Nat) (err : ε) (state : RingQueue ι × Sinks σ μ ε) :
    Pass (RingQueue ι × Sinks σ μ ε) (Option (RingQueue ι × Sinks σ μ ε)) :=
  if state.1.isEmpty then .leave (some state)
  else
    match state.1.front with
    | none => .leave none
    | some item =>
        match state.2.failAll fuel err (sinkOf item) with
        | none => .leave none
        | some sinks =>
            match state.1.popFront with
            | none => .leave none
            | some rest => .again (rest, sinks)

theorem clearRound_again {sinkOf : ι → SinkRef} {fuel : Nat} {err : ε} {state next : RingQueue ι × Sinks σ μ ε}
    (round : clearRound sinkOf fuel err state = .again next) : state.1.popFront = some next.1 := by
  unfold clearRound at round
  split at round
  · cases round
  · split at round
    · cases round
    · split at round
      · cases round
      · split at round
        · cases round
        · rename_i popped
          cases round
          exact popped

theorem clearRound_leave {sinkOf : ι → SinkRef} {fuel : Nat} {err : ε} {state final : RingQueue ι × Sinks σ μ ε}
    (round : clearRound sinkOf fuel err state = .leave (some final)) : state.1.isEmpty = true ∧ final = state := by
  unfold clearRound at round
  split at round
  · rename_i empty
    cases round
    exact ⟨empty, rfl⟩
  · split at round
    · cases round
    · split at round
      · cases round
      · split at round <;> cases round

theorem clearRound_decreases (sinkOf : ι → SinkRef) (fuel : Nat) (err : ε) :
    Decreases (clearRound (σ := σ) sinkOf fuel err) fun state => state.1.size :=
  fun _ _ round => RingQueue.size_popFront (clearRound_again round)

/-- `none` where an assertion fails, or some `fail_all` is still running after `fuel` rounds. -/
def clearAll (fuel : Nat) (p : Stored) (err : ε) (sinks : Sinks σ μ ε) : Option (Stored × Sinks σ μ ε) :=
  (run (clearRound_decreases PendingItem.sink fuel err) (p.pendingWrite, sinks)).bind fun (pendingWrite, sinks) =>
    (run (clearRound_decreases AwaitingItem.sink fuel err) (p.awaitingRead, sinks)).map fun (awaitingRead, sinks) =>
      ({ p with pendingWrite := pendingWrite, pendingWriteBytes := 0, awaitingRead := awaitingRead }, sinks)

end Replies

end Stored

/-! The pipeline over lists behind it. -/

/-- The two pipelines hold the same items in the same order. -/
structure Stored.Holds (p : Stored) (listed : Pipeline) : Prop where
  pendingWrite : p.pendingWrite.Represents listed.pendingWrite
  awaitingRead : p.awaitingRead.Represents listed.awaitingRead
  limits : p.limits = listed.limits
  pendingWriteBytes : p.pendingWriteBytes = listed.pendingWriteBytes

namespace Stored.Holds

variable {p : Stored} {listed : Pipeline}

theorem start (limits : Limits) : Holds { limits := limits } { limits := limits } :=
  ⟨.empty 0, .empty 0, rfl, rfl⟩

theorem pendingCount (holds : p.Holds listed) : p.pendingCount = listed.pendingCount := by
  rw [Stored.pendingCount, holds.pendingWrite.size_eq, holds.awaitingRead.size_eq]
  rfl

theorem hasPendingWrite (holds : p.Holds listed) : p.hasPendingWrite = listed.hasPendingWrite := by
  rw [Stored.hasPendingWrite, holds.pendingWrite.isEmpty]
  rfl

theorem hasPendingRead (holds : p.Holds listed) : p.hasPendingRead = listed.hasPendingRead := by
  rw [Stored.hasPendingRead, holds.awaitingRead.isEmpty]
  rfl

theorem nextWriteBuffer (holds : p.Holds listed) : p.nextWriteBuffer = listed.nextWriteBuffer := by
  rw [Stored.nextWriteBuffer, holds.pendingWrite.front]
  rfl

theorem nextDeadline (holds : p.Holds listed) : p.nextDeadline = listed.nextDeadline := by
  rw [Stored.nextDeadline, holds.pendingWrite.front, holds.awaitingRead.front]
  rfl

theorem push (holds : p.Holds listed) (req : Request) (sink : SinkRef) (deadline : TimePoint) :
    Option.Rel Holds (p.push req sink deadline) (listed.push req sink deadline) := by
  unfold Stored.push Pipeline.push
  rw [holds.pendingCount, holds.limits, holds.pendingWriteBytes]
  split
  · exact .none
  · split
    · exact .none
    · apply Option.Rel.some
      exact ⟨holds.pendingWrite.emplaceBack _, holds.awaitingRead, rfl, rfl⟩

theorem onWriteDone (holds : p.Holds listed) (n : Nat) :
    Option.Rel Holds (p.onWriteDone n) (listed.onWriteDone n) := by
  obtain ⟨pendingWrite, awaitingRead, limits, bytes⟩ := listed
  obtain ⟨pending, awaiting, sameLimits, sameBytes⟩ := holds
  have found := pending.front
  unfold Stored.onWriteDone Pipeline.onWriteDone
  cases pendingWrite with
  | nil =>
    simp only [found, List.head?_nil]
    exact .none
  | cons front rest =>
    simp only [found, List.head?_cons, sameBytes]
    by_cases fits : n ≤ front.req.wire.length - front.written ∧ n ≤ bytes
    · have changed := pending.setFront (advance front n fits.1)
      rw [dif_pos fits, dif_pos fits]
      by_cases whole : front.written + n = front.req.wire.length
      · -- the item is written to its end, and goes to the other queue
        obtain ⟨-, shorter, popped, represents⟩ := changed.pop
        have finished : (advance front n fits.1).written = front.req.wire.length := whole
        rw [if_pos finished, if_pos whole, popped]
        apply Option.Rel.some
        exact ⟨represents, awaiting.emplaceBack _, sameLimits, rfl⟩
      · have under : ¬ (advance front n fits.1).written = front.req.wire.length := whole
        rw [if_neg under, if_neg whole]
        apply Option.Rel.some
        exact ⟨changed, awaiting, sameLimits, rfl⟩
    · rw [dif_neg fits, dif_neg fits]
      exact .none

section Replies

variable {ι σ μ ε : Type} [ResponseSink σ μ ε]

/-- Pipelines that hold the same, with the same sinks. -/
def Alike (left : Stored × Sinks σ μ ε) (right : Pipeline × Sinks σ μ ε) : Prop :=
  left.1.Holds right.1 ∧ left.2 = right.2

theorem dispatch (holds : p.Holds listed) (delivery : Delivery μ ε) (sinks : Sinks σ μ ε) :
    Option.Rel Alike (p.dispatch delivery sinks) (listed.dispatch delivery sinks) := by
  obtain ⟨pendingWrite, awaitingRead, limits, bytes⟩ := listed
  obtain ⟨pending, awaiting, sameLimits, sameBytes⟩ := holds
  have found := awaiting.front
  unfold Stored.dispatch Pipeline.dispatch
  cases awaitingRead with
  | nil =>
    simp only [found, List.head?_nil]
    exact .none
  | cons front rest =>
    obtain ⟨-, shorter, popped, represents⟩ := awaiting.pop
    simp only [found, List.head?_cons, popped]
    split
    · apply Option.Rel.some
      exact ⟨⟨pending, represents, sameLimits, sameBytes⟩, rfl⟩
    · apply Option.Rel.some
      exact ⟨⟨pending, awaiting, sameLimits, sameBytes⟩, rfl⟩

/-- A loop of `clear_all` fails the sinks of the queue from its front on and leaves it empty. -/
theorem clearRounds (sinkOf : ι → SinkRef) (fuel : Nat) (err : ε) {q : RingQueue ι} {items : List ι}
    (represents : q.Represents items) (sinks : Sinks σ μ ε) :
    Option.Rel (fun left after => left.1.Represents [] ∧ left.2 = after)
      (run (clearRound_decreases sinkOf fuel err) (q, sinks)) (sinks.failEach fuel err (items.map sinkOf)) := by
  have empty := represents.isEmpty
  -- a round takes off the head of the list
  induction items generalizing q sinks with
  | nil =>
    have done : clearRound sinkOf fuel err (q, sinks) = .leave (some (q, sinks)) := if_pos empty
    rw [run_leave _ done]
    exact .some ⟨represents, rfl⟩
  | cons item rest ih =>
    obtain ⟨found, shorter, popped, later⟩ := represents.pop
    rw [List.map_cons, Sinks.failEach]
    cases failed : sinks.failAll fuel err (sinkOf item) with
    | none =>
      have stuck : clearRound sinkOf fuel err (q, sinks) = .leave none := by
        simp [clearRound, empty, found, failed]
      rw [run_leave _ stuck]
      exact .none
    | some after =>
      have goes : clearRound sinkOf fuel err (q, sinks) = .again (shorter, after) := by
        simp [clearRound, empty, found, failed, popped]
      rw [run_again _ goes]
      exact ih later after later.isEmpty

theorem clearAll (holds : p.Holds listed) (fuel : Nat) (err : ε) (sinks : Sinks σ μ ε) :
    Option.Rel Alike (p.clearAll fuel err sinks) (listed.clearAll fuel err sinks) := by
  have first := clearRounds PendingItem.sink fuel err holds.pendingWrite sinks
  unfold Stored.clearAll Pipeline.clearAll
  generalize run (clearRound_decreases PendingItem.sink fuel err) (p.pendingWrite, sinks) = left at first ⊢
  generalize sinks.failEach fuel err (listed.pendingWrite.map PendingItem.sink) = right at first ⊢
  cases first with
  | none => exact .none
  | @some pending after written =>
    obtain ⟨emptied, same⟩ := written
    have second := clearRounds AwaitingItem.sink fuel err holds.awaitingRead after
    simp only [Option.bind_some, same]
    generalize run (clearRound_decreases AwaitingItem.sink fuel err) (p.awaitingRead, after) = left at second ⊢
    generalize after.failEach fuel err (listed.awaitingRead.map AwaitingItem.sink) = right at second ⊢
    cases second with
    | none => exact .none
    | some read => exact .some ⟨⟨emptied, read.1, holds.limits, rfl⟩, read.2⟩

end Replies

end Stored.Holds

/-! Runs. -/

/-- A pipeline over ring queues with the sinks it answers to. -/
structure Depot (σ μ ε : Type) where
  pipeline : Stored
  sinks : Sinks σ μ ε := {}

namespace Depot

variable {σ μ ε : Type}

def start (limits : Limits) : Depot σ μ ε := { pipeline := { limits := limits } }

/-- The depot holds what the desk holds. -/
def Keeps (depot : Depot σ μ ε) (desk : Desk σ μ ε) : Prop :=
  depot.pipeline.Holds desk.pipeline ∧ depot.sinks = desk.sinks

variable [ResponseSink σ μ ε]

def step (fuel : Nat) (depot : Depot σ μ ε) : Operation σ μ ε → Option (Depot σ μ ε)
  | .push req sink deadline =>
      match depot.pipeline.push req (depot.sinks.alloc sink).1 deadline with
      | none => some { depot with sinks := (depot.sinks.alloc sink).2 }
      | some pipeline => some ⟨pipeline, (depot.sinks.alloc sink).2⟩
  | .writeDone n => (depot.pipeline.onWriteDone n).map fun pipeline => { depot with pipeline := pipeline }
  | .message msg => (depot.pipeline.dispatch (.message msg) depot.sinks).map fun (pipeline, sinks) => ⟨pipeline, sinks⟩
  | .error err => (depot.pipeline.dispatch (.error err) depot.sinks).map fun (pipeline, sinks) => ⟨pipeline, sinks⟩
  | .clearAll err => (depot.pipeline.clearAll fuel err depot.sinks).map fun (pipeline, sinks) => ⟨pipeline, sinks⟩

variable {depot : Depot σ μ ε} {desk : Desk σ μ ε}

theorem Keeps.replied (keeps : depot.Keeps desk) (delivery : Delivery μ ε) :
    Option.Rel Keeps
      ((depot.pipeline.dispatch delivery depot.sinks).map fun result => (⟨result.1, result.2⟩ : Depot σ μ ε))
      (desk.replied delivery (desk.pipeline.dispatch delivery desk.sinks)) := by
  have alike := keeps.1.dispatch delivery desk.sinks
  rw [keeps.2]
  generalize depot.pipeline.dispatch delivery desk.sinks = left at alike ⊢
  generalize desk.pipeline.dispatch delivery desk.sinks = right at alike ⊢
  cases alike with
  | none => exact .none
  | some same => exact .some same

/-- Every operation on the depot ends as it ends on the desk, a failed assertion included. -/
theorem Keeps.step (keeps : depot.Keeps desk) (fuel : Nat) (op : Operation σ μ ε) :
    Option.Rel Keeps (depot.step fuel op) (desk.step fuel op) := by
  cases op with
  | push req sink deadline =>
    have alike := keeps.1.push req (desk.sinks.alloc sink).1 deadline
    simp only [Depot.step, Desk.step, keeps.2]
    generalize depot.pipeline.push req (desk.sinks.alloc sink).1 deadline = left at alike ⊢
    generalize desk.pipeline.push req (desk.sinks.alloc sink).1 deadline = right at alike ⊢
    cases alike with
    | none => exact .some ⟨keeps.1, rfl⟩
    | some same => exact .some ⟨same, rfl⟩
  | writeDone n =>
    have alike := keeps.1.onWriteDone n
    simp only [Depot.step, Desk.step]
    cases head : desk.pipeline.pendingWrite with
    | nil =>
      -- with nothing queued both assert
      have none : desk.pipeline.onWriteDone n = none := by rw [Pipeline.onWriteDone, head]
      rw [none] at alike ⊢
      generalize depot.pipeline.onWriteDone n = left at alike ⊢
      cases alike
      exact .none
    | cons front rest =>
      generalize depot.pipeline.onWriteDone n = left at alike ⊢
      generalize desk.pipeline.onWriteDone n = right at alike ⊢
      cases alike with
      | none => exact .none
      | some same => exact .some ⟨same, keeps.2⟩
  | message msg => exact keeps.replied (.message msg)
  | error err => exact keeps.replied (.error err)
  | clearAll err =>
    have alike := keeps.1.clearAll fuel err desk.sinks
    simp only [Depot.step, Desk.step, keeps.2]
    generalize depot.pipeline.clearAll fuel err desk.sinks = left at alike ⊢
    generalize desk.pipeline.clearAll fuel err desk.sinks = right at alike ⊢
    cases alike with
    | none => exact .none
    | some same => exact .some same

/-- Whatever is asked of it, the pipeline over ring queues accepts, refuses, delivers and answers
as the pipeline over lists. -/
theorem answers_as_lists (fuel : Nat) (limits : Limits) (ops : List (Operation σ μ ε)) :
    Option.Rel
      (fun (depot : Depot σ μ ε) (desk : Desk σ μ ε) =>
        depot.sinks = desk.sinks ∧
        depot.pipeline.hasPendingWrite = desk.pipeline.hasPendingWrite ∧
        depot.pipeline.hasPendingRead = desk.pipeline.hasPendingRead ∧
        depot.pipeline.nextWriteBuffer = desk.pipeline.nextWriteBuffer ∧
        depot.pipeline.pendingCount = desk.pipeline.pendingCount ∧
        depot.pipeline.pendingWriteBytes = desk.pipeline.pendingWriteBytes ∧
        ∀ now, depot.pipeline.hasExpired now = desk.pipeline.hasExpired now)
      (runFrom (step fuel) (start limits) ops) (runFrom (Desk.step fuel) (Desk.start limits) ops) := by
  have begun : (start limits : Depot σ μ ε).Keeps (Desk.start limits) := ⟨.start limits, rfl⟩
  have alike := runFrom_related (fun _ _ op keeps => Keeps.step keeps fuel op) begun ops
  generalize runFrom (step fuel) (start limits) ops = left at alike ⊢
  generalize runFrom (Desk.step fuel) (Desk.start limits) ops = right at alike ⊢
  cases alike with
  | none => exact .none
  | some same =>
    apply Option.Rel.some
    obtain ⟨holds, sinks⟩ := same
    refine ⟨sinks, holds.hasPendingWrite, holds.hasPendingRead, holds.nextWriteBuffer, holds.pendingCount,
      holds.pendingWriteBytes, fun now => ?_⟩
    rw [Stored.hasExpired, Pipeline.hasExpired, holds.nextDeadline]

end Depot

/-! How much the queues keep. -/

/-- The requests are within the limit, and the cells within twice as many. -/
structure Stored.Bounded (allowed : Limits) (p : Stored) : Prop where
  limits : p.limits = allowed
  counted : p.pendingCount ≤ allowed.maxRequests
  pendingWrite : p.pendingWrite.cap ≤ max 8 (2 * allowed.maxRequests)
  awaitingRead : p.awaitingRead.cap ≤ max 8 (2 * allowed.maxRequests)

namespace Stored.Bounded

variable {allowed : Limits} {p q : Stored}

theorem push {req : Request} {sink : SinkRef} {deadline : TimePoint} (bounded : p.Bounded allowed)
    (pushed : p.push req sink deadline = some q) : q.Bounded allowed := by
  obtain ⟨limits, counted, pendingWrite, awaitingRead⟩ := bounded
  unfold Stored.push at pushed
  split at pushed
  · cases pushed
  · rename_i free
    split at pushed
    · cases pushed
    · cases pushed
      rw [limits] at free
      simp only [pendingCount] at free counted
      refine ⟨limits, ?_, RingQueue.cap_emplaceBack_le pendingWrite (by omega), awaitingRead⟩
      simp only [pendingCount, RingQueue.size_emplaceBack]
      omega

theorem onWriteDone {n : Nat} (bounded : p.Bounded allowed) (written : p.onWriteDone n = some q) :
    q.Bounded allowed := by
  obtain ⟨limits, counted, pendingWrite, awaitingRead⟩ := bounded
  simp only [pendingCount] at counted
  unfold Stored.onWriteDone at written
  split at written
  · cases written
  · split at written
    · split at written
      · -- one request less to write, one more to read for
        obtain ⟨rest, popped, rfl⟩ := Option.map_eq_some_iff.mp written
        have smaller := RingQueue.size_popFront popped
        have same := RingQueue.cap_popFront popped
        simp only [RingQueue.cap_setFront, RingQueue.size_setFront] at smaller same
        refine ⟨limits, ?_, same.trans_le pendingWrite, RingQueue.cap_emplaceBack_le awaitingRead (by omega)⟩
        simp only [pendingCount, RingQueue.size_emplaceBack]
        omega
      · cases written
        exact ⟨limits, counted, (RingQueue.cap_setFront _ _).trans_le pendingWrite, awaitingRead⟩
    · cases written

section Replies

variable {ι σ μ ε : Type} [ResponseSink σ μ ε]

theorem dispatch {delivery : Delivery μ ε} {sinks : Sinks σ μ ε} {result : Stored × Sinks σ μ ε}
    (bounded : p.Bounded allowed) (dispatched : p.dispatch delivery sinks = some result) :
    result.1.Bounded allowed := by
  obtain ⟨limits, counted, pendingWrite, awaitingRead⟩ := bounded
  unfold Stored.dispatch at dispatched
  split at dispatched
  · cases dispatched
  · dsimp only at dispatched
    split at dispatched
    · obtain ⟨rest, popped, rfl⟩ := Option.map_eq_some_iff.mp dispatched
      have smaller := RingQueue.size_popFront popped
      refine ⟨limits, ?_, pendingWrite, (RingQueue.cap_popFront popped).trans_le awaitingRead⟩
      simp only [pendingCount] at counted ⊢
      omega
    · cases dispatched
      exact ⟨limits, counted, pendingWrite, awaitingRead⟩

/-- A queue that was emptied keeps its cells. -/
theorem cleared {sinkOf : ι → SinkRef} {fuel : Nat} {err : ε} {before after : RingQueue ι × Sinks σ μ ε}
    (left : run (clearRound_decreases (σ := σ) sinkOf fuel err) before = some after) :
    after.1.size = 0 ∧ after.1.cap = before.1.cap := by
  have kept := run_invariant (clearRound_decreases (σ := σ) sinkOf fuel err) (fun state => state.1.cap = before.1.cap)
    (fun result => ∀ state, result = some state → state.1.size = 0 ∧ state.1.cap = before.1.cap)
  apply kept _ _ before rfl after left
  · intro state next same round
    exact (RingQueue.cap_popFront (clearRound_again round)).trans same
  · rintro state result same round final rfl
    obtain ⟨empty, rfl⟩ := clearRound_leave round
    exact ⟨beq_iff_eq.mp empty, same⟩

theorem clearAll {fuel : Nat} {err : ε} {sinks : Sinks σ μ ε} {result : Stored × Sinks σ μ ε}
    (bounded : p.Bounded allowed) (ended : p.clearAll fuel err sinks = some result) : result.1.Bounded allowed := by
  obtain ⟨limits, counted, pendingWrite, awaitingRead⟩ := bounded
  obtain ⟨first, pending, ended⟩ := Option.bind_eq_some_iff.mp ended
  obtain ⟨second, awaiting, rfl⟩ := Option.map_eq_some_iff.mp ended
  obtain ⟨noWrites, sameWrites⟩ := cleared pending
  obtain ⟨noReads, sameReads⟩ := cleared awaiting
  refine ⟨limits, ?_, sameWrites.trans_le pendingWrite, sameReads.trans_le awaitingRead⟩
  simp only [pendingCount, noWrites, noReads]
  omega

end Replies

end Stored.Bounded

namespace Depot

variable {σ μ ε : Type} [ResponseSink σ μ ε] {allowed : Limits} {depot next : Depot σ μ ε}

theorem bounded_step {fuel : Nat} {op : Operation σ μ ε} (bounded : depot.pipeline.Bounded allowed)
    (stepped : depot.step fuel op = some next) : next.pipeline.Bounded allowed := by
  cases op with
  | push req sink deadline =>
    simp only [step] at stepped
    split at stepped
    · cases stepped
      exact bounded
    · rename_i pushed
      cases stepped
      exact bounded.push pushed
  | writeDone n =>
    obtain ⟨pipeline, written, rfl⟩ := Option.map_eq_some_iff.mp stepped
    exact bounded.onWriteDone written
  | message msg =>
    obtain ⟨result, dispatched, rfl⟩ := Option.map_eq_some_iff.mp stepped
    exact bounded.dispatch dispatched
  | error err =>
    obtain ⟨result, dispatched, rfl⟩ := Option.map_eq_some_iff.mp stepped
    exact bounded.dispatch dispatched
  | clearAll err =>
    obtain ⟨result, ended, rfl⟩ := Option.map_eq_some_iff.mp stepped
    exact bounded.clearAll ended

/-- However long a pipeline is used, its two queues never hold more than the allowed requests, nor
storage for more than twice as many. -/
theorem storage_bounded (fuel : Nat) (limits : Limits) (ops : List (Operation σ μ ε))
    (run : runFrom (step fuel) (start limits) ops = some depot) :
    depot.pipeline.pendingWrite.size + depot.pipeline.awaitingRead.size ≤ limits.maxRequests ∧
      depot.pipeline.pendingWrite.cap ≤ max 8 (2 * limits.maxRequests) ∧
      depot.pipeline.awaitingRead.cap ≤ max 8 (2 * limits.maxRequests) := by
  have fresh : (start limits : Depot σ μ ε).pipeline.Bounded limits :=
    ⟨rfl, Nat.zero_le _, Nat.zero_le _, Nat.zero_le _⟩
  have bounded := runFrom_invariant (fun depot : Depot σ μ ε => depot.pipeline.Bounded limits)
    (fun _ _ _ bounded _ stepped => bounded_step bounded stepped) fresh (guarded_true ops) run
  exact ⟨bounded.counted, bounded.pendingWrite, bounded.awaitingRead⟩

/-- Eleven requests of one octet each. -/
def eleven : List (Operation (PendingResponse fun _ msg => (.ok msg : Except Nat Nat)) Nat Nat) :=
  List.replicate 11 (.push ⟨[7], 1⟩ { expected := 1 } ⊤)

/-- The ninth request makes room for sixteen, and the eleventh is refused. -/
theorem storage_bounded_grown :
    ∃ depot, runFrom (step 2) (start ⟨10, 100⟩) eleven = some depot ∧ depot.pipeline.pendingWrite.size = 10 ∧
      depot.pipeline.pendingWrite.cap = 16 ∧ depot.pipeline.pendingWrite.cap ≤ max 8 (2 * 10) := by
  have seen : ((runFrom (step 2) (start ⟨10, 100⟩) eleven).map fun depot =>
      (depot.pipeline.pendingWrite.size, depot.pipeline.pendingWrite.cap)) = some (10, 16) := by decide +kernel
  obtain ⟨depot, run, sizes⟩ := Option.map_eq_some_iff.mp seen
  obtain ⟨size, cap⟩ := Prod.mk.inj sizes
  exact ⟨depot, run, size, cap, (storage_bounded 2 ⟨10, 100⟩ eleven run).2.1⟩

end Depot

end Rediscoro.Pipeline

import Mathlib.Data.List.Nodup
import Rediscoro.Pipeline.Queue

/-! What a pipeline holds.

Every queued request has a sink of its own that is not complete. For each operation
it is said once which requests it leaves in the queues, and what it does to the
sinks of those that have left.
-/

set_option autoImplicit false

namespace Rediscoro.Pipeline

open Rediscoro.Semantics

variable {σ μ ε : Type} [ResponseSink σ μ ε] {p q : Pipeline} {sinks middle after : Sinks σ μ ε}

/-- The sinks of the queued requests. -/
def refs (p : Pipeline) : List SinkRef := p.pendingWrite.map PendingItem.sink ++ p.awaitingRead.map AwaitingItem.sink

theorem length_refs (p : Pipeline) : p.refs.length = p.pendingCount := by simp [refs, pendingCount]

theorem refs_eq_nil_iff : p.refs = [] ↔ p.pendingCount = 0 := by rw [← length_refs, List.length_eq_zero_iff]

theorem refs_push {req : Request} {ref : SinkRef} {deadline : TimePoint} (pushed : p.push req ref deadline = some q) :
    q.refs.Perm (ref :: p.refs) := by
  rw [push_eq_some pushed]
  simp only [refs, List.map_append, List.append_assoc]
  exact List.perm_middle

/-- A request that is written passes from one queue to the other. -/
theorem refs_onWriteDone {n : Nat} (applied : p.onWriteDone n = some q) : q.refs.Perm p.refs := by
  unfold onWriteDone at applied
  split at applied
  · cases applied
  · rename_i front rest queue
    split at applied
    · split at applied
      · cases applied
        simp only [refs, queue, List.map_append, List.map_cons, List.map_nil, ← List.append_assoc]
        exact List.perm_append_singleton _ _
      · cases applied
        simp [refs, queue]
    · cases applied

/-- Every queued request has a sink of its own, and it is not complete. -/
structure Stocked (p : Pipeline) (sinks : Sinks σ μ ε) : Prop where
  distinct : p.refs.Nodup
  held : ∀ ref ∈ p.refs, ∃ sink, sinks.cells[ref]? = some sink ∧ ResponseSink.isComplete sink = false

namespace Stocked

variable {ref : SinkRef}

theorem incomplete (stocked : p.Stocked sinks) (member : ref ∈ p.refs) : sinks.isComplete ref = false := by
  obtain ⟨sink, found, incomplete⟩ := stocked.held ref member
  rw [Sinks.isComplete, found]
  exact incomplete

theorem bound (stocked : p.Stocked sinks) (member : ref ∈ p.refs) : ref < sinks.cells.length := by
  obtain ⟨sink, found, -⟩ := stocked.held ref member
  exact (List.getElem?_eq_some_iff.mp found).1

theorem empty (none : p.refs = []) (sinks : Sinks σ μ ε) : p.Stocked sinks :=
  ⟨by simp [none], by simp [none]⟩

theorem perm (stocked : p.Stocked sinks) (same : q.refs.Perm p.refs) : q.Stocked sinks :=
  ⟨same.nodup_iff.mpr stocked.distinct, fun ref member => stocked.held ref (same.mem_iff.mp member)⟩

/-- The sinks of the queued requests are left alone. -/
theorem congr (stocked : p.Stocked sinks) (same : ∀ ref ∈ p.refs, after.cells[ref]? = sinks.cells[ref]?) :
    p.Stocked after := by
  refine ⟨stocked.distinct, fun ref member => ?_⟩
  rw [same ref member]
  exact stocked.held ref member

/-- A sink is made behind the others. -/
theorem alloc (stocked : p.Stocked sinks) {sink : σ} (made : after.cells = sinks.cells ++ [sink]) :
    p.Stocked after := by
  apply stocked.congr
  intro ref member
  rw [made, List.getElem?_append_left (stocked.bound member)]

theorem push (stocked : p.Stocked sinks) {req : Request} {deadline : TimePoint} {sink : σ}
    (pushed : p.push req sinks.cells.length deadline = some q) (made : after.cells = sinks.cells ++ [sink])
    (incomplete : ResponseSink.isComplete sink = false) : q.Stocked after := by
  have same := refs_push pushed
  have fresh : sinks.cells.length ∉ p.refs := fun member => Nat.lt_irrefl _ (stocked.bound member)
  refine ⟨same.nodup_iff.mpr (List.nodup_cons.mpr ⟨fresh, stocked.distinct⟩), fun ref member => ?_⟩
  rcases List.mem_cons.mp (same.mem_iff.mp member) with rfl | member
  · exact ⟨sink, by simp [made], incomplete⟩
  · exact (stocked.alloc made).held ref member

end Stocked

/-! Deliveries. -/

/-- Some deliveries to the requests in front. -/
structure Answered (p : Pipeline) (sinks : Sinks σ μ ε) (q : Pipeline) (after : Sinks σ μ ε) : Prop where
  pendingWrite : q.pendingWrite = p.pendingWrite
  awaitingRead : q.awaitingRead <:+ p.awaitingRead
  later : sinks.Later after
  /-- Who has left the queue is complete. -/
  served : ∀ ref ∈ p.refs, ref ∉ q.refs → after.isComplete ref = true
  others : ∀ ref, ref ∉ p.awaitingRead.map AwaitingItem.sink → after.cells[ref]? = sinks.cells[ref]?
  stocked : p.Stocked sinks → q.Stocked after

namespace Answered

theorem refl (p : Pipeline) (sinks : Sinks σ μ ε) : Answered p sinks p sinks :=
  ⟨rfl, List.suffix_rfl, .refl sinks, fun _ member absent => absurd member absent, fun _ _ => rfl, id⟩

theorem trans {r : Pipeline} (first : Answered p sinks q middle) (second : Answered q middle r after) :
    Answered p sinks r after where
  pendingWrite := second.pendingWrite.trans first.pendingWrite
  awaitingRead := second.awaitingRead.trans first.awaitingRead
  later := first.later.trans second.later
  served ref member absent := by
    by_cases still : ref ∈ q.refs
    · exact second.served ref still absent
    · exact second.later.isComplete (first.served ref member still)
  others ref absent := by
    have gone : ref ∉ q.awaitingRead.map AwaitingItem.sink :=
      fun member => absent ((first.awaitingRead.map _).subset member)
    rw [second.others ref gone, first.others ref absent]
  stocked := fun stocked => second.stocked (first.stocked stocked)

theorem refs_subperm (answered : Answered p sinks q after) : q.refs.Subperm p.refs := by
  rw [refs, refs, answered.pendingWrite]
  exact ((answered.awaitingRead.sublist.map _).append_left _).subperm

end Answered

/-- The request in front takes the delivery; where that completes it, it leaves the queue. -/
theorem dispatch_answered {delivery : Delivery μ ε} (dispatched : p.dispatch delivery sinks = some (q, after)) :
    Answered p sinks q after := by
  unfold dispatch at dispatched
  split at dispatched
  · cases dispatched
  · rename_i front rest queue
    have here : front.sink ∈ p.refs := by simp [refs, queue]
    have others (ref : SinkRef) (absent : ref ∉ p.awaitingRead.map AwaitingItem.sink) :
        (sinks.deliver front.sink delivery).cells[ref]? = sinks.cells[ref]? := by
      apply Sinks.cells_deliver_of_ne
      rintro rfl
      simp [queue] at absent
    by_cases complete : (sinks.deliver front.sink delivery).isComplete front.sink = true
    · simp only [complete, if_true] at dispatched
      cases dispatched
      refine ⟨rfl, by simp [queue], .deliver sinks _ _, fun ref member absent => ?_, others, fun stocked => ?_⟩
      · have same : ref = front.sink := by
          by_contra apart
          simp_all [refs]
        rw [same]
        exact complete
      · -- no other request has the sink in front
        have split : p.refs.Perm (front.sink :: refs { p with awaitingRead := rest }) := by
          simp only [refs, queue, List.map_cons]
          exact List.perm_middle
        obtain ⟨apart, distinct⟩ := List.nodup_cons.mp (split.nodup_iff.mp stocked.distinct)
        refine ⟨distinct, fun ref member => ?_⟩
        have other : ref ≠ front.sink := fun same => apart (same ▸ member)
        rw [Sinks.cells_deliver_of_ne other]
        exact stocked.held ref (split.mem_iff.mpr (List.mem_cons_of_mem _ member))
    · simp only [complete] at dispatched
      cases dispatched
      refine ⟨rfl, List.suffix_rfl, .deliver sinks _ _, fun ref member absent => absurd member absent, others,
        fun stocked => ⟨stocked.distinct, fun ref member => ?_⟩⟩
      by_cases same : ref = front.sink
      · subst same
        obtain ⟨sink, found, -⟩ := stocked.held _ here
        obtain ⟨next, present, -⟩ := (Sinks.Later.deliver sinks front.sink delivery).evolved _ _ found
        exact ⟨next, present, by simpa [Sinks.isComplete, present] using complete⟩
      · rw [Sinks.cells_deliver_of_ne same]
        exact stocked.held ref member

/-! `clear_all`. -/

/-- The queues are empty, and who was in them is complete. -/
structure Cleared (p : Pipeline) (sinks : Sinks σ μ ε) (q : Pipeline) (after : Sinks σ μ ε) : Prop where
  empty : q.refs = []
  later : sinks.Later after
  complete : ∀ ref ∈ p.refs, after.isComplete ref = true
  others : ∀ ref, ref ∉ p.refs → after.cells[ref]? = sinks.cells[ref]?

theorem clearAll_cleared {fuel : Nat} {err : ε} (cleared : p.clearAll fuel err sinks = some (q, after)) :
    Cleared p sinks q after := by
  unfold clearAll at cleared
  split at cleared
  · cases cleared
  · rename_i middle written
    split at cleared
    · cases cleared
    · rename_i last awaited
      cases cleared
      obtain ⟨early, first, untouched⟩ := Sinks.failEach_completes written
      obtain ⟨late, second, unchanged⟩ := Sinks.failEach_completes awaited
      refine ⟨rfl, early.trans late, fun ref member => ?_, fun ref absent => ?_⟩
      · rcases List.mem_append.mp member with member | member
        · exact late.isComplete (first ref member)
        · exact second ref member
      · rw [refs, List.mem_append, not_or] at absent
        rw [unchanged ref absent.2, untouched ref absent.1]

end Rediscoro.Pipeline

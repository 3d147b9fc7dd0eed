import Mathlib.Data.List.Basic
import Rediscoro.Pipeline.Queue

/-! The sinks the client creates: one slot for each expected reply, and a result
once all slots are filled.

`pending_response` and `pending_dynamic_response` differ in the types of their
slots only: both append a slot for every delivery and take the results when the
builder has as many as it expects. What a message becomes in a slot is a
parameter here, which may depend on the slot's position as it does for a pack of
types; it is the business of the adapters.
-/

set_option autoImplicit false

namespace Rediscoro.Pipeline

variable {μ ε ρ : Type}

structure PendingResponse (slotFromMessage : Nat → μ → Except ε ρ) where
  expected : Nat
  slots : List (Except ε ρ) := []
  result : Option (List (Except ε ρ)) := none

namespace PendingResponse

variable {slotFromMessage : Nat → μ → Except ε ρ}

/-- The sink that `enqueue` and `enqueue_dynamic` make for a request. -/
def forRequest (req : Request) : PendingResponse slotFromMessage := { expected := req.replyCount }

/-- The builder takes one more slot, and the result is set when it is done. -/
def accept (response : PendingResponse slotFromMessage) (slot : Except ε ρ) : PendingResponse slotFromMessage :=
  if response.result.isSome then response
  else
    { response with
      slots := response.slots ++ [slot]
      result :=
        if (response.slots ++ [slot]).length = response.expected then some (response.slots ++ [slot]) else none }

instance : ResponseSink (PendingResponse slotFromMessage) μ ε where
  expectedReplies := expected
  isComplete response := response.result.isSome
  doDeliver response msg := response.accept (slotFromMessage response.slots.length msg)
  doDeliverError response err := response.accept (.error err)

def slotOf (slotFromMessage : Nat → μ → Except ε ρ) (index : Nat) : Delivery μ ε → Except ε ρ
  | .message msg => slotFromMessage index msg
  | .error err => .error err

theorem receive_eq (response : PendingResponse slotFromMessage) (delivery : Delivery μ ε) :
    receive response delivery = response.accept (slotOf slotFromMessage response.slots.length delivery) := by
  cases delivery <;> rfl

/-- A sink with open slots is complete after exactly as many deliveries. -/
theorem counts_open {left : Nat} {response : PendingResponse slotFromMessage} (unset : response.result = none)
    (missing : response.slots.length + (left + 1) = response.expected) : Counts response (left + 1) := by
  induction left generalizing response with
  | zero =>
    have incomplete : response.result.isSome = false := by rw [unset]; rfl
    refine Counts.succ incomplete fun delivery => Counts.zero ?_
    have last (slot : Except ε ρ) : (response.slots ++ [slot]).length = response.expected := by
      rw [List.length_append]
      exact missing
    rw [receive_eq, accept, if_neg (by rw [incomplete]; simp), if_pos (last _)]
    rfl
  | succ left ih =>
    have incomplete : response.result.isSome = false := by rw [unset]; rfl
    refine Counts.succ incomplete fun delivery => ?_
    have size (slot : Except ε ρ) : (response.slots ++ [slot]).length = response.slots.length + 1 :=
      List.length_append
    have more (slot : Except ε ρ) : ¬ (response.slots ++ [slot]).length = response.expected := by
      have := size slot
      omega
    rw [receive_eq, accept, if_neg (by rw [incomplete]; simp), if_neg (more _)]
    apply ih
    · rfl
    · have grown := size (slotOf slotFromMessage response.slots.length delivery)
      dsimp only
      omega

/-- The sink of a request with at least one command. -/
theorem counts_new {n : Nat} (positive : 0 < n) :
    Counts ({ expected := n } : PendingResponse slotFromMessage) n := by
  obtain ⟨left, rfl⟩ := Nat.exists_eq_succ_of_ne_zero (Nat.ne_of_gt positive)
  exact counts_open rfl (Nat.zero_add _)

/-! What a sink holds after some deliveries. -/

/-- The slots are what the deliveries become, each at its position. -/
def filled (slotFromMessage : Nat → μ → Except ε ρ) (n : Nat) (deliveries : List (Delivery μ ε)) :
    PendingResponse slotFromMessage :=
  { expected := n
    slots := deliveries.mapIdx (slotOf slotFromMessage)
    result := if deliveries.length = n then some (deliveries.mapIdx (slotOf slotFromMessage)) else none }

theorem filled_nil {n : Nat} (positive : 0 < n) : filled slotFromMessage n [] = { expected := n } := by
  have unfinished : ¬ ([] : List (Delivery μ ε)).length = n := Nat.ne_of_lt positive
  rw [filled, if_neg unfinished]
  rfl

theorem isComplete_filled (n : Nat) (deliveries : List (Delivery μ ε)) :
    isComplete (filled slotFromMessage n deliveries) = true ↔ deliveries.length = n := by
  by_cases done : deliveries.length = n <;> simp [filled, isComplete, done]

theorem receive_filled {n : Nat} {deliveries : List (Delivery μ ε)} (missing : deliveries.length < n)
    (delivery : Delivery μ ε) :
    receive (filled slotFromMessage n deliveries) delivery = filled slotFromMessage n (deliveries ++ [delivery]) := by
  have unfinished : ¬ deliveries.length = n := Nat.ne_of_lt missing
  simp [receive_eq, accept, filled, unfinished, List.mapIdx_concat]

end PendingResponse

/-! Deliveries through the store. -/

namespace Sinks

section Deliveries

variable {σ : Type} [ResponseSink σ μ ε]

/-- `deliver` and `deliver_error` calls for one sink, one after another. -/
def deliverAll (sinks : Sinks σ μ ε) (ref : SinkRef) (deliveries : List (Delivery μ ε)) : Sinks σ μ ε :=
  deliveries.foldl (fun sinks delivery => sinks.deliver ref delivery) sinks

end Deliveries

open PendingResponse

variable {slotFromMessage : Nat → μ → Except ε ρ} {ref : SinkRef}
  {sinks : Sinks (PendingResponse slotFromMessage) μ ε}

theorem deliverAll_filled {n : Nat} {earlier deliveries : List (Delivery μ ε)}
    (found : sinks.cells[ref]? = some (filled slotFromMessage n earlier))
    (within : earlier.length + deliveries.length ≤ n) :
    (sinks.deliverAll ref deliveries).cells[ref]? = some (filled slotFromMessage n (earlier ++ deliveries)) := by
  induction deliveries generalizing sinks earlier with
  | nil => simpa [deliverAll] using found
  | cons delivery rest ih =>
    rw [List.length_cons] at within
    have missing : earlier.length < n := by omega
    have unfinished : ¬ ResponseSink.isComplete (filled slotFromMessage n earlier) = true := by
      rw [isComplete_filled]
      exact Nat.ne_of_lt missing
    have next := cells_deliver_open found unfinished delivery
    rw [receive_filled missing] at next
    have later := ih next (by rw [List.length_append, List.length_singleton]; omega)
    rw [List.append_assoc] at later
    exact later

/-- `fail_all` fills the open slots with the error and stops. -/
theorem failAll_filled (err : ε) {n : Nat} {deliveries : List (Delivery μ ε)}
    (found : sinks.cells[ref]? = some (filled slotFromMessage n deliveries)) (within : deliveries.length ≤ n) :
    ∃ fuel after, sinks.failAll fuel err ref = some after ∧ after.cells[ref]? =
      some (filled slotFromMessage n (deliveries ++ List.replicate (n - deliveries.length) (.error err))) := by
  -- Induction on the number of open slots: a round of the loop fills one.
  induction left : n - deliveries.length generalizing sinks deliveries with
  | zero =>
    have full : deliveries.length = n := by omega
    have complete : sinks.isComplete ref = true := by
      rw [Sinks.isComplete, found]
      exact (isComplete_filled n deliveries).mpr full
    have done : failPass err ref sinks = .leave sinks := by rw [failPass, if_pos complete]
    exact ⟨1, sinks, Semantics.iterate_leave done, by simpa using found⟩
  | succ left ih =>
    have missing : deliveries.length < n := by omega
    have unfinished : ¬ ResponseSink.isComplete (filled slotFromMessage n deliveries) = true := by
      rw [isComplete_filled]
      exact Nat.ne_of_lt missing
    have waiting : ¬ sinks.isComplete ref = true := by
      rw [Sinks.isComplete, found]
      exact unfinished
    have goes : failPass err ref sinks = .again (sinks.deliver ref (.error err)) := by rw [failPass, if_neg waiting]
    have next := cells_deliver_open found unfinished (.error err)
    rw [receive_filled missing] at next
    have longer : (deliveries ++ [Delivery.error err]).length = deliveries.length + 1 := List.length_append
    obtain ⟨fuel, after, ended, last⟩ := ih next (by omega) (by omega)
    refine ⟨fuel + 1, after, (Semantics.iterate_again goes).trans ended, ?_⟩
    rw [List.append_assoc] at last
    rw [List.replicate_succ]
    exact last

end Sinks

namespace PendingResponse

/-- A sink for `n` replies is complete after exactly `n` deliveries, and failing
it in between ends with the missing slots filled by the error. -/
def Completes (slotFromMessage : Nat → μ → Except ε ρ) (n : Nat) : Prop :=
  ∀ (sinks : Sinks (PendingResponse slotFromMessage) μ ε) (ref : SinkRef),
    sinks.cells[ref]? = some { expected := n } →
    ∀ deliveries : List (Delivery μ ε), deliveries.length ≤ n →
      ((sinks.deliverAll ref deliveries).isComplete ref = true ↔ deliveries.length = n) ∧
      ∀ err : ε, ∃ fuel after sink,
        (sinks.deliverAll ref deliveries).failAll fuel err ref = some after ∧
        after.cells[ref]? = some sink ∧ after.isComplete ref = true ∧
        sink.result = some (deliveries.mapIdx (slotOf slotFromMessage) ++
          List.replicate (n - deliveries.length) (.error err))

theorem mapIdx_failed (slotFromMessage : Nat → μ → Except ε ρ) (deliveries : List (Delivery μ ε)) (err : ε) (k : Nat) :
    (deliveries ++ List.replicate k (Delivery.error err)).mapIdx (slotOf slotFromMessage) =
      deliveries.mapIdx (slotOf slotFromMessage) ++ List.replicate k (.error err) := by
  induction k with
  | zero => simp
  | succ k ih => rw [List.replicate_succ', ← List.append_assoc, List.mapIdx_concat, ih, List.append_assoc,
      List.replicate_succ']; rfl

/-- Every sink with at least one slot behaves so, and no sink without slots. -/
theorem completes_iff (slotFromMessage : Nat → μ → Except ε ρ) (n : Nat) :
    Completes slotFromMessage n ↔ 0 < n := by
  constructor
  · intro completes
    -- A sink that expects nothing has had all its deliveries and is not complete.
    by_contra none
    obtain rfl : n = 0 := by omega
    have early := (completes { cells := [{ expected := 0 }] } 0 rfl [] (Nat.le_refl 0)).1
    exact absurd (early.mpr rfl) (by simp [Sinks.deliverAll, Sinks.isComplete, isComplete])
  · intro positive sinks ref found deliveries within
    rw [← filled_nil positive] at found
    have reached := Sinks.deliverAll_filled found (by simpa using within)
    rw [List.nil_append] at reached
    constructor
    · rw [Sinks.isComplete, reached]
      exact isComplete_filled n deliveries
    · intro err
      obtain ⟨fuel, after, ended, last⟩ := Sinks.failAll_filled err reached within
      have full : (deliveries ++ List.replicate (n - deliveries.length) (Delivery.error err)).length = n := by
        rw [List.length_append, List.length_replicate]
        omega
      refine ⟨fuel, after, _, ended, last, ?_, ?_⟩
      · rw [Sinks.isComplete, last]
        exact (isComplete_filled n _).mpr full
      · rw [filled, if_pos full, mapIdx_failed]

/-- The loop of `fail_all` never ends for a sink that has all its slots and no result. -/
theorem failAll_endless {slotFromMessage : Nat → μ → Except ε ρ} {sinks : Sinks (PendingResponse slotFromMessage) μ ε}
    {ref : SinkRef} {sink : PendingResponse slotFromMessage} (found : sinks.cells[ref]? = some sink)
    (unset : sink.result = none) (full : sink.expected ≤ sink.slots.length) (err : ε) (fuel : Nat) :
    sinks.failAll fuel err ref = none := by
  induction fuel generalizing sinks sink with
  | zero => rfl
  | succ fuel ih =>
    have unfinished : ¬ ResponseSink.isComplete sink = true := by simp [isComplete, unset]
    have waiting : ¬ sinks.isComplete ref = true := by
      rw [Sinks.isComplete, found]
      exact unfinished
    have goes : Sinks.failPass err ref sinks = .again (sinks.deliver ref (.error err)) := by
      rw [Sinks.failPass, if_neg waiting]
    have next := Sinks.cells_deliver_open found unfinished (.error err)
    have longer : ¬ (sink.slots ++ [Except.error err]).length = sink.expected := by
      rw [List.length_append, List.length_singleton]
      omega
    rw [receive_eq, accept, if_neg (by simp [unset])] at next
    rw [Sinks.failAll, Semantics.iterate_again goes]
    apply ih next
    · exact if_neg longer
    · rw [List.length_append]
      exact Nat.le_add_right_of_le full

/-- The sink of `request{}`: failing it, as a rejected `enqueue_dynamic` does, goes on for ever. -/
theorem emptyRequest_endless :
    ¬∃ fuel after, Sinks.failAll fuel ()
      0 { cells := [(forRequest {} : PendingResponse fun _ (msg : Unit) => (.ok msg : Except Unit Unit))] } =
        some after := by
  rintro ⟨fuel, after, ended⟩
  rw [failAll_endless rfl rfl (Nat.le_refl 0)] at ended
  cases ended

end PendingResponse

end Rediscoro.Pipeline

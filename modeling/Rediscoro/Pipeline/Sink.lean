import Mathlib.Logic.Relation
import Rediscoro.Semantics.Loop

/-! Response sinks as the pipeline sees them.

The pipeline knows a sink by its abstract interface only: how many replies it
expects, whether it is complete, and the two delivery hooks. Sinks are shared
objects, so the pipeline holds references into a store of them. Beside the sinks
the store keeps a log of every call of a hook.
-/

set_option autoImplicit false

namespace Rediscoro.Pipeline

open Rediscoro.Semantics

/-- `response_sink`: its virtual functions. -/
class ResponseSink (σ : Type) (μ ε : outParam Type) where
  expectedReplies : σ → Nat
  isComplete : σ → Bool
  doDeliver : σ → μ → σ
  doDeliverError : σ → ε → σ

export ResponseSink (expectedReplies isComplete)

inductive Delivery (μ ε : Type) where
  | message (msg : μ)
  | error (err : ε)
  deriving DecidableEq, Repr

/-- `std::shared_ptr<response_sink>`. -/
abbrev SinkRef := Nat

structure Sinks (σ μ ε : Type) where
  cells : List σ := []
  log : List (SinkRef × Delivery μ ε) := []

section Log

variable {μ ε : Type}

/-- The deliveries that one sink has received, in order. -/
def deliveriesTo (log : List (SinkRef × Delivery μ ε)) (ref : SinkRef) : List (Delivery μ ε) :=
  log.filterMap fun entry => if entry.1 = ref then some entry.2 else none

@[simp] theorem deliveriesTo_append (log more : List (SinkRef × Delivery μ ε)) (ref : SinkRef) :
    deliveriesTo (log ++ more) ref = deliveriesTo log ref ++ deliveriesTo more ref := List.filterMap_append

theorem deliveriesTo_replicate (ref : SinkRef) (n : Nat) (delivery : Delivery μ ε) :
    deliveriesTo (List.replicate n (ref, delivery)) ref = List.replicate n delivery := by
  induction n with
  | zero => rfl
  | succ n ih => simp [deliveriesTo, List.replicate_succ]

theorem deliveriesTo_eq_nil {log : List (SinkRef × Delivery μ ε)} {ref : SinkRef}
    (absent : ∀ entry ∈ log, entry.1 ≠ ref) : deliveriesTo log ref = [] := by
  rw [deliveriesTo, List.filterMap_eq_nil_iff]
  intro entry member
  rw [if_neg (absent entry member)]

/-- One more delivery is one to its own sink only. -/
theorem deliveriesTo_concat_self (log : List (SinkRef × Delivery μ ε)) (ref : SinkRef) (delivery : Delivery μ ε) :
    deliveriesTo (log ++ [(ref, delivery)]) ref = deliveriesTo log ref ++ [delivery] := by
  simp [deliveriesTo]

theorem deliveriesTo_concat_of_ne {ref other : SinkRef} (apart : ref ≠ other) (log : List (SinkRef × Delivery μ ε))
    (delivery : Delivery μ ε) : deliveriesTo (log ++ [(ref, delivery)]) other = deliveriesTo log other := by
  simp [deliveriesTo, apart]

end Log

variable {σ μ ε : Type} [ResponseSink σ μ ε]

def receive (sink : σ) : Delivery μ ε → σ
  | .message msg => ResponseSink.doDeliver sink msg
  | .error err => ResponseSink.doDeliverError sink err

/-- The sink is complete exactly when `left` more deliveries have been made. -/
def Counts (sink : σ) (left : Nat) : Prop :=
  ∀ deliveries : List (Delivery μ ε), deliveries.length ≤ left →
    (isComplete (deliveries.foldl receive sink) = true ↔ deliveries.length = left)

theorem Counts.zero {sink : σ} (complete : isComplete sink = true) : Counts sink 0 := by
  intro deliveries none
  obtain rfl : deliveries = [] := List.eq_nil_of_length_eq_zero (Nat.le_zero.mp none)
  exact ⟨fun _ => rfl, fun _ => complete⟩

theorem Counts.succ {sink : σ} {left : Nat} (incomplete : isComplete sink = false)
    (later : ∀ delivery : Delivery μ ε, Counts (receive sink delivery) left) : Counts sink (left + 1) := by
  intro deliveries within
  cases deliveries with
  | nil => simp [incomplete]
  | cons delivery rest =>
    rw [List.length_cons] at within ⊢
    rw [List.foldl_cons, Nat.succ_inj]
    exact later delivery rest (Nat.le_of_succ_le_succ within)

theorem Counts.complete {sink : σ} {left : Nat} (counts : Counts sink left) : isComplete sink = true ↔ left = 0 := by
  have none := counts [] (Nat.zero_le _)
  exact none.trans ⟨Eq.symm, Eq.symm⟩

theorem Counts.receive {sink : σ} {left : Nat} (counts : Counts sink (left + 1)) (delivery : Delivery μ ε) :
    Counts (Pipeline.receive sink delivery) left := by
  intro deliveries short
  have longer := counts (delivery :: deliveries) (Nat.succ_le_succ short)
  rw [List.foldl_cons, List.length_cons, Nat.succ_inj] at longer
  exact longer

namespace Sinks

/-- `std::make_shared` for a new sink. -/
def alloc (sinks : Sinks σ μ ε) (sink : σ) : SinkRef × Sinks σ μ ε :=
  (sinks.cells.length, { sinks with cells := sinks.cells ++ [sink] })

def isComplete (sinks : Sinks σ μ ε) (ref : SinkRef) : Bool :=
  match sinks.cells[ref]? with
  | some sink => ResponseSink.isComplete sink
  | none => true

/-- `deliver` and `deliver_error`: a completed sink is left alone. The source
asserts that no reference is null; nothing is delivered through one. -/
def deliver (sinks : Sinks σ μ ε) (ref : SinkRef) (delivery : Delivery μ ε) : Sinks σ μ ε :=
  match sinks.cells[ref]? with
  | some sink =>
      if ResponseSink.isComplete sink then sinks
      else { cells := sinks.cells.set ref (receive sink delivery), log := sinks.log ++ [(ref, delivery)] }
  | none => sinks

def failPass (err : ε) (ref : SinkRef) (sinks : Sinks σ μ ε) : Pass (Sinks σ μ ε) (Sinks σ μ ε) :=
  if sinks.isComplete ref then .leave sinks else .again (sinks.deliver ref (.error err))

/-- `fail_all` in at most `fuel` rounds: nothing in the source bounds the loop. -/
def failAll (fuel : Nat) (err : ε) (ref : SinkRef) (sinks : Sinks σ μ ε) : Option (Sinks σ μ ε) :=
  iterate (failPass err ref) fuel sinks

/-- Fails the sinks of a queue from its front on. -/
def failEach (fuel : Nat) (err : ε) (sinks : Sinks σ μ ε) : List SinkRef → Option (Sinks σ μ ε)
  | [] => some sinks
  | ref :: rest =>
      match failAll fuel err ref sinks with
      | none => none
      | some sinks => failEach fuel err sinks rest

/-- The sink exists and takes `left` more deliveries. -/
def Needs (sinks : Sinks σ μ ε) (ref : SinkRef) (left : Nat) : Prop :=
  ∃ sink, sinks.cells[ref]? = some sink ∧ Counts sink left

section Deliver

variable {sinks : Sinks σ μ ε} {ref : SinkRef} {left : Nat}

theorem Needs.complete (needs : sinks.Needs ref left) : sinks.isComplete ref = true ↔ left = 0 := by
  obtain ⟨sink, found, counts⟩ := needs
  rw [isComplete, found]
  exact counts.complete

theorem Needs.deliver_eq (needs : sinks.Needs ref (left + 1)) (delivery : Delivery μ ε) :
    ∃ sink, sinks.cells[ref]? = some sink ∧ Counts sink (left + 1) ∧ sinks.deliver ref delivery =
      { cells := sinks.cells.set ref (receive sink delivery), log := sinks.log ++ [(ref, delivery)] } := by
  obtain ⟨sink, found, counts⟩ := needs
  refine ⟨sink, found, counts, ?_⟩
  have unfinished : ¬ ResponseSink.isComplete sink = true := by rw [counts.complete]; exact Nat.succ_ne_zero left
  simp only [deliver, found, if_neg unfinished]

/-- A delivery that is needed is made: the sink needs one less and the log tells. -/
theorem Needs.deliver (needs : sinks.Needs ref (left + 1)) (delivery : Delivery μ ε) :
    (sinks.deliver ref delivery).Needs ref left ∧
    (sinks.deliver ref delivery).log = sinks.log ++ [(ref, delivery)] := by
  obtain ⟨sink, found, counts, same⟩ := needs.deliver_eq delivery
  have bound : ref < sinks.cells.length := (List.getElem?_eq_some_iff.mp found).1
  rw [same]
  exact ⟨⟨_, List.getElem?_set_self bound, counts.receive delivery⟩, rfl⟩

theorem length_cells_deliver (sinks : Sinks σ μ ε) (ref : SinkRef) (delivery : Delivery μ ε) :
    (sinks.deliver ref delivery).cells.length = sinks.cells.length := by
  unfold deliver
  split
  · split
    · rfl
    · exact List.length_set
  · rfl

/-- Other sinks do not see the delivery. -/
theorem cells_deliver_of_ne {other : SinkRef} (apart : other ≠ ref) (delivery : Delivery μ ε) :
    (sinks.deliver ref delivery).cells[other]? = sinks.cells[other]? := by
  unfold deliver
  split
  · split
    · rfl
    · exact List.getElem?_set_ne apart.symm
  · rfl

theorem cells_deliver_open {sink : σ} (found : sinks.cells[ref]? = some sink)
    (unfinished : ¬ ResponseSink.isComplete sink = true) (delivery : Delivery μ ε) :
    (sinks.deliver ref delivery).cells[ref]? = some (receive sink delivery) := by
  have bound : ref < sinks.cells.length := (List.getElem?_eq_some_iff.mp found).1
  simp only [deliver, found, if_neg unfinished]
  exact List.getElem?_set_self bound

end Deliver

/-! What deliveries and failures do to a store, whatever its sinks need. -/

/-- Some deliveries, each to a sink that is not complete. -/
def Evolves : σ → σ → Prop :=
  Relation.ReflTransGen fun sink next => ResponseSink.isComplete sink = false ∧ ∃ delivery, next = receive sink delivery

theorem Evolves.of_complete {sink later : σ} (evolves : Evolves sink later)
    (complete : ResponseSink.isComplete sink = true) : later = sink := by
  rcases evolves.cases_head with same | ⟨next, ⟨incomplete, -⟩, -⟩
  · exact same.symm
  · rw [complete] at incomplete
    cases incomplete

/-- A store that has received some deliveries: no sink is lost. -/
structure Later (before after : Sinks σ μ ε) : Prop where
  size : after.cells.length = before.cells.length
  evolved : ∀ (ref : SinkRef) (sink : σ), before.cells[ref]? = some sink →
    ∃ later, after.cells[ref]? = some later ∧ Evolves sink later

namespace Later

variable {before middle after : Sinks σ μ ε}

theorem refl (sinks : Sinks σ μ ε) : Later sinks sinks := ⟨rfl, fun _ sink found => ⟨sink, found, .refl⟩⟩

theorem trans (first : Later before middle) (second : Later middle after) : Later before after := by
  refine ⟨second.size.trans first.size, fun ref sink found => ?_⟩
  obtain ⟨next, there, early⟩ := first.evolved ref sink found
  obtain ⟨last, present, late⟩ := second.evolved ref next there
  exact ⟨last, present, early.trans late⟩

/-- A complete sink keeps what it has. -/
theorem kept {ref : SinkRef} {sink : σ} (later : Later before after) (found : before.cells[ref]? = some sink)
    (complete : ResponseSink.isComplete sink = true) : after.cells[ref]? = some sink := by
  obtain ⟨last, present, evolves⟩ := later.evolved ref sink found
  rw [evolves.of_complete complete] at present
  exact present

theorem isComplete {ref : SinkRef} (later : Later before after) (complete : before.isComplete ref = true) :
    after.isComplete ref = true := by
  unfold Sinks.isComplete at complete ⊢
  cases found : before.cells[ref]? with
  | none =>
    have outside : after.cells[ref]? = none := by
      rw [List.getElem?_eq_none_iff] at found ⊢
      rw [later.size]
      exact found
    rw [outside]
  | some sink =>
    rw [found] at complete
    rw [later.kept found complete]
    exact complete

theorem deliver (sinks : Sinks σ μ ε) (ref : SinkRef) (delivery : Delivery μ ε) :
    Later sinks (sinks.deliver ref delivery) := by
  refine ⟨length_cells_deliver sinks ref delivery, fun other sink found => ?_⟩
  by_cases same : other = ref
  · subst same
    cases complete : ResponseSink.isComplete sink with
    | true => exact ⟨sink, by simp [Sinks.deliver, found, complete], .refl⟩
    | false =>
      exact ⟨receive sink delivery, cells_deliver_open found (by simp [complete]) delivery,
        .single ⟨complete, delivery, rfl⟩⟩
  · exact ⟨sink, (cells_deliver_of_ne same delivery).trans found, .refl⟩

end Later

/-- `fail_all` has ended: the sink is complete, and it got nothing but errors. -/
structure Refused (err : ε) (ref : SinkRef) (before after : Sinks σ μ ε) : Prop where
  later : Later before after
  complete : after.isComplete ref = true
  log : ∃ k, after.log = before.log ++ List.replicate k (ref, .error err)
  others : ∀ other, other ≠ ref → after.cells[other]? = before.cells[other]?

theorem log_deliver (sinks : Sinks σ μ ε) (ref : SinkRef) (delivery : Delivery μ ε) :
    ∃ k, (sinks.deliver ref delivery).log = sinks.log ++ List.replicate k (ref, delivery) := by
  unfold deliver
  split
  · split
    · exact ⟨0, (List.append_nil _).symm⟩
    · exact ⟨1, rfl⟩
  · exact ⟨0, (List.append_nil _).symm⟩

theorem failAll_refused {fuel : Nat} {err : ε} {ref : SinkRef} {sinks after : Sinks σ μ ε}
    (ended : failAll fuel err ref sinks = some after) : Refused err ref sinks after := by
  induction fuel generalizing sinks with
  | zero => cases ended
  | succ fuel ih =>
    by_cases complete : sinks.isComplete ref = true
    · have done : failPass err ref sinks = .leave sinks := by rw [failPass, if_pos complete]
      rw [failAll, iterate_leave done] at ended
      cases ended
      exact ⟨.refl after, complete, ⟨0, (List.append_nil _).symm⟩, fun _ _ => rfl⟩
    · have goes : failPass err ref sinks = .again (sinks.deliver ref (.error err)) := by rw [failPass, if_neg complete]
      rw [failAll, iterate_again goes] at ended
      have rest := ih ended
      obtain ⟨k, first⟩ := log_deliver sinks ref (.error err)
      obtain ⟨more, second⟩ := rest.log
      refine ⟨(Later.deliver sinks ref _).trans rest.later, rest.complete, ⟨k + more, ?_⟩, fun other apart => ?_⟩
      · rw [second, first, List.append_assoc, List.replicate_append_replicate]
      · rw [rest.others other apart, cells_deliver_of_ne apart]

/-- Every sink of the queue is complete, and no other is touched. -/
theorem failEach_completes {fuel : Nat} {err : ε} {refs : List SinkRef} {sinks after : Sinks σ μ ε}
    (ended : failEach fuel err sinks refs = some after) :
    Later sinks after ∧ (∀ ref ∈ refs, after.isComplete ref = true) ∧
      ∀ other, other ∉ refs → after.cells[other]? = sinks.cells[other]? := by
  induction refs generalizing sinks with
  | nil =>
    cases ended
    exact ⟨.refl after, by simp, fun _ _ => rfl⟩
  | cons ref rest ih =>
    rw [failEach] at ended
    split at ended
    · cases ended
    · rename_i middle first
      have refused := failAll_refused first
      obtain ⟨later, complete, others⟩ := ih ended
      refine ⟨refused.later.trans later, fun other member => ?_, fun other absent => ?_⟩
      · rcases List.mem_cons.mp member with rfl | member
        · exact later.isComplete refused.complete
        · exact complete other member
      · rw [List.mem_cons, not_or] at absent
        rw [others other absent.2, refused.others other absent.1]

/-! Failing what is left. -/

section Fail

variable {sinks : Sinks σ μ ε} {ref : SinkRef}

/-- The store after the missing deliveries of one sink are made up by errors. -/
structure Failed (err : ε) (ref : SinkRef) (left : Nat) (before after : Sinks σ μ ε) : Prop where
  log : after.log = before.log ++ List.replicate left (ref, .error err)
  needs : after.Needs ref 0
  others : ∀ other, other ≠ ref → after.cells[other]? = before.cells[other]?
  size : after.cells.length = before.cells.length

/-- `fail_all` ends after exactly the missing number of errors. -/
theorem failAll_needs (err : ε) {left : Nat} (needs : sinks.Needs ref left) {fuel : Nat} (enough : left < fuel) :
    ∃ after, failAll fuel err ref sinks = some after ∧ Failed err ref left sinks after := by
  induction left generalizing sinks fuel with
  | zero =>
    obtain ⟨fuel, rfl⟩ := Nat.exists_eq_add_of_lt enough
    have done : failPass err ref sinks = .leave sinks := by rw [failPass, if_pos (needs.complete.mpr rfl)]
    refine ⟨sinks, ?_, ⟨(List.append_nil _).symm, needs, fun _ _ => rfl, rfl⟩⟩
    exact iterate_leave done
  | succ left ih =>
    obtain ⟨fuel, rfl⟩ : ∃ more, fuel = more + 1 := ⟨fuel - 1, by omega⟩
    have unfinished : ¬ sinks.isComplete ref = true := by rw [needs.complete]; exact Nat.succ_ne_zero left
    have goes : failPass err ref sinks = .again (sinks.deliver ref (.error err)) := by rw [failPass, if_neg unfinished]
    obtain ⟨less, logged⟩ := needs.deliver (.error err)
    obtain ⟨after, ended, failed⟩ := ih less (Nat.lt_of_succ_lt_succ enough)
    refine ⟨after, (iterate_again goes).trans ended, ?_, failed.needs, ?_, ?_⟩
    · rw [failed.log, logged, List.append_assoc, List.replicate_succ]
      rfl
    · intro other apart
      rw [failed.others other apart, cells_deliver_of_ne apart]
    · rw [failed.size, length_cells_deliver]

theorem Needs.congr {before after : Sinks σ μ ε} {left : Nat} (needs : before.Needs ref left)
    (same : after.cells[ref]? = before.cells[ref]?) : after.Needs ref left := by
  obtain ⟨sink, found, counts⟩ := needs
  exact ⟨sink, same.trans found, counts⟩

theorem failEach_append (fuel : Nat) (err : ε) (sinks : Sinks σ μ ε) (first second : List SinkRef) :
    failEach fuel err sinks (first ++ second) = (failEach fuel err sinks first).bind (failEach fuel err · second) := by
  induction first generalizing sinks with
  | nil => rfl
  | cons ref rest ih =>
    simp only [List.cons_append, failEach]
    cases failAll fuel err ref sinks with
    | none => rfl
    | some after => exact ih after

theorem failEach_of_le {fuel enough : Nat} {err : ε} {refs : List SinkRef} {after : Sinks σ μ ε}
    (done : failEach fuel err sinks refs = some after) (within : fuel ≤ enough) :
    failEach enough err sinks refs = some after := by
  induction refs generalizing sinks with
  | nil => exact done
  | cons ref rest ih =>
    rw [failEach] at done ⊢
    cases first : failAll fuel err ref sinks with
    | none =>
      rw [first] at done
      cases done
    | some middle =>
      rw [first] at done
      have more : failAll enough err ref sinks = some middle := iterate_of_le first within
      rw [more]
      exact ih done

/-- However many rounds are allowed, loops that end leave the same store. -/
theorem failEach_deterministic {first second : Nat} {err : ε} {refs : List SinkRef} {left right : Sinks σ μ ε}
    (one : failEach first err sinks refs = some left) (other : failEach second err sinks refs = some right) :
    left = right := by
  have more := failEach_of_le one (Nat.le_max_left first second)
  rw [failEach_of_le other (Nat.le_max_right first second)] at more
  exact (Option.some.inj more).symm

variable {α : Type} (refOf : α → SinkRef) (left : α → Nat)

/-- The store after every sink of a queue has got its missing deliveries as errors. -/
structure FailedEach (err : ε) (queue : List α) (before after : Sinks σ μ ε) : Prop where
  log : after.log = before.log ++ queue.flatMap fun item => List.replicate (left item) (refOf item, .error err)
  needs : ∀ item ∈ queue, after.Needs (refOf item) 0
  others : ∀ other, other ∉ queue.map refOf → after.cells[other]? = before.cells[other]?
  size : after.cells.length = before.cells.length

theorem failEach_needs (err : ε) {queue : List α} (distinct : (queue.map refOf).Nodup)
    (needs : ∀ item ∈ queue, sinks.Needs (refOf item) (left item)) {fuel : Nat}
    (enough : ∀ item ∈ queue, left item < fuel) :
    ∃ after, failEach fuel err sinks (queue.map refOf) = some after ∧ FailedEach refOf left err queue sinks after := by
  induction queue generalizing sinks with
  | nil => exact ⟨sinks, rfl, (List.append_nil _).symm, by simp, fun _ _ => rfl, rfl⟩
  | cons front rest ih =>
    obtain ⟨fresh, distinct⟩ := List.nodup_cons.mp distinct
    have apart (other : α) (member : other ∈ rest) : refOf other ≠ refOf front :=
      fun same => fresh (List.mem_map.mpr ⟨other, member, same⟩)
    obtain ⟨middle, first, failed⟩ := failAll_needs err (needs front List.mem_cons_self)
      (enough front List.mem_cons_self)
    obtain ⟨after, later, failedEach⟩ := ih distinct
      (fun other member =>
        (needs other (List.mem_cons_of_mem _ member)).congr (failed.others _ (apart other member)))
      (fun other member => enough other (List.mem_cons_of_mem _ member))
    refine ⟨after, by rw [List.map_cons, failEach, first]; exact later, ?_, ?_, ?_, ?_⟩
    · rw [failedEach.log, failed.log, List.append_assoc, List.flatMap_cons]
    · intro other member
      rcases List.mem_cons.mp member with rfl | member
      · exact failed.needs.congr (failedEach.others _ fresh)
      · exact failedEach.needs other member
    · intro other absent
      rw [List.map_cons, List.mem_cons, not_or] at absent
      rw [failedEach.others other absent.2, failed.others other absent.1]
    · rw [failedEach.size, failed.size]

end Fail

end Sinks

end Rediscoro.Pipeline

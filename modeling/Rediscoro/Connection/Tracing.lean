import Rediscoro.Connection.Tenancy

/-! The trace of the requests.

Every request that is announced gets an id of its own. Its finish event comes from
one of two places: from `enqueue` if the request is rejected, when its sink has no
context yet, or from its sink when the last slot is filled, when it leaves the
pipeline. So what is started and not finished is what the pipeline holds.
-/

set_option autoImplicit false

namespace Rediscoro.Connection

open Rediscoro.Semantics Rediscoro.Resp3 Rediscoro.Pipeline

/-! Balanced traces. -/

def TraceEvent.started : TraceEvent → Option TraceInfo
  | .start info => some info
  | .finish _ => none

def TraceEvent.finishedId : TraceEvent → Option Nat
  | .start _ => none
  | .finish ended => some ended.info.id

/-- A trace in which the requests of a list are started and not finished, all with ids below a bound. -/
structure Balanced (events : List TraceEvent) (pending : List TraceInfo) (bound : Nat) : Prop where
  increasing : (events.filterMap TraceEvent.started).Pairwise fun earlier later => earlier.id < later.id
  below : ∀ info, .start info ∈ events → info.id < bound
  once : (events.filterMap TraceEvent.finishedId).Nodup
  preceded : ∀ (i : Nat) ended, events[i]? = some (.finish ended) → ∃ j < i, events[j]? = some (.start ended.info)
  counted : ∀ ended, .finish ended ∈ events → ended.okCount + ended.errorCount = ended.info.commandCount
  distinct : (pending.map TraceInfo.id).Nodup
  unfinished : ∀ info, info ∈ pending ↔
    .start info ∈ events ∧ ∀ ended, .finish ended ∈ events → ended.info.id ≠ info.id

namespace Balanced

variable {events : List TraceEvent} {pending rest : List TraceInfo} {bound : Nat}

theorem empty (bound : Nat) : Balanced [] [] bound := by
  constructor <;> simp

theorem perm (balanced : Balanced events pending bound) (same : pending.Perm rest) : Balanced events rest bound :=
  { balanced with
    distinct := (same.map _).nodup_iff.mp balanced.distinct
    unfinished := fun info => same.mem_iff.symm.trans (balanced.unfinished info) }

/-- A start event is one of the trace, or no event has its id. -/
theorem started_of_finished (balanced : Balanced events pending bound) {ended : TraceFinish}
    (finished : .finish ended ∈ events) : .start ended.info ∈ events := by
  obtain ⟨i, found⟩ := List.mem_iff_getElem?.mp finished
  obtain ⟨j, -, start⟩ := balanced.preceded i ended found
  exact List.mem_of_getElem? start

theorem start (balanced : Balanced events pending bound) (info : TraceInfo) (fresh : info.id = bound) :
    Balanced (events ++ [.start info]) (info :: pending) (bound + 1) := by
  have new {ended : TraceFinish} (finished : .finish ended ∈ events) : ended.info.id ≠ info.id := by
    have := balanced.below _ (balanced.started_of_finished finished)
    omega
  have starts (other : TraceInfo) : .start other ∈ events ++ [.start info] ↔ .start other ∈ events ∨ other = info := by
    simp
  have finishes (ended : TraceFinish) : .finish ended ∈ events ++ [.start info] ↔ .finish ended ∈ events := by simp
  refine ⟨?_, ?_, ?_, ?_, ?_, ?_, ?_⟩
  · rw [List.filterMap_append, List.pairwise_append]
    refine ⟨balanced.increasing, List.pairwise_singleton _ _, fun earlier member later last => ?_⟩
    obtain ⟨event, there, same⟩ := List.mem_filterMap.mp member
    cases event with
    | finish ended => cases same
    | start =>
      cases same
      obtain rfl : later = info := by simpa [TraceEvent.started] using last
      rw [fresh]
      exact balanced.below _ there
  · intro other started
    rcases (starts other).mp started with earlier | rfl
    · exact Nat.lt_succ_of_lt (balanced.below other earlier)
    · rw [fresh]
      exact Nat.lt_succ_self _
  · rw [List.filterMap_append, show [TraceEvent.start info].filterMap TraceEvent.finishedId = [] from rfl,
      List.append_nil]
    exact balanced.once
  · intro i ended found
    rw [List.getElem?_append] at found
    split at found
    · rename_i inside
      obtain ⟨j, before, start⟩ := balanced.preceded i ended found
      exact ⟨j, before, by rw [List.getElem?_append_left (by omega)]; exact start⟩
    · have member := List.mem_of_getElem? found
      simp at member
  · exact fun ended finished => balanced.counted ended ((finishes ended).mp finished)
  · rw [List.map_cons, List.nodup_cons]
    refine ⟨fun member => ?_, balanced.distinct⟩
    obtain ⟨other, waits, same⟩ := List.mem_map.mp member
    have := balanced.below other ((balanced.unfinished other).mp waits).1
    omega
  · intro other
    rw [List.mem_cons, balanced.unfinished, starts]
    constructor
    · rintro (rfl | ⟨started, unfinished⟩)
      · exact ⟨.inr rfl, fun ended finished => new ((finishes ended).mp finished)⟩
      · exact ⟨.inl started, fun ended finished => unfinished ended ((finishes ended).mp finished)⟩
    · rintro ⟨started | rfl, unfinished⟩
      · exact .inr ⟨started, fun ended finished => unfinished ended ((finishes ended).mpr finished)⟩
      · exact .inl rfl

theorem ends (ended : TraceFinish) (balanced : Balanced events (ended.info :: rest) bound)
    (counted : ended.okCount + ended.errorCount = ended.info.commandCount) :
    Balanced (events ++ [.finish ended]) rest bound := by
  obtain ⟨started, unfinished⟩ := (balanced.unfinished ended.info).mp List.mem_cons_self
  have starts (other : TraceInfo) : .start other ∈ events ++ [.finish ended] ↔ .start other ∈ events := by simp
  have finishes (other : TraceFinish) :
      .finish other ∈ events ++ [.finish ended] ↔ .finish other ∈ events ∨ other = ended := by simp
  obtain ⟨apart, distinct⟩ := List.nodup_cons.mp balanced.distinct
  refine ⟨?_, fun info start => balanced.below info ((starts info).mp start), ?_, ?_, ?_, distinct, ?_⟩
  · rw [List.filterMap_append, show [TraceEvent.finish ended].filterMap TraceEvent.started = [] from rfl,
      List.append_nil]
    exact balanced.increasing
  · rw [List.filterMap_append, List.nodup_append]
    refine ⟨balanced.once, by simp [TraceEvent.finishedId], fun id member other last => ?_⟩
    obtain rfl : other = ended.info.id := by simpa [TraceEvent.finishedId] using last
    obtain ⟨event, there, same⟩ := List.mem_filterMap.mp member
    cases event with
    | start => cases same
    | finish earlier =>
      cases same
      exact unfinished earlier there
  · intro i other found
    rw [List.getElem?_append] at found
    split at found
    · obtain ⟨j, before, start⟩ := balanced.preceded i other found
      exact ⟨j, before, by rw [List.getElem?_append_left (by omega)]; exact start⟩
    · rename_i outside
      have member := List.mem_of_getElem? found
      obtain rfl : other = ended := by simpa using member
      obtain ⟨j, start⟩ := List.mem_iff_getElem?.mp started
      have inside := (List.getElem?_eq_some_iff.mp start).1
      exact ⟨j, by omega, by rw [List.getElem?_append_left inside]; exact start⟩
  · intro other finished
    rcases (finishes other).mp finished with earlier | rfl
    · exact balanced.counted other earlier
    · exact counted
  · intro info
    constructor
    · intro waits
      obtain ⟨start, open'⟩ := (balanced.unfinished info).mp (List.mem_cons_of_mem _ waits)
      refine ⟨(starts info).mpr start, fun other finished => ?_⟩
      rcases (finishes other).mp finished with earlier | rfl
      · exact open' other earlier
      · intro same
        exact apart (same ▸ List.mem_map_of_mem waits)
    · rintro ⟨start, open'⟩
      have waits := (balanced.unfinished info).mpr
        ⟨(starts info).mp start, fun other finished => open' other ((finishes other).mpr (.inl finished))⟩
      rcases List.mem_cons.mp waits with rfl | waits
      · exact absurd rfl (open' ended ((finishes ended).mpr (.inr rfl)))
      · exact waits

/-- Some of the requests are finished, one after another. -/
theorem finishAll {list : List TraceFinish} (balanced : Balanced events (list.map TraceFinish.info ++ rest) bound)
    (counted : ∀ ended ∈ list, ended.okCount + ended.errorCount = ended.info.commandCount) :
    Balanced (events ++ list.map TraceEvent.finish) rest bound := by
  induction list generalizing events with
  | nil => simpa using balanced
  | cons first more ih =>
    have one := ends first balanced (counted first List.mem_cons_self)
    have all := ih one fun ended member => counted ended (List.mem_cons_of_mem _ member)
    simpa using all

end Balanced

/-! The sink of a request. -/

variable {ρ : Type}

namespace Sink

/-- The sink of a request with a trace context: the slot that completes it emits the finish event. -/
structure Tracked (sink : Sink ρ) (info : TraceInfo) : Prop where
  context : ∃ hooks : TraceHooks, sink.context = some ⟨hooks, info⟩ ∧ hooks.onFinish = true
  expected : sink.response.expected = info.commandCount
  finish : sink.finish = sink.response.result.map (summarize info)
  full : ∀ results, sink.response.result = some results → results.length = sink.response.expected

/-- A sink without context never emits. -/
structure Untracked (sink : Sink ρ) : Prop where
  context : sink.context = none
  finish : sink.finish = none

variable {sink later : Sink ρ} {info : TraceInfo}

theorem receive_eq (sink : Sink ρ) (delivery : Delivery Message ErrorInfo) :
    ∃ slot, receive sink delivery = sink.accept slot := by
  cases delivery with
  | message msg => exact ⟨_, rfl⟩
  | error err => exact ⟨_, rfl⟩

theorem response_accept {response : PendingResponse sink.slotFromMessage} (incomplete : response.result = none)
    (slot : Except ErrorInfo ρ) : (response.accept slot).expected = response.expected ∧
      ∀ results, (response.accept slot).result = some results → results.length = response.expected := by
  rw [PendingResponse.accept, if_neg (by simp [incomplete])]
  refine ⟨rfl, fun results set => ?_⟩
  split at set
  · rename_i full
    cases set
    exact full
  · cases set

theorem Tracked.accept (tracked : sink.Tracked info) (incomplete : sink.response.result = none)
    (slot : Except ErrorInfo ρ) : (sink.accept slot).Tracked info := by
  obtain ⟨hooks, context, onFinish⟩ := tracked.context
  obtain ⟨expected, full⟩ := response_accept incomplete slot
  have unfinished : sink.finish = none := by
    rw [tracked.finish, incomplete]
    rfl
  rw [Sink.accept, if_neg (by simp [incomplete])]
  cases result : (sink.response.accept slot).result with
  | none =>
    refine ⟨⟨hooks, context, onFinish⟩, expected.trans tracked.expected, ?_, fun results set => ?_⟩
    · dsimp only
      rw [result, unfinished]
      rfl
    · cases result.symm.trans set
  | some results =>
    have enabled : hooks.enabled = true := by simp [TraceHooks.enabled, onFinish]
    simp only [emitTraceFinish, context, enabled, onFinish, unfinished, and_self, if_true]
    refine ⟨⟨hooks, rfl, onFinish⟩, expected.trans tracked.expected, ?_, fun other set => ?_⟩
    · dsimp only
      rw [result]
      rfl
    · cases result.symm.trans set
      exact (full results result).trans expected.symm

theorem Untracked.accept (untracked : sink.Untracked) (slot : Except ErrorInfo ρ) : (sink.accept slot).Untracked := by
  have silent : sink.context = none := untracked.context
  unfold Sink.accept
  split
  · exact untracked
  · split
    · exact ⟨silent, untracked.finish⟩
    · rw [emitTraceFinish]
      simp only [silent]
      exact ⟨rfl, untracked.finish⟩

theorem Tracked.evolves (tracked : sink.Tracked info) (evolves : Sinks.Evolves sink later) : later.Tracked info := by
  induction evolves with
  | refl => exact tracked
  | tail _ step ih =>
    obtain ⟨incomplete, delivery, rfl⟩ := step
    obtain ⟨slot, same⟩ := receive_eq _ delivery
    rw [same]
    exact ih.accept (by simpa [ResponseSink.isComplete] using incomplete) slot

theorem Untracked.evolves (untracked : sink.Untracked) (evolves : Sinks.Evolves sink later) : later.Untracked := by
  induction evolves with
  | refl => exact untracked
  | tail _ step ih =>
    obtain ⟨-, delivery, rfl⟩ := step
    obtain ⟨slot, same⟩ := receive_eq _ delivery
    rw [same]
    exact ih.accept slot

theorem counted (info : TraceInfo) (results : List (Except ErrorInfo ρ)) :
    (summarize info results).okCount + (summarize info results).errorCount = results.length := by
  have split : results.length = _ := List.length_eq_countP_add_countP isOk
  simpa [summarize] using split.symm

/-- The request a sink has a context for. -/
def request (sink : Sink ρ) : Option TraceInfo := sink.context.map TraceContext.info

/-- With or without a context. -/
def Known (sink : Sink ρ) : Prop := sink.Untracked ∨ ∃ info, sink.Tracked info

/-- A sink that is not complete has not emitted. -/
theorem Known.unfinished (known : sink.Known) (incomplete : sink.response.result = none) : sink.finish = none := by
  rcases known with untracked | ⟨info, tracked⟩
  · exact untracked.finish
  · rw [tracked.finish, incomplete]
    rfl

theorem Known.evolves (known : sink.Known) (evolves : Sinks.Evolves sink later) :
    later.Known ∧ later.request = sink.request := by
  rcases known with untracked | ⟨info, tracked⟩
  · have after := untracked.evolves evolves
    refine ⟨.inl after, ?_⟩
    rw [request, request, untracked.context, after.context]
  · have after := tracked.evolves evolves
    obtain ⟨hooks, context, -⟩ := tracked.context
    obtain ⟨hooks', context', -⟩ := after.context
    refine ⟨.inr ⟨info, after⟩, ?_⟩
    rw [request, request, context, context']
    rfl

/-- A complete sink has emitted the finish event of its request, if it has a context. -/
theorem Known.finished {results : List (Except ErrorInfo ρ)} (known : sink.Known)
    (complete : sink.response.result = some results) :
    sink.finish.map TraceFinish.info = sink.request ∧
      ∀ ended, sink.finish = some ended → ended.okCount + ended.errorCount = ended.info.commandCount := by
  rcases known with untracked | ⟨info, tracked⟩
  · rw [request, untracked.context, untracked.finish]
    exact ⟨rfl, nofun⟩
  · obtain ⟨hooks, context, -⟩ := tracked.context
    rw [request, context, tracked.finish, complete]
    refine ⟨rfl, fun ended emitted => ?_⟩
    cases emitted
    rw [counted, tracked.full results complete, tracked.expected]
    rfl

end Sink

namespace Traffic

variable {t next : Traffic ρ}

/-- The request whose context the sink has. -/
def infoOf (sinks : Sinks (Sink ρ) Message ErrorInfo) (ref : SinkRef) : Option TraceInfo :=
  (sinks.cells[ref]?).bind Sink.request

/-- The requests in the pipeline that have a context. -/
def pending (t : Traffic ρ) : List TraceInfo := t.pipeline.refs.filterMap (infoOf t.sinks)

/-- Deliveries leave it known whose sink it is. -/
theorem infoOf_later {before after : Sinks (Sink ρ) Message ErrorInfo} {accepted : List SinkRef}
    (known : ∀ (ref : SinkRef) sink, before.cells[ref]? = some sink → sink.Known)
    (users : ∀ ref < before.cells.length, (infoOf before ref).isSome = true ↔ ref ∈ accepted)
    (later : before.Later after) :
    (∀ ref < before.cells.length, infoOf after ref = infoOf before ref) ∧
      (∀ (ref : SinkRef) sink, after.cells[ref]? = some sink → sink.Known) ∧
      ∀ ref < after.cells.length, (infoOf after ref).isSome = true ↔ ref ∈ accepted := by
  have each (ref : SinkRef) (inside : ref < before.cells.length) :
      ∃ new, after.cells[ref]? = some new ∧ new.Known ∧ infoOf after ref = infoOf before ref := by
    have found := List.getElem?_eq_getElem inside
    obtain ⟨new, present, evolves⟩ := later.evolved ref _ found
    obtain ⟨known, same⟩ := (known ref _ found).evolves evolves
    refine ⟨new, present, known, ?_⟩
    rw [infoOf, infoOf, present, found]
    exact same
  refine ⟨fun ref inside => ?_, fun ref sink found => ?_, fun ref inside => ?_⟩
  · obtain ⟨-, -, -, same⟩ := each ref inside
    exact same
  · have inside := (List.getElem?_eq_some_iff.mp found).1
    obtain ⟨new, present, known, -⟩ := each ref (later.size ▸ inside)
    cases present.symm.trans found
    exact known
  · obtain ⟨-, -, -, same⟩ := each ref (later.size ▸ inside)
    rw [same]
    exact users ref (later.size ▸ inside)

/-- The trace is that of the requests in the pipeline. -/
structure Traced (t : Traffic ρ) : Prop where
  hooks : t.hooks.onStart = true ∧ t.hooks.onFinish = true
  kept : t.Kept
  known : ∀ (ref : SinkRef) sink, t.sinks.cells[ref]? = some sink → sink.Known
  users : ∀ ref < t.sinks.cells.length, (infoOf t.sinks ref).isSome = true ↔ ref ∈ t.accepted
  balanced : Balanced t.trace t.pending t.nextRequestId

namespace Traced

variable {sinks : Sinks (Sink ρ) Message ErrorInfo} {ref : SinkRef}

/-- A request that leaves the pipeline emits its finish event; one that stays emits none. -/
theorem finishes_queued (traced : t.Traced) (later : t.sinks.Later sinks) (queued : ref ∈ t.pipeline.refs) :
    ∃ old new, t.sinks.cells[ref]? = some old ∧ old.finish = none ∧ sinks.cells[ref]? = some new ∧
      (sinks.isComplete ref = false → new.finish = none) ∧
      (sinks.isComplete ref = true → new.finish.map TraceFinish.info = infoOf t.sinks ref ∧
        ∀ ended, new.finish = some ended → ended.okCount + ended.errorCount = ended.info.commandCount) := by
  obtain ⟨old, found, incomplete⟩ := traced.kept.stocked.held ref queued
  obtain ⟨new, present, evolves⟩ := later.evolved ref old found
  have before := traced.known ref old found
  obtain ⟨after, same⟩ := before.evolves evolves
  have unset : old.response.result = none := by simpa [ResponseSink.isComplete] using incomplete
  refine ⟨old, new, found, before.unfinished unset, present, fun incomplete => ?_, fun complete => ?_⟩
  · rw [Sinks.isComplete, present] at incomplete
    exact after.unfinished (by simpa [ResponseSink.isComplete] using incomplete)
  · rw [Sinks.isComplete, present] at complete
    obtain ⟨results, set⟩ := Option.isSome_iff_exists.mp complete
    rw [infoOf, found, Option.bind_some, ← same]
    exact after.finished set

/-- Deliveries after which some requests have left the pipeline. -/
theorem delivers {pipeline : Pipeline} {gone still : List SinkRef} (traced : t.Traced) (later : t.sinks.Later sinks)
    (stocked : pipeline.Stocked sinks) (split : t.pipeline.refs.Perm (gone ++ pipeline.refs))
    (stays : ∀ ref ∈ still, ref ∈ pipeline.refs) (complete : ∀ ref ∈ gone, sinks.isComplete ref = true) :
    Balanced (t.trace ++ System.finishes t.sinks sinks (gone ++ still)) (pipeline.refs.filterMap (infoOf sinks))
      t.nextRequestId := by
  have left {ref : SinkRef} (member : ref ∈ gone) : ref ∈ t.pipeline.refs :=
    split.mem_iff.mpr (List.mem_append_left _ member)
  have stayed {ref : SinkRef} (member : ref ∈ pipeline.refs) : ref ∈ t.pipeline.refs :=
    split.mem_iff.mpr (List.mem_append_right _ member)
  let ended (ref : SinkRef) : Option TraceFinish := (sinks.cells[ref]?).bind Sink.finish
  have events : System.finishes t.sinks sinks (gone ++ still) = (gone.filterMap ended).map TraceEvent.finish := by
    have silent : System.finishes t.sinks sinks still = [] := by
      apply List.filterMap_eq_nil_iff.mpr
      intro ref member
      obtain ⟨old, new, found, unset, present, silent, -⟩ := traced.finishes_queued later (stayed (stays ref member))
      simp [found, present, unset, silent (stocked.incomplete (stays ref member))]
    have appended : System.finishes t.sinks sinks (gone ++ still) =
        System.finishes t.sinks sinks gone ++ System.finishes t.sinks sinks still := List.filterMap_append
    rw [appended, silent, List.append_nil, System.finishes, List.map_filterMap]
    apply List.filterMap_congr
    intro ref member
    obtain ⟨old, new, found, unset, present, -⟩ := traced.finishes_queued later (left member)
    simp [ended, found, present, unset]
  have infos : (gone.filterMap ended).map TraceFinish.info = gone.filterMap (infoOf t.sinks) := by
    rw [List.map_filterMap]
    apply List.filterMap_congr
    intro ref member
    obtain ⟨old, new, found, unset, present, -, emitted⟩ := traced.finishes_queued later (left member)
    simp only [ended, present, Option.bind_some]
    exact (emitted (complete ref member)).1
  have same : pipeline.refs.filterMap (infoOf sinks) = pipeline.refs.filterMap (infoOf t.sinks) := by
    apply List.filterMap_congr
    intro ref member
    exact (infoOf_later traced.known traced.users later).1 ref (traced.kept.stocked.bound (stayed member))
  rw [events, same]
  apply Balanced.finishAll
  · rw [infos, ← List.filterMap_append]
    exact traced.balanced.perm (split.filterMap _)
  · intro finish member
    obtain ⟨ref, member, emits⟩ := List.mem_filterMap.mp member
    obtain ⟨old, new, found, unset, present, -, emitted⟩ := traced.finishes_queued later (left member)
    simp only [ended, present, Option.bind_some] at emits
    exact (emitted (complete ref member)).2 finish emits

/-- What deliveries leave as it was. -/
theorem delivered {pipeline : Pipeline} {refs : List SinkRef} (traced : t.Traced) (gone still : List SinkRef)
    (kept : (t.delivered pipeline sinks refs).Kept) (later : t.sinks.Later sinks)
    (split : t.pipeline.refs.Perm (gone ++ pipeline.refs)) (stays : ∀ ref ∈ still, ref ∈ pipeline.refs)
    (complete : ∀ ref ∈ gone, sinks.isComplete ref = true) (all : refs = gone ++ still) :
    (t.delivered pipeline sinks refs).Traced where
  hooks := traced.hooks
  kept := kept
  known := (infoOf_later traced.known traced.users later).2.1
  users := (infoOf_later traced.known traced.users later).2.2
  balanced := by
    rw [all]
    exact traced.delivers later kept.stocked split stays complete

/-- A sink is made behind the others. -/
theorem made {sink : Sink ρ} (traced : t.Traced) (accepted : List SinkRef) (known : sink.Known)
    (cells : sinks.cells = t.sinks.cells ++ [sink])
    (listed : ∀ ref, ref ∈ accepted ↔ ref ∈ t.accepted ∨ (ref = t.sinks.cells.length ∧ sink.request.isSome = true)) :
    (∀ ref < t.sinks.cells.length, infoOf sinks ref = infoOf t.sinks ref) ∧
      infoOf sinks t.sinks.cells.length = sink.request ∧
      (∀ (ref : SinkRef) sink, sinks.cells[ref]? = some sink → sink.Known) ∧
      ∀ ref < sinks.cells.length, (infoOf sinks ref).isSome = true ↔ ref ∈ accepted := by
  have same (ref : SinkRef) (inside : ref < t.sinks.cells.length) : infoOf sinks ref = infoOf t.sinks ref := by
    rw [infoOf, infoOf, cells, List.getElem?_append_left inside]
  have last : infoOf sinks t.sinks.cells.length = sink.request := by
    rw [infoOf, cells, List.getElem?_append_right (Nat.le_refl _), Nat.sub_self]
    rfl
  refine ⟨same, last, fun ref other found => ?_, fun ref inside => ?_⟩
  · rw [cells, List.getElem?_append] at found
    split at found
    · exact traced.known ref other found
    · obtain rfl : other = sink := by simpa using List.mem_of_getElem? found
      exact known
  · have inside : ref < t.sinks.cells.length + 1 := by simpa [cells] using inside
    rcases Nat.lt_succ_iff_lt_or_eq.mp inside with earlier | rfl
    · rw [same ref earlier, traced.users ref earlier, listed]
      exact ⟨.inl, fun either => either.resolve_right fun new => absurd earlier (new.1 ▸ Nat.lt_irrefl _)⟩
    · rw [last, listed]
      exact ⟨fun known => .inr ⟨rfl, known⟩,
        fun either => (either.resolve_left fun old => Nat.lt_irrefl _ (traced.kept.bound _ old)).2⟩

theorem pending_eq {pipeline : Pipeline} (traced : t.Traced) (same : pipeline.refs = t.pipeline.refs)
    (infos : ∀ ref < t.sinks.cells.length, infoOf sinks ref = infoOf t.sinks ref) :
    pipeline.refs.filterMap (infoOf sinks) = t.pending := by
  rw [same, pending]
  apply List.filterMap_congr
  exact fun ref member => infos ref (traced.kept.stocked.bound member)

/-- A request is pushed with the sink that was made last. -/
theorem pending_push {pipeline : Pipeline} {req : Request} {deadline : TimePoint} (traced : t.Traced)
    (pushed : t.pipeline.push req t.sinks.cells.length deadline = some pipeline)
    (infos : ∀ ref < t.sinks.cells.length, infoOf sinks ref = infoOf t.sinks ref) :
    (pipeline.refs.filterMap (infoOf sinks)).Perm ((infoOf sinks t.sinks.cells.length).toList ++ t.pending) := by
  have same := (refs_push pushed).filterMap (infoOf sinks)
  rw [List.filterMap_cons, traced.pending_eq rfl infos] at same
  cases info : infoOf sinks t.sinks.cells.length with
  | none =>
    rw [info] at same
    exact same
  | some found =>
    rw [info] at same
    exact same

theorem forRequest_untracked (slotFromMessage : Nat → Message → Except ErrorInfo ρ) (req : Request) :
    (Sink.forRequest slotFromMessage req).Untracked := ⟨rfl, rfl⟩

theorem step (traced : t.Traced) (move : Move t next) : next.Traced := by
  have kept : next.Kept := traced.kept.step move
  have enabled : t.hooks.enabled = true := by simp [TraceHooks.enabled, traced.hooks.1]
  -- a sink without context is none of a user request
  have quiet {sink : Sink ρ} {sinks : Sinks (Sink ρ) Message ErrorInfo} (untracked : sink.Untracked)
      (cells : sinks.cells = t.sinks.cells ++ [sink]) :=
    traced.made t.accepted (.inl untracked) cells (by simp [Sink.request, untracked.context])
  cases move with
  | @reject req slotFromMessage errc sinks refused =>
    have cells : (t.announce req slotFromMessage).sinks.cells = t.sinks.cells ++ [_] := rfl
    obtain ⟨infos, -, known, users⟩ := quiet (forRequest_untracked slotFromMessage req) cells
    obtain ⟨later, known, users⟩ := infoOf_later known users refused.later
    have same : t.pipeline.refs.filterMap (infoOf sinks) = t.pending := by
      apply traced.pending_eq rfl
      intro ref inside
      rw [later ref (by rw [cells, List.length_append]; exact Nat.lt_succ_of_lt inside), infos ref inside]
    have started := traced.balanced.start (t.traceInfo req) rfl
    have ended := Balanced.ends (rejection (t.traceInfo req) req.replyCount errc) started (Nat.zero_add _)
    refine ⟨traced.hooks, kept, known, users, ?_⟩
    simp only [announce, traced.hooks.1, traced.hooks.2, enabled, if_true]
    exact ended.perm (.of_eq same.symm)
  | @queue req slotFromMessage deadline pipeline accepted pushed one =>
    obtain ⟨context, set, cells⟩ := cells_install t req slotFromMessage
    rw [set enabled] at cells
    have tracked : Sink.Tracked { Sink.forRequest slotFromMessage req with context := some ⟨t.hooks, t.traceInfo req⟩ }
        (t.traceInfo req) := ⟨⟨t.hooks, rfl, traced.hooks.2⟩, rfl, rfl, fun results same => by cases same⟩
    obtain ⟨infos, last, known, users⟩ := traced.made accepted (.inr ⟨_, tracked⟩) cells (by simp [one, Sink.request])
    have same := traced.pending_push pushed infos
    rw [last] at same
    refine ⟨traced.hooks, kept, known, users, ?_⟩
    have started := traced.balanced.start (t.traceInfo req) rfl
    simp only [announce, traced.hooks.1, enabled, if_true]
    exact started.perm same.symm
  | write applied =>
    exact { traced with
      kept := kept
      balanced := traced.balanced.perm ((refs_onWriteDone applied).filterMap _).symm }
  | @answer pipeline sinks answered =>
    obtain ⟨gone, front⟩ := answered.awaitingRead
    have split : t.pipeline.refs.Perm (gone.map AwaitingItem.sink ++ pipeline.refs) := by
      rw [refs, refs, answered.pendingWrite, ← front, List.map_append]
      exact List.perm_append_comm_assoc _ _ _
    refine traced.delivered (gone.map AwaitingItem.sink) (pipeline.awaitingRead.map AwaitingItem.sink) kept
      answered.later split (fun ref member => List.mem_append_right _ member) (fun ref member => ?_) ?_
    · -- who has left is not in the pipeline any more
      apply answered.served ref (split.mem_iff.mpr (List.mem_append_left _ member))
      intro still
      exact (List.nodup_append.mp (split.nodup_iff.mp traced.kept.stocked.distinct)).2.2 ref member ref still rfl
    · rw [← front, List.map_append]
  | clear cleared =>
    refine traced.delivered t.pipeline.refs [] kept cleared.later ?_ (List.forall_mem_nil _) cleared.complete ?_
    · rw [cleared.empty, List.append_nil]
    · rw [List.append_nil]
  | alloc slotFromMessage req =>
    have cells : (t.sinks.alloc (Sink.forRequest slotFromMessage req)).2.cells = t.sinks.cells ++ [_] := rfl
    obtain ⟨infos, -, known, users⟩ := quiet (forRequest_untracked slotFromMessage req) cells
    exact ⟨traced.hooks, kept, known, users, traced.balanced.perm (.of_eq (traced.pending_eq rfl infos).symm)⟩
  | @push slotFromMessage req deadline pipeline pushed =>
    have cells : (t.sinks.alloc (Sink.forRequest slotFromMessage req)).2.cells = t.sinks.cells ++ [_] := rfl
    obtain ⟨infos, last, known, users⟩ := quiet (forRequest_untracked slotFromMessage req) cells
    have same := traced.pending_push pushed infos
    rw [last] at same
    exact ⟨traced.hooks, kept, known, users, traced.balanced.perm same.symm⟩

end Traced

end Traffic

namespace System

variable [FloatChars] [Inhabited ρ] {fuel : Nat} {cfg : Config} {s : System ρ}

theorem Reached.traced (reached : Reached fuel cfg s)
    (hooked : cfg.traceHooks.onStart = true ∧ cfg.traceHooks.onFinish = true) : s.traffic.Traced := by
  have start : (System.start cfg : System ρ).traffic.Traced :=
    ⟨hooked, (start_tenancy cfg).kept, nofun, fun _ inside => absurd inside (Nat.not_lt_zero _), .empty 1⟩
  exact reached.traffic.invariant (fun _ _ traced move => traced.step move) start

/-- The trace is balanced: ids increase, each request that is finished was started and is finished once, and
what is started and not finished is what the pipeline holds. -/
theorem trace_balanced (hooked : cfg.traceHooks.onStart = true ∧ cfg.traceHooks.onFinish = true)
    (reached : Reached fuel cfg s) :
    (s.trace.filterMap TraceEvent.started).Pairwise (fun earlier later => earlier.id < later.id) ∧
    (s.trace.filterMap TraceEvent.finishedId).Nodup ∧
    (∀ (i : Nat) ended, s.trace[i]? = some (.finish ended) →
      (∃ j < i, s.trace[j]? = some (.start ended.info)) ∧
        ended.okCount + ended.errorCount = ended.info.commandCount) ∧
    (∀ info, (.start info ∈ s.trace ∧ ∀ ended, .finish ended ∈ s.trace → ended.info.id ≠ info.id) ↔
      ∃ ref ∈ s.pipeline.refs, Traffic.infoOf s.sinks ref = some info) ∧
    ∀ ref ∈ s.pipeline.refs, (Traffic.infoOf s.sinks ref).isSome = true ↔ ∃ socket, .accepted ref socket ∈ s.notes := by
  have traced := reached.traced hooked
  have balanced : Balanced s.trace (s.pipeline.refs.filterMap (Traffic.infoOf s.sinks)) s.nextRequestId :=
    traced.balanced
  refine ⟨balanced.increasing, balanced.once, fun i ended found => ?_, fun info => ?_, fun ref member => ?_⟩
  · exact ⟨balanced.preceded i ended found, balanced.counted ended (List.mem_of_getElem? found)⟩
  · rw [← balanced.unfinished, List.mem_filterMap]
  · have users := traced.users ref (traced.kept.stocked.bound member)
    refine users.trans ?_
    constructor
    · intro accepted
      obtain ⟨note, noted, request⟩ := List.mem_filterMap.mp accepted
      cases note with
      | accepted other socket =>
        cases request
        exact ⟨socket, noted⟩
      | _ => cases request
    · rintro ⟨socket, accepted⟩
      exact accepted_mem accepted

omit [FloatChars] [Inhabited ρ] in
/-- One request is rejected before the connection is open, one is answered and one still waits. -/
theorem trace_balanced_served : letI := FloatChars.none
    ∃ s : System Unit, (Reached 8 { traceHooks := ⟨true, true⟩ } s ∧
      s.trace.filterMap TraceEvent.finishedId = [1, 2] ∧ s.pipeline.refs = [3]) ∧
      ∃ info, Traffic.infoOf s.sinks 3 = some info ∧ .start info ∈ s.trace := by
  let := FloatChars.none
  let ping : Act Unit := .enqueue (Request.ofCommands [.variadic (text "PING") []]) fun _ _ => .ok ()
  have run : ∃ s : System Unit, Reached 8 { traceHooks := ⟨true, true⟩ } s ∧
      s.trace.filterMap TraceEvent.finishedId = [1, 2] ∧ s.pipeline.refs = [3] ∧
      (Traffic.infoOf s.sinks 3).isSome = true :=
    Reached.of_run 8 { traceHooks := ⟨true, true⟩ }
      ([ping] ++ opening ++ [.controlRun .wakeup 0, .writerRun .wakeup, .readerRun .wakeup, ping, .writerRun .wakeup,
        .writerComplete (.ok 14), .writerResume, ping, .readerComplete (.ok (text "+PONG\r\n")), .readerResume])
      (by decide +kernel)
  obtain ⟨s, reached, finished, queued, known⟩ := run
  obtain ⟨info, found⟩ := Option.isSome_iff_exists.mp known
  obtain ⟨-, -, -, unfinished, -⟩ := trace_balanced ⟨rfl, rfl⟩ reached
  have waits := (unfinished info).mpr ⟨3, by simp [queued], found⟩
  exact ⟨s, ⟨reached, finished, queued⟩, info, found, waits.1⟩

end System

end Rediscoro.Connection

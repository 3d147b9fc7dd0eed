import Rediscoro.Connection.Tracing
import Rediscoro.Connection.Wakeups

/-! How requests end.

A sink that is failed gets the error into every slot that is still open. So a request
that is overdue takes all pending requests with it: the control loop is awake for it,
and each of them ends with the replies it has and the timeout in its other slots.
-/

set_option autoImplicit false

namespace Rediscoro.Connection

open Rediscoro.Semantics Rediscoro.Resp3 Rediscoro.Pipeline

variable {ρ : Type}

namespace Sink

/-- How many slots are open. -/
def missing (sink : Sink ρ) : Nat := sink.response.expected - sink.response.slots.length

/-- The result of a sink whose open slots get the error. -/
def failedWith (sink : Sink ρ) (err : ErrorInfo) : List (Except ErrorInfo ρ) :=
  sink.response.slots ++ List.replicate sink.missing (.error err)

/-- A sink without a result has an open slot, unless it was made for no reply; the result is its slots. -/
structure Sane (sink : Sink ρ) : Prop where
  missing : sink.response.result = none →
    sink.response.slots.length < sink.response.expected ∨ sink.response.expected = 0
  full : ∀ results, sink.response.result = some results →
    results = sink.response.slots ∧ sink.response.slots.length = sink.response.expected

variable {sink : Sink ρ}

/-- The finish event leaves the response as it is. -/
theorem emitTraceFinish_eq (sink : Sink ρ) (results : List (Except ErrorInfo ρ)) :
    ∃ finish, sink.emitTraceFinish results = { sink with finish := finish } := by
  unfold emitTraceFinish
  split
  · exact ⟨sink.finish, rfl⟩
  · split
    · exact ⟨some _, rfl⟩
    · exact ⟨sink.finish, rfl⟩

theorem accept_eq (unset : sink.response.result = none) (slot : Except ErrorInfo ρ) :
    ∃ finish, sink.accept slot = { sink with response := sink.response.accept slot, finish := finish } := by
  unfold accept
  rw [if_neg (by simp [unset])]
  split
  · exact ⟨sink.finish, rfl⟩
  · exact emitTraceFinish_eq _ _

/-- A slot is filled, and the last one sets the result. -/
theorem slots_accept (unset : sink.response.result = none) (slot : Except ErrorInfo ρ) :
    (sink.accept slot).response.expected = sink.response.expected ∧
      (sink.accept slot).response.slots = sink.response.slots ++ [slot] ∧
      (sink.accept slot).response.result =
        if sink.response.slots.length + 1 = sink.response.expected then some (sink.response.slots ++ [slot])
          else none := by
  obtain ⟨finish, same⟩ := accept_eq unset slot
  rw [same, PendingResponse.accept, if_neg (by simp [unset])]
  exact ⟨rfl, rfl, by simp⟩

theorem sane_receive (sane : sink.Sane) (delivery : Delivery Message ErrorInfo)
    (incomplete : ResponseSink.isComplete sink = false) : (receive sink delivery).Sane := by
  have unset : sink.response.result = none := by simpa [ResponseSink.isComplete] using incomplete
  obtain ⟨slot, same⟩ := receive_eq sink delivery
  obtain ⟨expected, slots, result⟩ := slots_accept unset slot
  rw [same]
  constructor
  · intro still
    rw [result] at still
    rw [expected, slots, List.length_append, List.length_singleton]
    split at still
    · cases still
    · rcases sane.missing unset with missing | none
      · omega
      · exact .inr none
  · intro results set
    rw [result] at set
    split at set
    · rename_i last
      cases set
      refine ⟨slots.symm, ?_⟩
      rw [expected, slots, List.length_append, List.length_singleton]
      exact last
    · cases set

theorem sane_evolves {later : Sink ρ} (sane : sink.Sane) (evolves : Sinks.Evolves sink later) : later.Sane := by
  induction evolves with
  | refl => exact sane
  | tail _ step ih =>
    obtain ⟨incomplete, delivery, rfl⟩ := step
    exact sane_receive ih delivery incomplete

end Sink

/-- `fail_all` fills the open slots with the error. -/
theorem failAll_fills {sinks : Sinks (Sink ρ) Message ErrorInfo} {ref : SinkRef} {sink : Sink ρ} {fuel : Nat}
    (err : ErrorInfo) (found : sinks.cells[ref]? = some sink) (unset : sink.response.result = none)
    (missing : sink.response.slots.length < sink.response.expected) (enough : sink.missing < fuel) :
    ∃ after last, sinks.failAll fuel err ref = some after ∧ after.cells[ref]? = some last ∧
      last.response.result = some (sink.failedWith err) ∧
      ∀ other, other ≠ ref → after.cells[other]? = sinks.cells[other]? := by
  -- Induction on the rounds: each fills a slot, and the slot that fills the sink ends the loop.
  induction fuel generalizing sinks sink with
  | zero => omega
  | succ fuel ih =>
    have unfinished : ResponseSink.isComplete sink = false := by simp [ResponseSink.isComplete, unset]
    have waiting : ¬sinks.isComplete ref = true := by simp [Sinks.isComplete, found, unfinished]
    have goes : Sinks.failPass err ref sinks = .again (sinks.deliver ref (.error err)) := by
      rw [Sinks.failPass, if_neg waiting]
    have next : (sinks.deliver ref (.error err)).cells[ref]? = some (sink.accept (.error err)) :=
      Sinks.cells_deliver_open found (by simp [unfinished]) (.error err)
    have others (other : SinkRef) (apart : other ≠ ref) :
        (sinks.deliver ref (.error err)).cells[other]? = sinks.cells[other]? := Sinks.cells_deliver_of_ne apart _
    obtain ⟨expected, slots, result⟩ := Sink.slots_accept unset (.error err)
    rw [Sinks.failAll, iterate_again goes]
    by_cases last : sink.response.slots.length + 1 = sink.response.expected
    · rw [if_pos last] at result
      obtain ⟨fuel, rfl⟩ : ∃ more, fuel = more + 1 := ⟨fuel - 1, by unfold Sink.missing at enough; omega⟩
      have complete : (sinks.deliver ref (.error err)).isComplete ref = true := by
        rw [Sinks.isComplete, next]
        change (sink.accept (.error err)).response.result.isSome = true
        rw [result]
        rfl
      have done : Sinks.failPass err ref (sinks.deliver ref (.error err)) =
          .leave (sinks.deliver ref (.error err)) := by
        rw [Sinks.failPass, if_pos complete]
      refine ⟨_, _, iterate_leave done, next, ?_, others⟩
      have one : sink.missing = 1 := by unfold Sink.missing; omega
      rw [Sink.failedWith, one]
      exact result
    · rw [if_neg last] at result
      have more : (sink.accept (.error err)).response.slots.length < (sink.accept (.error err)).response.expected := by
        rw [slots, expected, List.length_append, List.length_singleton]
        omega
      have fewer : sink.missing = (sink.accept (.error err)).missing + 1 := by
        rw [Sink.missing, Sink.missing, slots, expected, List.length_append, List.length_singleton]
        omega
      obtain ⟨after, final, ended, there, filled, rest⟩ := ih next result more (by rw [fewer] at enough; omega)
      refine ⟨after, final, ended, there, ?_, fun other apart => (rest other apart).trans (others other apart)⟩
      change final.response.result = some ((sink.accept (.error err)).response.slots ++
        List.replicate (sink.accept (.error err)).missing (.error err)) at filled
      rw [filled, slots, Sink.failedWith, fewer, List.replicate_succ, List.append_assoc]
      rfl

/-- Each of some sinks with open slots. -/
theorem failEach_fills {sinks : Sinks (Sink ρ) Message ErrorInfo} {refs : List SinkRef} {fuel : Nat} (err : ErrorInfo)
    (distinct : refs.Nodup)
    (opens : ∀ ref ∈ refs, ∃ sink, sinks.cells[ref]? = some sink ∧ sink.response.result = none ∧
      sink.response.slots.length < sink.response.expected ∧ sink.missing < fuel) :
    ∃ after, sinks.failEach fuel err refs = some after ∧
      (∀ ref ∈ refs, ∀ sink, sinks.cells[ref]? = some sink →
        ∃ last, after.cells[ref]? = some last ∧ last.response.result = some (sink.failedWith err)) ∧
      ∀ other, other ∉ refs → after.cells[other]? = sinks.cells[other]? := by
  induction refs generalizing sinks with
  | nil => exact ⟨sinks, rfl, by simp, fun _ _ => rfl⟩
  | cons ref rest ih =>
    obtain ⟨fresh, distinct⟩ := List.nodup_cons.mp distinct
    obtain ⟨sink, found, unset, missing, enough⟩ := opens ref List.mem_cons_self
    obtain ⟨middle, final, first, there, filled, others⟩ := failAll_fills err found unset missing enough
    have apart (other : SinkRef) (member : other ∈ rest) : other ≠ ref := fun same => fresh (same ▸ member)
    obtain ⟨after, second, later, untouched⟩ := ih distinct (by
      intro other member
      rw [others other (apart other member)]
      exact opens other (List.mem_cons_of_mem _ member))
    refine ⟨after, by rw [Sinks.failEach, first]; exact second, fun other member sink' here => ?_,
      fun other absent => ?_⟩
    · rcases List.mem_cons.mp member with rfl | member
      · cases found.symm.trans here
        exact ⟨final, (untouched _ fresh).trans there, filled⟩
      · exact later other member sink' (by rw [others other (apart other member)]; exact here)
    · rw [List.mem_cons, not_or] at absent
      exact (untouched other absent.2).trans (others other absent.1)

/-- `clear_all` where every request in the pipeline has open slots. -/
theorem clearAll_fills {p : Pipeline} {sinks : Sinks (Sink ρ) Message ErrorInfo} {fuel : Nat} (err : ErrorInfo)
    (distinct : p.refs.Nodup)
    (opens : ∀ ref ∈ p.refs, ∃ sink, sinks.cells[ref]? = some sink ∧ sink.response.result = none ∧
      sink.response.slots.length < sink.response.expected ∧ sink.missing < fuel) :
    ∃ q after, p.clearAll fuel err sinks = some (q, after) ∧ q.pendingCount = 0 ∧
      ∀ ref ∈ p.refs, ∀ sink, sinks.cells[ref]? = some sink →
        ∃ last, after.cells[ref]? = some last ∧ last.response.result = some (sink.failedWith err) := by
  obtain ⟨after, ended, filled, -⟩ := failEach_fills err distinct opens
  rw [refs, Sinks.failEach_append] at ended
  obtain ⟨middle, first, second⟩ := Option.bind_eq_some_iff.mp ended
  refine ⟨{ p with pendingWrite := [], pendingWriteBytes := 0, awaitingRead := [] }, after, ?_, rfl, filled⟩
  simp only [Pipeline.clearAll, first, second]

/-! Sinks with open slots. -/

theorem Sink.sane_forRequest (slotFromMessage : Nat → Message → Except ErrorInfo ρ) (req : Request)
    (context : Option TraceContext) : ({ forRequest slotFromMessage req with context := context } : Sink ρ).Sane :=
  ⟨fun _ => (Nat.eq_zero_or_pos req.replyCount).symm, by simp [forRequest, PendingResponse.forRequest]⟩

/-- Every sink of a store is sane. -/
def AllSane (sinks : Sinks (Sink ρ) Message ErrorInfo) : Prop :=
  ∀ (ref : SinkRef) (sink : Sink ρ), sinks.cells[ref]? = some sink → sink.Sane

namespace AllSane

variable {sinks after : Sinks (Sink ρ) Message ErrorInfo}

theorem later (sane : AllSane sinks) (later : sinks.Later after) : AllSane after := by
  intro ref sink found
  have inside : ref < sinks.cells.length := by
    rw [← later.size]
    exact (List.getElem?_eq_some_iff.mp found).1
  have before := List.getElem?_eq_getElem inside
  obtain ⟨last, there, evolves⟩ := later.evolved ref _ before
  cases there.symm.trans found
  exact Sink.sane_evolves (sane ref _ before) evolves

theorem alloc {made : Sink ρ} (sane : AllSane sinks) (cells : after.cells = sinks.cells ++ [made]) (fresh : made.Sane) :
    AllSane after := by
  intro ref sink found
  rw [cells, List.getElem?_append] at found
  split at found
  · exact sane ref sink found
  · have member := List.mem_of_getElem? found
    rw [List.mem_singleton.mp member]
    exact fresh

theorem step {t next : Traffic ρ} (sane : AllSane t.sinks) (move : Traffic.Move t next) : AllSane next.sinks := by
  cases move with
  | @reject req slotFromMessage errc sinks refused =>
    have made : AllSane (t.announce req slotFromMessage).sinks :=
      sane.alloc rfl (Sink.sane_forRequest slotFromMessage req none)
    exact made.later refused.later
  | @queue req slotFromMessage deadline pipeline accepted pushed one =>
    obtain ⟨context, -, cells⟩ := Traffic.cells_install t req slotFromMessage
    exact sane.alloc cells (Sink.sane_forRequest slotFromMessage req context)
  | write applied => exact sane
  | answer answered => exact sane.later answered.later
  | clear cleared => exact sane.later cleared.later
  | alloc slotFromMessage req => exact sane.alloc rfl (Sink.sane_forRequest slotFromMessage req none)
  | @push slotFromMessage req deadline pipeline pushed =>
    exact sane.alloc rfl (Sink.sane_forRequest slotFromMessage req none)

end AllSane

/-- Where the deadlines are in order, `has_expired` tells whether some request is overdue. -/
theorem hasExpired_iff {p : Pipeline} (sorted : p.deadlines.Pairwise (· ≤ ·)) (now : Nat) :
    p.hasExpired now = true ↔ ∃ time ∈ p.deadlines, time ≤ (now : TimePoint) := by
  rw [Pipeline.hasExpired, nextDeadline_eq sorted, ← earliest_le_iff, Bool.and_eq_true, decide_eq_true_eq,
    decide_eq_true_eq]
  exact and_iff_right_of_imp fun due => ne_top_of_le_ne_top (WithTop.coe_ne_top) due

namespace System

variable {s next : System ρ} {fuel : Nat} {cfg : Config} {token : Token}

theorem Reached.sane [FloatChars] [Inhabited ρ] (reached : Reached fuel cfg s) : AllSane s.sinks :=
  have initially : AllSane (start (ρ := ρ) cfg).traffic.sinks := by
    intro ref sink found
    cases found
  reached.traffic.invariant (fun _ _ (sane : AllSane (Traffic.sinks _)) move => sane.step move) initially

/-- The requests are as they were when the connection failed. -/
theorem traffic_controlFailed (s : System ρ) (token : Token) (delay : Nat) :
    (s.controlFailed token delay).pipeline = s.pipeline ∧ (s.controlFailed token delay).sinks = s.sinks := by
  unfold controlFailed
  split
  · unfold reconnectTop
    split
    · exact ⟨rfl, rfl⟩
    · exact ⟨rfl, rfl⟩
  · exact ⟨rfl, rfl⟩

/-- `handle_error` in OPEN: the pipeline is cleared with the error. -/
theorem handleError_clears {err : ErrorInfo} {pipeline : Pipeline} {sinks : Sinks (Sink ρ) Message ErrorInfo}
    (opened : s.state = .opened) (clears : s.pipeline.clearAll fuel err s.sinks = some (pipeline, sinks)) :
    ∃ next, s.handleError fuel err = some next ∧ next.state = .failed ∧ next.cfg = s.cfg ∧ next.now = s.now ∧
      next.pipeline = pipeline ∧ next.sinks = sinks := by
  let lost := (s.setState .failed).emit .disconnected .runtimeIo .opened .failed (some err)
  let cleared := (lost.note (.cleared lost.writeCompleted)).delivered pipeline sinks
    (s.pipeline.pendingWrite.map PendingItem.sink ++ s.pipeline.awaitingRead.map AwaitingItem.sink)
  have clearing : lost.clearAll fuel err = some cleared := by
    have same : lost.pipeline.clearAll fuel err lost.sinks = some (pipeline, sinks) := clears
    simp only [clearAll, same]
    rfl
  refine ⟨cleared.closeSocket.wakeLoops, ?_, (state_closeSocket cleared), ?_⟩
  · simp only [handleError, opened]
    change (lost.clearAll fuel err).map _ = _
    rw [clearing]
    rfl
  · unfold wakeLoops closeSocket
    split
    · exact ⟨rfl, rfl, rfl, rfl⟩
    · exact ⟨rfl, rfl, rfl, rfl⟩

/-- The control loop fails the connection over a request that is overdue. -/
theorem controlTop_overdue (delay : Nat) {pipeline : Pipeline} {sinks : Sinks (Sink ρ) Message ErrorInfo}
    (opened : s.state = .opened) (unstopped : s.stopRequested token = false)
    (timed : s.cfg.requestTimeout.isSome = true) (expired : s.pipeline.hasExpired s.now = true)
    (clears : s.pipeline.clearAll fuel (.client .requestTimeout) s.sinks = some (pipeline, sinks)) :
    ∃ next, s.controlTop fuel token delay = some next ∧ s.TakenUp delay next ∧ next.pipeline = pipeline ∧
      next.sinks = sinks := by
  obtain ⟨middle, handled, failed, cfg, now, requests, stored⟩ := handleError_clears opened clears
  obtain ⟨same, kept⟩ := traffic_controlFailed middle token delay
  refine ⟨middle.controlFailed token delay, ?_, ?_, same.trans requests, kept.trans stored⟩
  · simp [controlTop, unstopped, opened, timed, expired, handled]
  · have taken := controlFailed_takenUp failed token delay
    rw [TakenUp, cfg, now] at taken
    exact taken

/-- The control loop can be resumed when a request is overdue: it runs, its timer has expired, or it is woken. -/
theorem controlRun_overdue (delay : Nat) {pipeline : Pipeline} {sinks : Sinks (Sink ρ) Message ErrorInfo}
    (awake : s.Awake) (opened : s.state = .opened) (unstopped : s.stopRequested token = false)
    (timed : s.cfg.requestTimeout.isSome = true) (idle : s.control.idle = true)
    (expired : s.pipeline.hasExpired s.now = true)
    (clears : s.pipeline.clearAll fuel (.client .requestTimeout) s.sinks = some (pipeline, sinks)) :
    ∃ cause next, s.controlRun fuel token cause delay = some next ∧ s.TakenUp delay next ∧ next.pipeline = pipeline ∧
      next.sinks = sinks := by
  have due : s.pipeline.nextDeadline ≤ (s.now : TimePoint) := by
    simp only [Pipeline.hasExpired, Bool.and_eq_true, decide_eq_true_eq] at expired
    exact expired.2
  -- a wake-up is banked where the wait would not end by itself
  have woken (expiry : TimePoint) (waits : s.control.expiry = some expiry) (late : (s.now : TimePoint) < expiry)
      (until_ : Option TimePoint) : ∃ next, (s.controlWoken token until_ .wakeup).bind
        (fun s => s.controlTop fuel token delay) = some next ∧ s.TakenUp delay next ∧ next.pipeline = pipeline ∧
        next.sinks = sinks := by
    have banked := awake.expires opened timed expiry waits (due.trans_lt late)
    obtain ⟨next, went, result⟩ := controlTop_overdue delay (s := { s with controlWakeup := s.controlWakeup - 1 })
      opened unstopped timed expired clears
    exact ⟨next, by simpa [controlWoken, banked] using went, result⟩
  cases place : s.control with
  | running =>
    refine ⟨.wakeup, ?_⟩
    simp only [controlRun, place]
    exact controlTop_overdue delay opened unstopped timed expired clears
  | waiting =>
    refine ⟨.wakeup, ?_⟩
    simp only [controlRun, place]
    exact woken ⊤ (by simp [place, Control.expiry]) (WithTop.coe_lt_top _) none
  | timer deadline =>
    by_cases passed : deadline ≤ (s.now : TimePoint)
    · refine ⟨.timer, ?_⟩
      simp only [controlRun, place, controlWoken, if_pos passed]
      exact controlTop_overdue delay opened unstopped timed expired clears
    · refine ⟨.wakeup, ?_⟩
      simp only [controlRun, place]
      exact woken deadline (by simp [place, Control.expiry]) (not_le.mp passed) (some deadline)
  | backoff deadline => simp [place, Control.idle] at idle
  | connecting => simp [place, Control.idle] at idle
  | exited => simp [place, Control.idle] at idle

/-- In OPEN the control loop is outside of `do_reconnect`. -/
theorem idle_of_opened (sound : s.life.Sound) (exclusive : s.life.Exclusive) (opened : s.state = .opened)
    (stays : s.control ≠ .exited) : s.control.idle = true := by
  cases place : s.control with
  | running => rfl
  | waiting => rfl
  | timer deadline => rfl
  | backoff deadline =>
    have later := exclusive.backoff (show s.life.duty = .backoff by simp [life, Control.duty, place])
    rcases later with failed | closing
    · cases opened.symm.trans failed
    · cases opened.symm.trans closing
  | connecting =>
    obtain ⟨i, m, busy, -⟩ := sound.connecting (show s.life.duty = .connecting by simp [life, Control.duty, place])
    exact absurd busy (exclusive.free (.inl opened) i m)
  | exited => exact absurd place stays

variable [FloatChars] [Inhabited ρ]

/-- No request timeout is missed: while a request is overdue the control loop can be resumed, and once it
is, every pending request ends with the replies it has got and the timeout in its other slots. -/
theorem overdue_fails (reached : Reached fuel cfg s) (solo : ∀ entry ∈ s.log, entry.solo = true)
    (runs : s.actor = .running token) (unstopped : s.stopRequested token = false) (stays : s.control ≠ .exited)
    (opened : s.state = .opened) (timed : s.cfg.requestTimeout.isSome = true)
    (overdue : ∃ time ∈ s.pipeline.deadlines, time ≤ (s.now : TimePoint))
    (nonempty : ∀ ref ∈ s.pipeline.refs, ∀ sink, s.sinks.cells[ref]? = some sink →
      0 < sink.response.expected ∧ sink.response.expected < fuel) (delay : Nat) :
    ∃ cause next, s.step fuel (.controlRun cause delay) = some next ∧ s.TakenUp delay next ∧
      next.pipeline.pendingCount = 0 ∧
      ∀ ref ∈ s.pipeline.refs, ∀ sink, s.sinks.cells[ref]? = some sink →
        ∃ last, next.sinks.cells[ref]? = some last ∧
          last.response.result = some (sink.failedWith (.client .requestTimeout)) := by
  have awake := reached.awake solo
  have stocked := (reached.tenancy solo).kept.stocked
  have idle := idle_of_opened reached.sound (reached.exclusive solo).1 opened stays
  have expired := (hasExpired_iff (awake.sorted opened) s.now).mpr overdue
  obtain ⟨pipeline, sinks, clears, none, filled⟩ := clearAll_fills (.client .requestTimeout) stocked.distinct (by
    intro ref member
    obtain ⟨sink, found, incomplete⟩ := stocked.held ref member
    obtain ⟨positive, enough⟩ := nonempty ref member sink found
    have unset : sink.response.result = none := by simpa [ResponseSink.isComplete] using incomplete
    refine ⟨sink, found, unset, ?_, Nat.lt_of_le_of_lt (Nat.sub_le _ _) enough⟩
    exact ((reached.sane ref sink found).missing unset).resolve_right (Nat.ne_of_gt positive))
  obtain ⟨cause, next, ran, taken, rfl, rfl⟩ := controlRun_overdue delay awake opened unstopped timed idle
    expired clears
  refine ⟨cause, next, ?_, taken, none, filled⟩
  simp only [step, inActor, runs]
  exact ran

omit [FloatChars] [Inhabited ρ] in
/-- A request of two commands has got one reply when its time is up. -/
theorem overdue_fails_half : letI := FloatChars.none
    ∃ s : System Unit, (Reached 8 {} s ∧ s.actor = .running 0 ∧ s.stopRequested 0 = false ∧ s.state = .opened ∧
      s.cfg.requestTimeout.isSome = true ∧ s.pipeline.refs = [1] ∧ ∀ entry ∈ s.log, entry.solo = true) ∧
      ∃ cause next, s.step 8 (.controlRun cause 0) = some next ∧ next.pipeline.pendingCount = 0 ∧
        ∃ last, next.sinks.cells[1]? = some last ∧
          last.response.result = some [.ok (), .error (.client .requestTimeout)] := by
  let := FloatChars.none
  let due (s : System Unit) : Prop :=
    s.actor = .running 0 ∧ s.stopRequested 0 = false ∧ s.control.idle = true ∧ s.state = .opened ∧
      s.cfg.requestTimeout.isSome = true ∧ s.pipeline.deadlines = [((5000 : Nat) : TimePoint)] ∧ s.now = 5000 ∧
      s.pipeline.refs = [1] ∧ (s.sinks.cells[1]?).map (fun sink => (sink.response.expected, sink.response.slots)) =
        some (2, [.ok ()]) ∧ ∀ entry ∈ s.log, entry.solo = true
  have run : ∃ s : System Unit, Reached 8 {} s ∧ due s :=
    Reached.of_run 8 {}
      (opening ++ [.controlRun .wakeup 0, .writerRun .wakeup, .readerRun .wakeup,
        .enqueue (Request.ofCommands [.variadic (text "PING") [], .variadic (text "PING") []]) fun _ _ => .ok (),
        .controlRun .wakeup 0, .writerRun .wakeup, .writerComplete (.ok 28), .writerResume,
        .readerComplete (.ok (text "+PONG\r\n")), .readerResume, .tick 5000])
      (by decide +kernel)
  obtain ⟨s, reached, runs, unstopped, idle, opened, timed, deadlines, now, refs, held, solo⟩ := run
  obtain ⟨sink, found, same⟩ := Option.map_eq_some_iff.mp held
  obtain ⟨expected, slots⟩ := Prod.mk.inj same
  obtain ⟨cause, next, ran, -, none, ends⟩ := overdue_fails reached solo runs unstopped
    (fun exited => by simp [exited, Control.idle] at idle) opened timed
    ⟨((5000 : Nat) : TimePoint), by simp [deadlines], by rw [now]⟩
    (fun ref member other there => by
      rw [refs, List.mem_singleton] at member
      subst member
      cases found.symm.trans there
      simp [expected]) 0
  refine ⟨s, ⟨reached, runs, unstopped, opened, timed, refs, solo⟩, cause, next, ran, none, ?_⟩
  obtain ⟨last, there, result⟩ := ends 1 (by simp [refs]) sink found
  refine ⟨last, there, ?_⟩
  rw [result, Sink.failedWith, Sink.missing, expected, slots]
  rfl

end System

end Rediscoro.Connection

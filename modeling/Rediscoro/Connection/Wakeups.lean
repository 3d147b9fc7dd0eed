import Rediscoro.Connection.Tenancy
import Rediscoro.Pipeline.Accounts

/-! No wake-up is lost.

A loop of the actor that has nothing to do waits for an event, and whoever makes work
for it banks a wake-up. The loops run one at a time, so between the look at the
connection and the wait nothing can slip in; but a loop must not wait in a state in
which nobody will wake it. While the connection is open a waiting writer has a wake-up
banked for the octets that are queued, a waiting reader has one or will be woken by the
`connect()` that is about to return, and the timer of the control loop is never set
behind the earliest deadline. A failed connection always has its control loop woken.
-/

set_option autoImplicit false

namespace Rediscoro.Connection

open Rediscoro.Semantics Rediscoro.Resp3 Rediscoro.Pipeline

/-- When the control loop wakes up on its own, if it waits outside of `do_reconnect`. -/
def Control.expiry : Control → Option TimePoint
  | .waiting => some ⊤
  | .timer deadline => some deadline
  | _ => none

theorem earliest_sublist {first second : List TimePoint} (sub : first.Sublist second) :
    earliest second ≤ earliest first := by
  apply le_earliest
  intro time member
  have inside := sub.subset member
  clear member sub
  induction second with
  | nil => cases inside
  | cons head rest ih =>
    rcases List.mem_cons.mp inside with rfl | later
    · exact min_le_left _ _
    · exact (min_le_right _ _).trans (ih later)

/-- A write leaves the deadlines as they are. -/
theorem deadlines_onWriteDone {p q : Pipeline} {n : Nat} (applied : p.onWriteDone n = some q) :
    q.deadlines = p.deadlines := by
  unfold Pipeline.onWriteDone at applied
  split at applied
  · cases applied
  · rename_i front rest queue
    split at applied
    · split at applied
      · cases applied
        simp [deadlines, queue]
      · cases applied
        simp [deadlines, queue]
    · cases applied

theorem Answered.deadlines_sublist {σ : Type} [ResponseSink σ Message ErrorInfo] {p q : Pipeline}
    {sinks after : Sinks σ Message ErrorInfo} (answered : p.Answered sinks q after) :
    q.deadlines.Sublist p.deadlines := by
  rw [deadlines, deadlines, answered.pendingWrite]
  exact (answered.awaitingRead.sublist.map _).append_right _

namespace System

variable {ρ : Type} {s next : System ρ}

/-- A `connect()` that has succeeded is about to be resumed; it wakes the loops. -/
def Returning (s : System ρ) : Prop := ∃ a ∈ s.attempts, a.stage = .finished (.ok ())

/-- Nobody who has something to do waits for a wake-up that will not come. -/
structure Awake (s : System ρ) : Prop where
  sorted : s.state = .opened → s.pipeline.deadlines.Pairwise (· ≤ ·)
  timely : s.state = .opened → ∀ time ∈ s.pipeline.deadlines, time ≤ s.deadline
  writes : s.state = .opened → s.writer = .waiting → s.pipeline.pendingWrite ≠ [] → 0 < s.writeWakeup
  reads : s.state = .opened → s.reader = .waiting → 0 < s.readWakeup ∨ s.Returning
  expires : s.state = .opened → s.cfg.requestTimeout.isSome → ∀ expiry, s.control.expiry = some expiry →
    s.pipeline.nextDeadline < expiry → 0 < s.controlWakeup
  fails : s.state = .failed → s.control.expiry ≠ none → 0 < s.controlWakeup

/-- The later state offers nothing more to do, and as many wake-ups. -/
structure Lull (s next : System ρ) : Prop where
  state : next.state = s.state
  cfg : next.cfg = s.cfg
  now : s.now ≤ next.now
  deadlines : next.pipeline.deadlines.Sublist s.pipeline.deadlines
  pendingWrite : s.pipeline.pendingWrite = [] → next.pipeline.pendingWrite = []
  writer : next.writer = .waiting → s.writer = .waiting
  reader : next.reader = .waiting → s.reader = .waiting
  control : ∀ expiry, next.control.expiry = some expiry → s.control.expiry = some expiry
  writeWakeup : s.writeWakeup ≤ next.writeWakeup
  readWakeup : s.readWakeup ≤ next.readWakeup
  controlWakeup : s.controlWakeup ≤ next.controlWakeup
  returning : s.Returning → next.Returning

theorem deadline_mono (cfg : next.cfg = s.cfg) (now : s.now ≤ next.now) : s.deadline ≤ next.deadline := by
  unfold deadline
  rw [cfg]
  split
  · exact le_rfl
  · rename_i timeout _
    exact WithTop.coe_le_coe.mpr (Nat.add_le_add_right now timeout)

namespace Awake

theorem lull (awake : s.Awake) (lull : Lull s next) : next.Awake := by
  obtain ⟨state, cfg, now, sub, pendingWrite, writer, reader, control, write, read, wakes, returning⟩ := lull
  refine ⟨fun opened => ?_, fun opened time member => ?_, fun opened waits queued => ?_, fun opened waits => ?_,
    fun opened timed expiry waits early => ?_, fun failed waits => ?_⟩
  · exact (awake.sorted (state ▸ opened)).sublist sub
  · exact (awake.timely (state ▸ opened) time (sub.subset member)).trans (deadline_mono cfg now)
  · exact (awake.writes (state ▸ opened) (writer waits) (mt pendingWrite queued)).trans_le write
  · exact (awake.reads (state ▸ opened) (reader waits)).imp (fun banked => banked.trans_le read) returning
  · -- the earliest deadline of fewer requests is no earlier
    have sorted := awake.sorted (state ▸ opened)
    have later : s.pipeline.nextDeadline ≤ next.pipeline.nextDeadline := by
      rw [nextDeadline_eq sorted, nextDeadline_eq (sorted.sublist sub)]
      exact earliest_sublist sub
    have noticed := awake.expires (state ▸ opened) (cfg ▸ timed) expiry (control expiry waits) (later.trans_lt early)
    exact noticed.trans_le wakes
  · cases waiting : next.control.expiry with
    | none => exact absurd waiting waits
    | some expiry => exact (awake.fails (state ▸ failed) (by simp [control expiry waiting])).trans_le wakes

/-- Outside of OPEN only a failure has to be noticed. -/
theorem away (unopened : s.state ≠ .opened)
    (noticed : s.state = .failed → s.control.expiry = none ∨ 0 < s.controlWakeup) :
    s.Awake where
  sorted := fun opened => absurd opened unopened
  timely := fun opened => absurd opened unopened
  writes := fun opened => absurd opened unopened
  reads := fun opened => absurd opened unopened
  expires := fun opened => absurd opened unopened
  fails := fun failed waits => (noticed failed).resolve_left waits

end Awake

/-! What the coroutines leave behind. -/

namespace Awake

/-- A writer that runs is owed no wake-up. -/
theorem writing (awake : s.Awake) (wakeups : Nat) :
    ({ s with writer := .running, writeWakeup := wakeups } : System ρ).Awake :=
  ⟨awake.sorted, awake.timely, by simp, awake.reads, awake.expires, awake.fails⟩

theorem reading (awake : s.Awake) (wakeups : Nat) :
    ({ s with reader := .running, readWakeup := wakeups } : System ρ).Awake :=
  ⟨awake.sorted, awake.timely, awake.writes, by simp, awake.expires, awake.fails⟩

theorem controlling (awake : s.Awake) (wakeups : Nat) :
    ({ s with control := .running, controlWakeup := wakeups } : System ρ).Awake :=
  ⟨awake.sorted, awake.timely, awake.writes, awake.reads, by simp [Control.expiry], by simp [Control.expiry]⟩

end Awake

section Steps

variable {fuel i delay : Nat} {token : Token} {err : ErrorInfo} {a : Attempt} {slot : SinkRef}

theorem clearAll_state (cleared : s.clearAll fuel err = some next) : next.state = s.state := by
  obtain ⟨pipeline, sinks, -, rfl⟩ := clearAll_eq cleared
  rfl

theorem handleError_failed (opened : s.state = .opened) (handled : s.handleError fuel err = some next) :
    next.state = .failed ∧ 0 < next.controlWakeup := by
  simp only [handleError, opened] at handled
  obtain ⟨cleared, clears, rfl⟩ := Option.map_eq_some_iff.mp handled
  exact ⟨(state_closeSocket cleared).trans (clearAll_state clears), Nat.succ_pos _⟩

theorem handleError_awake (awake : s.Awake) (handled : s.handleError fuel err = some next) : next.Awake := by
  by_cases opened : s.state = .opened
  · obtain ⟨failed, woken⟩ := handleError_failed opened handled
    exact .away (by simp [failed]) fun _ => .inr woken
  · unfold handleError at handled
    split at handled
    case h_7 => exact absurd ‹_› opened
    case h_5 state | h_6 state =>
      cases handled
      exact .away (by simp [state]) (by simp [state])
    all_goals
      cases handled
      exact awake

theorem writeTop_awake (awake : ({ s with writer := .running } : System ρ).Awake) : (s.writeTop token).Awake := by
  unfold writeTop
  split
  · exact ⟨awake.sorted, awake.timely, by simp, awake.reads, awake.expires, awake.fails⟩
  · split
    · split
      · rename_i idle
        have none : s.pipeline.pendingWrite = [] := by simpa [nextWrite] using idle
        exact ⟨awake.sorted, awake.timely, fun _ _ queued => absurd none queued, awake.reads, awake.expires,
          awake.fails⟩
      · exact ⟨awake.sorted, awake.timely, by simp, awake.reads, awake.expires, awake.fails⟩
    · rename_i unopened
      exact ⟨awake.sorted, awake.timely, fun opened => absurd opened unopened, awake.reads, awake.expires, awake.fails⟩

theorem writerRun_awake {cause : Cause} (awake : s.Awake) (woken : s.writerRun token cause = some next) :
    next.Awake := by
  unfold writerRun at woken
  split at woken
  · cases woken
    exact writeTop_awake (awake.writing _)
  · split at woken
    · cases woken
      exact writeTop_awake (awake.writing _)
    · cases woken
  · split at woken
    · cases woken
      exact writeTop_awake (awake.writing _)
    · cases woken
  · cases woken

theorem writerResume_awake (awake : s.Awake) (resumed : s.writerResume fuel token = some next) : next.Awake := by
  unfold writerResume at resumed
  split at resumed
  · rename_i n busy
    split at resumed
    · cases resumed
    · rename_i pipeline applied
      cases resumed
      apply writeTop_awake
      apply (awake.writing s.writeWakeup).lull
      refine ⟨rfl, rfl, le_rfl, ?_, ?_, id, id, fun _ => id, le_rfl, ?_, le_rfl, id⟩
      · rw [deadlines_onWriteDone applied]
      · intro none
        simp [onWriteDone, show s.pipeline.pendingWrite = [] from none] at applied
      · dsimp only
        split
        · exact Nat.le_succ _
        · exact le_rfl
  · dsimp only at resumed
    split at resumed
    · cases resumed
      exact writeTop_awake (awake.writing _)
    · obtain ⟨middle, handled, rfl⟩ := Option.map_eq_some_iff.mp resumed
      exact writeTop_awake ((handleError_awake (awake.writing _) handled).writing _)
  · cases resumed

theorem readTop_awake (awake : ({ s with reader := .running } : System ρ).Awake) : (s.readTop token).Awake := by
  unfold readTop
  split
  · exact ⟨awake.sorted, awake.timely, awake.writes, by simp, awake.expires, awake.fails⟩
  · split
    · exact ⟨awake.sorted, awake.timely, awake.writes, by simp, awake.expires, awake.fails⟩
    · rename_i unopened
      exact ⟨awake.sorted, awake.timely, awake.writes, fun opened => absurd opened unopened, awake.expires, awake.fails⟩

theorem readerRun_awake {cause : Cause} (awake : s.Awake) (woken : s.readerRun token cause = some next) :
    next.Awake := by
  unfold readerRun at woken
  split at woken
  · cases woken
    exact readTop_awake (awake.reading _)
  · split at woken
    · cases woken
      exact readTop_awake (awake.reading _)
    · cases woken
  · split at woken
    · cases woken
      exact readTop_awake (awake.reading _)
    · cases woken
  · cases woken

/-! The control loop. -/

theorem beginReconnect_awake (s : System ρ) (token : Token) : (s.beginReconnect token).Awake := by
  apply Awake.away
  · simp [beginReconnect, beginResolve, resetParser, setAttempt, setState, note, record]
  · simp [beginReconnect, beginResolve, resetParser, setAttempt, setState, note, record]

theorem reconnectTop_awake (failed : s.state = .failed) : (s.reconnectTop token delay).Awake := by
  unfold reconnectTop
  split
  · exact beginReconnect_awake s token
  · exact .away (by simp [failed]) fun _ => .inl rfl

theorem controlFailed_awake (failed : s.state = .failed) : (s.controlFailed token delay).Awake := by
  unfold controlFailed
  split
  · exact reconnectTop_awake failed
  · apply Awake.away
    · simp [setClosing, requestStop, setState]
    · simp [setClosing, requestStop, setState]

theorem controlTop_awake (awake : ({ s with control := .running } : System ρ).Awake)
    (went : s.controlTop fuel token delay = some next) : next.Awake := by
  unfold controlTop at went
  split at went
  · cases went
    exact ⟨awake.sorted, awake.timely, awake.writes, awake.reads, by simp [Control.expiry], by simp [Control.expiry]⟩
  · split at went
    · rename_i failed
      cases went
      exact controlFailed_awake failed
    · rename_i unfailed
      split at went
      · rename_i overdue
        obtain ⟨middle, handled, rfl⟩ := Option.map_eq_some_iff.mp went
        exact controlFailed_awake (handleError_failed overdue.1 handled).1
      · cases went
        unfold controlIdle
        split
        · rename_i timed
          refine ⟨awake.sorted, awake.timely, awake.writes, awake.reads, ?_, fun failed => absurd failed unfailed⟩
          intro _ _ expiry waits early
          cases waits
          exact absurd early (lt_irrefl _)
        · rename_i untimed
          split
          · exact ⟨awake.sorted, awake.timely, awake.writes, awake.reads, by simp [Control.expiry],
              by simp [Control.expiry]⟩
          · -- without a deadline there is nothing to wait for but a wake-up
            refine ⟨awake.sorted, awake.timely, awake.writes, awake.reads, ?_, fun failed => absurd failed unfailed⟩
            intro opened timed expiry waits early
            exact absurd ⟨opened, timed, early.ne_top⟩ untimed

theorem controlWoken_awake {expiry : Option TimePoint} {cause : Cause} (awake : s.Awake)
    (woken : s.controlWoken token expiry cause = some next) :
    ({ next with control := .running } : System ρ).Awake := by
  cases cause with
  | wakeup =>
    simp only [controlWoken] at woken
    split at woken
    · cases woken
      exact awake.controlling _
    · cases woken
  | cancelled =>
    simp only [controlWoken] at woken
    split at woken
    · cases woken
      exact awake.controlling _
    · cases woken
  | timer =>
    simp only [controlWoken] at woken
    split at woken
    · cases woken
    · split at woken
      · cases woken
        exact awake.controlling _
      · cases woken

theorem backoffTop_awake {deadline : Nat} (awake : ({ s with control := .running } : System ρ).Awake) :
    (s.backoffTop token deadline).Awake := by
  unfold backoffTop
  split
  · exact ⟨awake.sorted, awake.timely, awake.writes, awake.reads, by simp [Control.expiry], by simp [Control.expiry]⟩
  · split
    · exact beginReconnect_awake s token
    · exact ⟨awake.sorted, awake.timely, awake.writes, awake.reads, by simp [Control.expiry], by simp [Control.expiry]⟩

theorem controlRun_awake {cause : Cause} (awake : s.Awake) (ran : s.controlRun fuel token cause delay = some next) :
    next.Awake := by
  unfold controlRun at ran
  split at ran
  · exact controlTop_awake (awake.controlling _) ran
  · obtain ⟨middle, woken, went⟩ := Option.bind_eq_some_iff.mp ran
    exact controlTop_awake (controlWoken_awake awake woken) went
  · obtain ⟨middle, woken, went⟩ := Option.bind_eq_some_iff.mp ran
    exact controlTop_awake (controlWoken_awake awake woken) went
  · obtain ⟨middle, woken, rfl⟩ := Option.map_eq_some_iff.mp ran
    exact backoffTop_awake (controlWoken_awake awake woken)
  · cases ran
  · cases ran

/-! The attempts: a `do_connect` leaves the state as it is until it succeeds or the control loop
takes its failure. -/

/-- Where a `do_connect` may be at work. -/
def Away (s : System ρ) : Prop := s.state ≠ .opened ∧ s.state ≠ .failed

theorem Away.awake (away : s.Away) : s.Awake := .away away.1 fun failed => absurd failed away.2

theorem fail_awake (away : s.Away) (failed : s.fail i a delay err = some next) : next.Awake := by
  unfold fail at failed
  split at failed
  · cases failed
    exact Away.awake away
  · obtain ⟨token, runs, failed⟩ := inActor_runs failed
    cases failed
    unfold reconnectFailed
    split
    · exact .away (by simp [failReconnect, setState]) fun _ => .inl rfl
    · exact reconnectTop_awake rfl

theorem failHandshake_awake (away : s.Away) (failed : s.failHandshake fuel i a delay err = some next) : next.Awake := by
  obtain ⟨cleared, clears, failed⟩ := Option.bind_eq_some_iff.mp failed
  apply fail_awake _ failed
  rw [Away, clearAll_state clears]
  exact away

theorem afterHandshake_awake {result : Except HandshakeError Unit} (away : s.Away)
    (went : s.afterHandshake fuel i a delay slot result = some next) : next.Awake := by
  cases result with
  | error err => exact failHandshake_awake away went
  | ok _ =>
    simp only [afterHandshake] at went
    split at went
    · cases went
      exact Away.awake away
    · exact failHandshake_awake away went

theorem endHandshake_awake {result : Except HandshakeError Unit} (away : s.Away)
    (went : s.endHandshake fuel i a delay slot result = some next) : next.Awake := by
  unfold endHandshake at went
  split at went
  · cases went
    exact Away.awake away
  · exact afterHandshake_awake away went

theorem handshakeRead_awake (away : s.Away) (went : s.handshakeRead fuel i a delay slot = some next) : next.Awake := by
  unfold handshakeRead at went
  split at went
  · exact endHandshake_awake away went
  · split at went
    · exact endHandshake_awake away went
    · cases went
      exact Away.awake away

theorem handshakeWrite_awake (away : s.Away) (went : s.handshakeWrite fuel i a delay slot = some next) :
    next.Awake := by
  unfold handshakeWrite at went
  split at went
  · exact handshakeRead_awake away went
  · split at went
    · cases went
      exact Away.awake away
    · exact handshakeRead_awake away went

theorem Away.closeSocket (away : s.Away) : s.closeSocket.Away := by
  rw [Away, state_closeSocket]
  exact away

theorem connectFailed_awake {left : Nat} {io : IoError} (away : s.Away)
    (went : s.connectFailed i a delay left io = some next) : next.Awake := by
  unfold connectFailed at went
  split at went
  · exact fail_awake away went
  · cases went
    exact Away.awake away.closeSocket

theorem Returning.setStage (found : s.attempts[i]? = some a) : (s.setStage i (.finished (.ok ()))).Returning := by
  refine ⟨{ a with stage := .finished (.ok ()) }, ?_, rfl⟩
  apply List.mem_of_getElem? (i := i)
  simp [System.setStage, setAttempt, found]

/-- OPEN is set with an empty pipeline: no deadline runs and no octets wait. -/
theorem succeed_awake (empty : s.pipeline.pendingCount = 0) (found : s.attempts[i]? = some a)
    (went : s.setOpen.succeed fuel i a delay = some next) : next.Awake := by
  have quiet : s.pipeline.pendingWrite = [] ∧ s.pipeline.awaitingRead = [] := by
    simpa [pendingCount] using empty
  have none : s.pipeline.deadlines = [] := by simp [deadlines, quiet]
  have never (expiry : TimePoint) : ¬s.pipeline.nextDeadline < expiry := by simp [nextDeadline, quiet]
  have opens {last : System ρ} (same : last.pipeline = s.pipeline) (opened : last.state = .opened)
      (reads : 0 < last.readWakeup ∨ last.Returning) : last.Awake := by
    refine ⟨fun _ => ?_, fun _ => ?_, fun _ _ queued => ?_, fun _ _ => reads, fun _ _ expiry _ early => ?_, ?_⟩
    · simp [same, none]
    · simp [same, none]
    · exact absurd (same ▸ quiet.1) queued
    · exact absurd (same ▸ early) (never expiry)
    · simp [opened]
  unfold succeed at went
  split at went
  · cases went
    exact opens rfl rfl (.inr (.setStage found))
  · obtain ⟨token, runs, went⟩ := inActor_runs went
    apply controlTop_awake _ went
    exact opens rfl rfl (.inl (Nat.succ_pos _))

theorem concludeHandshake_awake (away : s.Away) (empty : s.sinks.isComplete slot = true → s.pipeline.pendingCount = 0)
    (found : s.attempts[i]? = some a) (went : s.concludeHandshake fuel i a delay slot = some next) : next.Awake := by
  cases taken : (s.sinks.cells[slot]?).bind fun sink => sink.response.result with
  | none =>
    simp only [concludeHandshake, taken] at went
    cases went
  | some results =>
    simp only [concludeHandshake, taken, Option.map_some] at went
    split at went
    · cases ‹_ = none›
    · exact succeed_awake (empty (complete_of_result taken)) found went
    · split at went
      · exact fail_awake away went
      · exact failHandshake_awake away went

theorem attemptStart_keeps (started : s.attemptStart i = some next) :
    next.state = s.state ∧ ∃ a, s.attempts[i]? = some a ∧ a.unfinished = true := by
  unfold attemptStart at started
  split at started
  · rename_i found
    split at started
    · cases started
      exact ⟨rfl, _, found, rfl⟩
    · cases started
      exact ⟨rfl, _, found, rfl⟩
  · cases started

theorem attemptComplete_keeps {completion : Completion} (completed : s.attemptComplete i completion = some next) :
    next.state = s.state ∧ ∃ a, s.attempts[i]? = some a ∧ a.unfinished = true := by
  unfold attemptComplete at completed
  split at completed
  · cases completed
  · rename_i a found
    split at completed
    · split at completed
      · cases completed
        exact ⟨rfl, a, found, by simp [Attempt.unfinished, *]⟩
      · cases completed
    · split at completed
      · cases completed
        exact ⟨rfl, a, found, by simp [Attempt.unfinished, *]⟩
      · cases completed
    · obtain ⟨call, -, rfl⟩ := Option.map_eq_some_iff.mp completed
      exact ⟨rfl, a, found, by simp [Attempt.unfinished, *]⟩
    · obtain ⟨call, -, rfl⟩ := Option.map_eq_some_iff.mp completed
      exact ⟨rfl, a, found, by simp [Attempt.unfinished, *]⟩
    · cases completed

theorem attemptTimeout_keeps (fired : s.attemptTimeout i = some next) :
    next.state = s.state ∧ ∃ a, s.attempts[i]? = some a ∧ a.unfinished = true := by
  unfold attemptTimeout at fired
  split at fired
  · rename_i found
    split at fired
    · cases fired
      exact ⟨rfl, _, found, rfl⟩
    · cases fired
  · rename_i found
    split at fired
    · cases fired
      exact ⟨rfl, _, found, rfl⟩
    · cases fired
  · cases fired

/-! The callers. -/

theorem enqueue_awake {req : Request} {slotFromMessage : Nat → Message → Except ErrorInfo ρ} (awake : s.Awake)
    (enqueued : s.enqueue fuel req slotFromMessage = some next) : next.Awake := by
  cases enqueue_cases enqueued with
  | rejected refused same failed =>
    exact awake.lull ⟨rfl, rfl, le_rfl, .refl _, id, id, id, fun _ => id, le_rfl, le_rfl, le_rfl, id⟩
  | @queued pipeline opened pushed =>
    have grown : pipeline.deadlines = s.pipeline.deadlines ++ [s.deadline] := by
      rw [push_eq_some pushed]
      simp [deadlines, PendingItem.unsent]
    refine ⟨fun _ => ?_, fun _ time member => ?_, fun _ _ _ => Nat.succ_pos _, awake.reads,
      fun _ _ _ _ _ => Nat.succ_pos _,
      fun _ _ => Nat.succ_pos _⟩
    · -- the new request has the latest deadline of all
      change pipeline.deadlines.Pairwise (· ≤ ·)
      rw [grown, List.pairwise_append]
      exact ⟨awake.sorted opened, by simp, fun time member last only => by
        rw [List.mem_singleton.mp only]
        exact awake.timely opened time member⟩
    · have member : time ∈ pipeline.deadlines := member
      rw [grown, List.mem_append] at member
      rcases member with earlier | last
      · exact awake.timely opened time earlier
      · exact (List.mem_singleton.mp last).le

theorem close_away (closed : s.close fuel = some next) : next.Away := by
  unfold close at closed
  split at closed
  · rename_i state
    cases closed
    simp [Away, record, state]
  · obtain ⟨cleared, clears, rfl⟩ := Option.map_eq_some_iff.mp closed
    have closing : cleared.closeSocket.wakeLoops.state = .closing :=
      (state_closeSocket cleared).trans (clearAll_state clears)
    unfold awaitActor
    split
    · simp [Away, closing]
    · simp [Away, record, closing]

theorem transitionToClosed_away (closes : s.transitionToClosed fuel = some next) : next.Away := by
  obtain ⟨cleared, clears, rfl⟩ := Option.map_eq_some_iff.mp closes
  have closed : cleared.closeSocket.state = .closed := (state_closeSocket cleared).trans (clearAll_state clears)
  simp [Away, emit, record, closed]

theorem connect_awake (awake : s.Awake) (connected : s.connect = some next) : next.Awake := by
  unfold connect at connected
  split at connected
  · cases connected
    exact awake
  · cases connected
    exact awake
  · cases connected
    exact Away.awake ⟨by simp [beginConnect, setState], by simp [beginConnect, setState]⟩
  · split at connected
    · cases connected
      exact awake
    · cases connected
      exact Away.awake ⟨by simp [beginConnect, setState], by simp [beginConnect, setState]⟩

theorem connectResume_awake (awake : s.Awake) (resumed : s.connectResume i = some next) : next.Awake := by
  unfold connectResume at resumed
  split at resumed
  · -- whoever waits is woken
    cases resumed
    exact ⟨awake.sorted, awake.timely, fun _ _ _ => Nat.succ_pos _, fun _ _ => .inl (Nat.succ_pos _),
      fun _ _ _ _ _ => Nat.succ_pos _, fun _ _ => Nat.succ_pos _⟩
  · rename_i err found
    cases resumed
    apply awake.lull
    refine ⟨rfl, rfl, le_rfl, .refl _, id, id, id, fun _ => id, le_rfl, le_rfl, le_rfl, ?_⟩
    rintro ⟨a, member, ok⟩
    obtain ⟨j, there⟩ := List.mem_iff_getElem?.mp member
    have apart : i ≠ j := by
      rintro rfl
      rw [found] at there
      cases there
      cases ok
    refine ⟨a, List.mem_iff_getElem?.mpr ⟨j, ?_⟩, ok⟩
    simpa [emit, record, setStage, setAttempt, apart] using there
  · cases resumed

end Steps

/-! Replies. -/

section Replies

variable [FloatChars] {fuel i delay : Nat} {token : Token} {a : Attempt} {slot : SinkRef}

/-- Replies take requests out of the pipeline. -/
theorem consume_lull {memory : Memory} {octets : Bytes} {enough : Sinks (Sink ρ) Message ErrorInfo → Bool}
    {outcome : Outcome} {x : Exchange (Sink ρ)} (parsed : s.consume fuel memory octets enough = (outcome, x)) :
    x.pipeline.deadlines.Sublist s.pipeline.deadlines ∧ x.pipeline.pendingWrite = s.pipeline.pendingWrite := by
  have answered := Exchange.dispatch_answered fuel memory enough
    { parser := { s.parser with input := (s.parser.input.write octets).commit octets.length }
      pipeline := s.pipeline, sinks := s.sinks }
  rw [consume] at parsed
  rw [parsed] at answered
  exact ⟨Answered.deadlines_sublist answered, answered.pendingWrite⟩

theorem readChunk_awake {memory : Memory} {octets : Bytes} {issued : Nat} (awake : s.Awake)
    (read : s.readChunk fuel memory octets issued = some next) : next.Awake := by
  cases parsed : s.consume fuel memory octets (fun _ => false) with
  | mk outcome x =>
    obtain ⟨fewer, same⟩ := consume_lull parsed
    have after :
        ((({ s with reader := .running }.note (.committed issued s.resets)).consumed x).leave issued).Awake := by
      apply (awake.reading s.readWakeup).lull
      exact ⟨rfl, rfl, le_rfl, fewer, fun none => same.trans none, id, id, fun _ => id, le_rfl, le_rfl, le_rfl, id⟩
    simp only [readChunk, parsed] at read
    cases outcome with
    | faulty => cases read
    | invalid errc => exact handleError_awake after read
    | unsolicited => exact handleError_awake after read
    | starved | complete =>
      cases read
      exact after

theorem readerResume_awake {memory : Memory} (awake : s.Awake)
    (resumed : s.readerResume fuel token memory = some next) : next.Awake := by
  unfold readerResume at resumed
  split at resumed
  · obtain ⟨middle, read, rfl⟩ := Option.map_eq_some_iff.mp resumed
    split at read
    · exact readTop_awake ((handleError_awake (awake.reading _) read).reading _)
    · exact readTop_awake ((readChunk_awake awake read).reading _)
  · dsimp only at resumed
    split at resumed
    · cases resumed
      exact readTop_awake (awake.reading _)
    · obtain ⟨middle, handled, rfl⟩ := Option.map_eq_some_iff.mp resumed
      exact readTop_awake ((handleError_awake (awake.reading _) handled).reading _)
  · cases resumed

theorem handshakeChunk_awake {memory : Memory} {octets : Bytes} (away : s.Away)
    (went : s.handshakeChunk fuel i a delay memory slot octets = some next) : next.Awake := by
  cases parsed : s.consume fuel memory octets (fun sinks => sinks.isComplete slot) with
  | mk outcome x =>
    have still : (((s.note (.parsed (s.staleFor a))).consumed x).setStage i (.handshaking slot)).Away := away
    simp only [handshakeChunk, parsed] at went
    cases outcome with
    | faulty => cases went
    | starved | complete => exact handshakeRead_awake still went
    | invalid errc => exact endHandshake_awake still went
    | unsolicited => exact endHandshake_awake still went

end Replies

/-! Every step. -/

section Run

variable [FloatChars] [Inhabited ρ] {fuel i delay : Nat} {cfg : Config} {a : Attempt}

omit [FloatChars] in
theorem beginHandshake_awake (away : s.Away) (went : s.beginHandshake fuel i a delay = some next) : next.Awake := by
  unfold beginHandshake at went
  split at went
  · exact fail_awake away went
  · dsimp only at went
    split at went
    · apply fail_awake _ went
      exact away
    · apply handshakeWrite_awake _ went
      exact away

theorem attemptResume_awake {oracle : Oracle} (away : s.Away)
    (empty : ∀ a slot, s.attempts[i]? = some a → a.stage = .waitingSlot slot → s.sinks.isComplete slot = true →
      s.pipeline.pendingCount = 0)
    (resumed : s.attemptResume fuel i oracle = some next) : next.Awake := by
  unfold attemptResume at resumed
  split at resumed
  · cases resumed
  · rename_i a found
    split at resumed
    · exact fail_awake away resumed
    · exact fail_awake away resumed
    · split at resumed
      · exact fail_awake away resumed
      · cases resumed
        exact Away.awake away.closeSocket
    · exact connectFailed_awake away resumed
    · split at resumed
      · exact beginHandshake_awake away resumed
      · cases resumed
      · exact connectFailed_awake away.closeSocket resumed
    · split at resumed
      · cases resumed
      · apply handshakeWrite_awake _ resumed
        exact away
    · exact endHandshake_awake away resumed
    · exact endHandshake_awake away resumed
    · split at resumed
      · exact endHandshake_awake away resumed
      · exact handshakeChunk_awake away resumed
    · exact afterHandshake_awake away resumed
    · rename_i slot here
      exact concludeHandshake_awake away (empty a slot found here) found resumed
    · cases resumed

theorem attemptResume_unfinished {oracle : Oracle} (resumed : s.attemptResume fuel i oracle = some next) :
    ∃ a, s.attempts[i]? = some a ∧ a.unfinished = true := by
  cases found : s.attempts[i]? with
  | none => simp [attemptResume, found] at resumed
  | some a =>
    refine ⟨a, rfl, ?_⟩
    unfold Attempt.unfinished
    split
    all_goals first
      | rfl
      | simp [attemptResume, *] at resumed

/-- One step of the connection, where attempts are made one at a time. -/
theorem step_awake {act : Act ρ} (awake : s.Awake) (tenancy : s.Tenancy) (exclusive : s.life.Exclusive)
    (stepped : s.step fuel act = some next) : next.Awake := by
  -- While an attempt is unfinished the connection is neither open nor failed, and nothing has to be resumable.
  have away {j : Nat} (busy : ∃ a, s.attempts[j]? = some a ∧ a.unfinished = true) : s.Away := by
    obtain ⟨a, found, unfinished⟩ := busy
    have known (state : s.state = .opened ∨ s.state = .failed) : False :=
      exclusive.free state j a.member ⟨crew_found found, Attempt.busy_of_unfinished unfinished⟩
    exact ⟨fun opened => known (.inl opened), fun failed => known (.inr failed)⟩
  have stays {j : Nat} (kept : next.state = s.state ∧ ∃ a, s.attempts[j]? = some a ∧ a.unfinished = true) :
      next.Awake := by
    apply Away.awake
    rw [Away, kept.1]
    exact away kept.2
  cases act with
  | tick elapsed =>
    cases stepped
    exact awake.lull
      ⟨rfl, rfl, Nat.le_add_right _ _, .refl _, id, id, id, fun _ => id, le_rfl, le_rfl, le_rfl, id⟩
  | connect => exact connect_awake awake stepped
  | connectResume j => exact connectResume_awake awake stepped
  | connectClose j =>
    simp only [step, connectClose] at stepped
    split at stepped
    · exact (close_away stepped).awake
    · cases stepped
  | close => exact (close_away stepped).awake
  | closeResume =>
    simp only [step, closeResume] at stepped
    split at stepped
    · cases stepped
      exact awake.lull ⟨rfl, rfl, le_rfl, .refl _, id, id, id, fun _ => id, le_rfl, le_rfl, le_rfl, id⟩
    · cases stepped
  | enqueue req slotFromMessage => exact enqueue_awake awake stepped
  | actorStart =>
    simp only [step, actorStart] at stepped
    split at stepped
    · cases stepped
      exact ⟨awake.sorted, awake.timely, by simp, by simp, by simp [Control.expiry], by simp [Control.expiry]⟩
    · cases stepped
  | actorEnd =>
    simp only [step, actorEnd] at stepped
    split at stepped
    · exact (transitionToClosed_away stepped).awake
    · cases stepped
  | actorHandler =>
    simp only [step, actorHandler] at stepped
    split at stepped
    · obtain ⟨closed, closes, rfl⟩ := Option.map_eq_some_iff.mp stepped
      split at closes
      · rename_i state
        cases closes
        exact Away.awake ⟨by simp [actorNotify, state], by simp [actorNotify, state]⟩
      · have still : closed.Away := transitionToClosed_away closes
        exact Away.awake (s := closed.actorNotify) still
    · cases stepped
  | writerRun cause =>
    obtain ⟨token, -, woken⟩ := inActor_runs stepped
    exact writerRun_awake awake woken
  | writerComplete result =>
    simp only [step, writerComplete] at stepped
    split at stepped
    · obtain ⟨call, -, rfl⟩ := Option.map_eq_some_iff.mp stepped
      exact ⟨awake.sorted, awake.timely, by simp, awake.reads, awake.expires, awake.fails⟩
    · cases stepped
  | writerResume =>
    obtain ⟨token, -, resumed⟩ := inActor_runs stepped
    exact writerResume_awake awake resumed
  | readerRun cause =>
    obtain ⟨token, -, woken⟩ := inActor_runs stepped
    exact readerRun_awake awake woken
  | readerComplete result =>
    simp only [step, readerComplete] at stepped
    split at stepped
    · obtain ⟨call, -, rfl⟩ := Option.map_eq_some_iff.mp stepped
      exact ⟨awake.sorted, awake.timely, awake.writes, by simp, awake.expires, awake.fails⟩
    · cases stepped
  | readerResume memory =>
    obtain ⟨token, -, resumed⟩ := inActor_runs stepped
    exact readerResume_awake awake resumed
  | controlRun cause delay =>
    obtain ⟨token, -, ran⟩ := inActor_runs stepped
    exact controlRun_awake awake ran
  | attemptStart j => exact stays (attemptStart_keeps stepped)
  | attemptComplete j completion => exact stays (attemptComplete_keeps stepped)
  | attemptTimeout j => exact stays (attemptTimeout_keeps stepped)
  | attemptResume j oracle =>
    apply attemptResume_awake (away (attemptResume_unfinished stepped)) _ stepped
    intro a slot found here complete
    exact refs_eq_nil_iff.mp (tenancy.vacant exclusive found here complete)

theorem step_extends {act : Act ρ} (stepped : s.step fuel act = some next) :
    s.log <+: next.log ∧ s.notes <+: next.notes := by
  have extended {first last : System ρ} (moves : Moves fuel first last) :
      first.log <+: last.log ∧ first.notes <+: last.notes := by
    induction moves with
    | refl => exact ⟨List.prefix_refl _, List.prefix_refl _⟩
    | tail _ move ih => exact ⟨ih.1.trans move.extends.1, ih.2.trans move.extends.2⟩
  exact extended (step_moves fuel s act next stepped)

theorem Reached.step {act : Act ρ} (reached : Reached fuel cfg s) (stepped : s.step fuel act = some next) :
    Reached fuel cfg next := by
  obtain ⟨actions, run⟩ := reached
  have last : runFrom (System.step fuel) s [act] = some next := by simp only [runFrom, stepped]
  exact ⟨actions ++ [act], runFrom_append run last⟩

theorem Reached.awake (reached : Reached fuel cfg s) (solo : ∀ entry ∈ s.log, entry.solo = true) : s.Awake := by
  let invariant (s : System ρ) : Prop := Reached fuel cfg s ∧ ((∀ entry ∈ s.log, entry.solo = true) → s.Awake)
  have kept (s : System ρ) (act : Act ρ) (next : System ρ) (holds : invariant s) (_ : True)
      (stepped : s.step fuel act = some next) : invariant next := by
    refine ⟨holds.1.step stepped, fun solo => ?_⟩
    have before : ∀ entry ∈ s.log, entry.solo = true := fun entry member =>
      solo entry ((step_extends stepped).1.subset member)
    exact step_awake (holds.2 before) (holds.1.tenancy before) (holds.1.exclusive before).1 stepped
  have begins : invariant (start cfg) := ⟨⟨[], rfl⟩, fun _ => Away.awake (by simp [Away, start])⟩
  obtain ⟨actions, run⟩ := reached
  exact (runFrom_invariant invariant kept begins (guarded_true actions) run).2 solo

end Run

/-! Who is awake can run. -/

section Progress

variable {fuel delay : Nat} {token : Token}

/-- The write loop looks at the connection, or is woken to do so. -/
theorem writerRun_busy {front : PendingItem} {rest : List PendingItem} (awake : s.Awake) (opened : s.state = .opened)
    (unstopped : s.stopRequested token = false) (queued : s.pipeline.pendingWrite = front :: rest)
    (rests : s.writer.resting = true) :
    ∃ next call, s.writerRun token .wakeup = some next ∧ next.writer = .busy call ∧ call.sink = front.sink ∧
      call.size = front.unwritten.length := by
  have issued (s : System ρ) (opened : s.state = .opened) (unstopped : s.stopRequested token = false)
      (queued : s.pipeline.pendingWrite = front :: rest) :
      ∃ call, (s.writeTop token).writer = .busy call ∧ call.sink = front.sink ∧ call.size = front.unwritten.length := by
    refine ⟨_, by simp [writeTop, unstopped, opened, nextWrite, queued]; rfl, rfl, rfl⟩
  cases place : s.writer with
  | running =>
    obtain ⟨call, busy, same⟩ := issued s opened unstopped queued
    exact ⟨_, call, by simp [writerRun, place], busy, same⟩
  | waiting =>
    have banked := awake.writes opened place (by simp [queued])
    obtain ⟨call, busy, same⟩ := issued { s with writeWakeup := s.writeWakeup - 1 } opened unstopped queued
    exact ⟨_, call, by simp [writerRun, place, banked], busy, same⟩
  | busy call => simp [place] at rests
  | exited => simp [place] at rests

theorem readerRun_busy (opened : s.state = .opened) (unstopped : s.stopRequested token = false)
    (woken : s.reader = .running ∨ s.reader = .waiting ∧ 0 < s.readWakeup) :
    ∃ next call, s.readerRun token .wakeup = some next ∧ next.reader = .busy call := by
  have issued (s : System ρ) (opened : s.state = .opened) (unstopped : s.stopRequested token = false) :
      ∃ call, (s.readTop token).reader = .busy call :=
    ⟨_, by simp [readTop, unstopped, opened]; rfl⟩
  rcases woken with running | ⟨waiting, banked⟩
  · obtain ⟨call, busy⟩ := issued s opened unstopped
    exact ⟨_, call, by simp [readerRun, running], busy⟩
  · obtain ⟨call, busy⟩ := issued { s with readWakeup := s.readWakeup - 1 } opened unstopped
    exact ⟨_, call, by simp [readerRun, waiting, banked], busy⟩

/-- What the control loop does about a failure: it reconnects, waits for its backoff, or gives up. -/
def TakenUp (s : System ρ) (delay : Nat) (next : System ρ) : Prop :=
  next.state = .reconnecting ∨ next.state = .failed ∧ next.control = .backoff (s.now + delay) ∨
    next.state = .closing ∧ s.cfg.reconnectEnabled = false

theorem controlFailed_takenUp (failed : s.state = .failed) (token : Token) (delay : Nat) :
    s.TakenUp delay (s.controlFailed token delay) := by
  unfold controlFailed
  split
  · unfold reconnectTop
    split
    · exact .inl rfl
    · exact .inr (.inl ⟨failed, rfl⟩)
  · rename_i disabled
    exact .inr (.inr ⟨rfl, by simpa using disabled⟩)

variable (fuel delay) in
theorem controlTop_failed (failed : s.state = .failed) (unstopped : s.stopRequested token = false) :
    ∃ next, s.controlTop fuel token delay = some next ∧ s.TakenUp delay next :=
  ⟨s.controlFailed token delay, by simp [controlTop, failed, unstopped], controlFailed_takenUp failed token delay⟩

theorem controlRun_failed (awake : s.Awake) (failed : s.state = .failed)
    (unstopped : s.stopRequested token = false) (idle : s.control.idle = true) :
    ∃ next, s.controlRun fuel token .wakeup delay = some next ∧
      s.TakenUp delay next := by
  have woken (waits : s.control.expiry ≠ none) : ∃ next, (s.controlWoken token none .wakeup).bind
      (fun s => s.controlTop fuel token delay) = some next ∧ s.TakenUp delay next := by
    have banked := awake.fails failed waits
    obtain ⟨next, went, result⟩ :=
      controlTop_failed fuel delay (s := { s with controlWakeup := s.controlWakeup - 1 }) failed unstopped
    exact ⟨next, by simpa [controlWoken, banked] using went, result⟩
  cases place : s.control with
  | running =>
    simp only [controlRun, place]
    exact controlTop_failed fuel delay failed unstopped
  | waiting =>
    simp only [controlRun, place]
    exact woken (by simp [place, Control.expiry])
  | timer deadline =>
    simp only [controlRun, place]
    exact woken (by simp [place, Control.expiry])
  | backoff deadline => simp [place, Control.idle] at idle
  | connecting => simp [place, Control.idle] at idle
  | exited => simp [place, Control.idle] at idle

variable [FloatChars] [Inhabited ρ] {cfg : Config}

/-- A connection that has something to do does it: while it is open, octets that wait are handed to the
socket as soon as the write loop rests, and the read loop reads, once a `connect()` that is about to
return has woken it; when it has failed, the control loop takes the failure up. -/
theorem pending_work_runs (reached : Reached fuel cfg s) (solo : ∀ entry ∈ s.log, entry.solo = true)
    (runs : s.actor = .running token) (unstopped : s.stopRequested token = false) :
    (∀ front rest, s.state = .opened → s.pipeline.pendingWrite = front :: rest → s.writer.resting = true →
      ∃ next call, s.step fuel (.writerRun .wakeup) = some next ∧ next.writer = .busy call ∧ call.sink = front.sink ∧
        call.size = front.unwritten.length) ∧
    (s.state = .opened → s.reader.resting = true →
      (∃ next call, s.step fuel (.readerRun .wakeup) = some next ∧ next.reader = .busy call) ∨
      ∃ i middle next call, s.step fuel (.connectResume i) = some middle ∧
        middle.step fuel (.readerRun .wakeup) = some next ∧ next.reader = .busy call) ∧
    (∀ delay, s.state = .failed → s.control.idle = true →
      ∃ next, s.step fuel (.controlRun .wakeup delay) = some next ∧
        s.TakenUp delay next) := by
  have awake := reached.awake solo
  refine ⟨fun front rest opened queued rests => ?_, fun opened rests => ?_, fun delay failed idle => ?_⟩
  · simp only [step, inActor, runs]
    exact writerRun_busy awake opened unstopped queued rests
  · cases place : s.reader with
    | running =>
      simp only [step, inActor, runs]
      exact .inl (readerRun_busy opened unstopped (.inl place))
    | waiting =>
      rcases awake.reads opened place with banked | ⟨a, member, ok⟩
      · simp only [step, inActor, runs]
        exact .inl (readerRun_busy opened unstopped (.inr ⟨place, banked⟩))
      · right
        obtain ⟨i, found⟩ := List.mem_iff_getElem?.mp member
        have resumed : s.connectResume i = some (s.setStage i .gone).wakeLoops := by
          obtain ⟨owner, token, timedOut, reset, stage⟩ := a
          cases ok
          simp [connectResume, found]
        have woken : (s.setStage i .gone).wakeLoops.reader = .waiting ∧ 0 < (s.setStage i .gone).wakeLoops.readWakeup :=
          ⟨place, Nat.succ_pos _⟩
        obtain ⟨next, call, ran, busy⟩ :=
          readerRun_busy (s := (s.setStage i .gone).wakeLoops) opened unstopped (.inr woken)
        refine ⟨i, _, next, call, resumed, ?_, busy⟩
        have still : (s.setStage i .gone).wakeLoops.actor = .running token := runs
        simp only [step, inActor, still]
        exact ran
    | busy call => simp [place] at rests
    | exited => simp [place] at rests
  · simp only [step, inActor, runs]
    exact controlRun_failed awake failed unstopped idle

omit [FloatChars] [Inhabited ρ] in
/-- The loops wait when a request is queued. -/
theorem pending_work_runs_ping : letI := FloatChars.none
    ∃ s : System Unit, (Reached 8 {} s ∧ s.actor = .running 0 ∧ s.stopRequested 0 = false ∧ s.state = .opened ∧
      s.writer.resting = true ∧ s.pipeline.pendingWrite ≠ [] ∧ ∀ entry ∈ s.log, entry.solo = true) ∧
      ∃ next call, s.step 8 (.writerRun .wakeup) = some next ∧ next.writer = .busy call := by
  let := FloatChars.none
  have run : ∃ s : System Unit, Reached 8 {} s ∧ s.actor = .running 0 ∧ s.stopRequested 0 = false ∧ s.state = .opened ∧
      s.writer.resting = true ∧ s.pipeline.pendingWrite ≠ [] ∧ ∀ entry ∈ s.log, entry.solo = true :=
    Reached.of_run 8 {}
      (opening ++ [.controlRun .wakeup 0, .writerRun .wakeup, .readerRun .wakeup,
        .enqueue (Request.ofCommands [.variadic (text "PING") []]) fun _ _ => .ok ()])
      (by decide +kernel)
  obtain ⟨s, reached, runs, unstopped, opened, rests, queued, solo⟩ := run
  obtain ⟨front, rest, items⟩ := List.exists_cons_of_ne_nil queued
  obtain ⟨writes, -⟩ := pending_work_runs reached solo runs unstopped
  obtain ⟨next, call, ran, busy, -⟩ := writes front rest opened items rests
  exact ⟨s, ⟨reached, runs, unstopped, opened, rests, queued, solo⟩, next, call, ran, busy⟩

end Progress

end System

end Rediscoro.Connection

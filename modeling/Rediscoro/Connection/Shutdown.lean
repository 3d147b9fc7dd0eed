import Rediscoro.Connection.Sound

/-! From CLOSING there is only CLOSED.

A coroutine inside `do_connect` sets its state when it returns, long after it has
last looked at its stop token. So a shutdown goes on only where every such
coroutine still looks: it belongs to `connect()` and has a stop check before it
that sees the stop of the current source.
-/

set_option autoImplicit false

namespace Rediscoro.Connection

open Rediscoro.Semantics Rediscoro.Resp3 Rediscoro.Pipeline

/-- CLOSING is set only where every unfinished attempt hears of it. -/
def Entry.heard : Entry → Bool
  | .shutdown heard => heard
  | _ => true

/-- Whether a shutdown has begun that no `connect()` has ended yet. -/
def Entry.shuts (shut : Bool) : Entry → Bool
  | .state _ .closing => true
  | .began _ => false
  | _ => shut

theorem Entry.shuts_state {shut : Bool} {before state : State} (other : state ≠ .closing) :
    Entry.shuts shut (.state before state) = shut := by
  cases state <;> first | rfl | exact absurd rfl other

theorem Entry.shuts_event (shut : Bool) (event : ConnectionEvent) : Entry.shuts shut (.event event) = shut := rfl

namespace Life

def shut (l : Life) : Bool := l.log.foldl Entry.shuts false

structure Shut (l : Life) : Prop where
  closing : l.state = .closing → l.shut = true
  state : l.shut = true → l.state = .closing ∨ l.state = .closed
  crew : l.shut = true → ∀ i m, l.Busy i m → m.owner = .caller ∧ m.token ∈ l.stopped ∧ m.phase = .early
  forward : ∀ after, .state .closing after ∈ l.log → after = .closing ∨ after = .closed

namespace Shut

variable {l next : Life}

/-- Nobody is told to stop, and the state is left alone. -/
theorem frame (holds : Shut l) (state : next.state = l.state) (crew : next.crew = l.crew)
    (stopped : next.stopped = l.stopped) (shut : next.shut = l.shut)
    (log : ∀ after, .state .closing after ∈ next.log → .state .closing after ∈ l.log) : Shut next := by
  refine ⟨?_, ?_, ?_, fun after recorded => holds.forward after (log after recorded)⟩
  · rw [state, shut]
    exact holds.closing
  · rw [state, shut]
    exact holds.state
  · simpa only [Busy, crew, stopped, shut] using holds.crew

/-- The connection is not shutting down. -/
theorem active (open_ : next.shut = false) (state : next.state ≠ .closing)
    (forward : ∀ after, .state .closing after ∈ next.log → after = .closing ∨ after = .closed) : Shut next :=
  ⟨fun closing => absurd closing state, by simp [open_], by simp [open_], forward⟩

theorem unshut (holds : Shut l) (unclosing : l.state ≠ .closing) (unclosed : l.state ≠ .closed) : l.shut = false := by
  by_contra shut
  rcases holds.state (by simpa using shut) with closing | closed
  · exact unclosing closing
  · exact unclosed closed

/-- CLOSING is set, and everybody hears of it. -/
theorem closes (holds : Shut l) (heard : l.Heard) (state : next.state = .closing) (crew : next.crew = l.crew)
    (stopped : next.stopped = l.source :: l.stopped) (shut : next.shut = true)
    (log : ∀ after, .state .closing after ∈ next.log → .state .closing after ∈ l.log ∨ after = .closing) :
    Shut next := by
  refine ⟨fun _ => shut, fun _ => .inl state, fun _ i m busy => ?_, fun after recorded => ?_⟩
  · obtain ⟨owner, token, early⟩ := heard_iff.mp heard i m (by simpa only [Busy, crew] using busy)
    refine ⟨owner, ?_, early⟩
    rw [stopped, List.mem_cons]
    exact token.symm
  · exact (log after recorded).elim (holds.forward after) .inl

/-- CLOSED is set. -/
theorem ends (holds : Shut l) (state : next.state = .closed) (crew : next.crew = l.crew)
    (stopped : next.stopped = l.stopped) (shut : next.shut = l.shut)
    (log : ∀ after, .state .closing after ∈ next.log → .state .closing after ∈ l.log ∨ after = .closed) :
    Shut next := by
  refine ⟨by simp [state], fun _ => .inr state, ?_, fun after recorded => ?_⟩
  · simpa only [Busy, crew, stopped, shut] using holds.crew
  · exact (log after recorded).elim (holds.forward after) .inr

/-- A member that is busy and not early, or not of `connect()`, is not shut down. -/
theorem unshut_busy {i : Nat} {m : Member} (holds : Shut l) (found : l.crew[i]? = some m) (busy : m.busy)
    (deaf : m.owner = .control ∨ m.phase = .late ∨ m.token ∉ l.stopped) : l.shut = false := by
  by_contra shut
  obtain ⟨owner, token, early⟩ := holds.crew (by simpa using shut) i m ⟨found, busy⟩
  rcases deaf with control | late | unstopped
  · simp [owner] at control
  · simp [early] at late
  · exact unstopped token

/-- Another state is set, which the connection is not shutting down for. -/
theorem sets {state : State} {more : List Entry} (holds : Shut l) (still : l.shut = false)
    (log : next.log = l.log ++ .state l.state state :: more) (events : more = [] ∨ ∃ event, more = [.event event])
    (other : state ≠ .closing) (same : next.state = state) : Shut next := by
  have unclosing : l.state ≠ .closing := fun closing => by simp [holds.closing closing] at still
  have shut : l.log.foldl Entry.shuts false = false := still
  have later : next.shut = false := by
    rcases events with rfl | ⟨event, rfl⟩ <;>
      simp [Life.shut, log, shut, Entry.shuts_state other, Entry.shuts_event]
  apply active later (by rw [same]; exact other)
  rcases events with rfl | ⟨event, rfl⟩ <;> simpa [log, unclosing.symm] using holds.forward

theorem step (sound : Sound l) (holds : Shut l) (move : Move l next) (heard : ∀ entry ∈ next.log, entry.heard = true) :
    Shut next := by
  cases move with
  | fail event opened =>
    exact holds.sets (holds.unshut (by simp [opened]) (by simp [opened])) (by simp) (.inr ⟨event, rfl⟩) (by simp) rfl
  | closeIdle closed => exact holds.frame rfl rfl rfl (by simp [shut, Entry.shuts]) (by simp)
  | close flag unclosed hear =>
    have told : l.Heard := hear.mp (heard (.shutdown flag) (by simp))
    unfold awaitActor
    split
    · exact holds.closes told rfl rfl rfl (by simp [shut, Entry.shuts]) (by simp; grind)
    · exact holds.closes told rfl rfl rfl (by simp [shut, Entry.shuts]) (by simp; grind)
  | closeResume waits woken => exact holds.frame rfl rfl rfl (by simp [shut, Entry.shuts]) (by simp)
  | reopen idle closed free =>
    exact active (by simp [shut, Entry.shuts]) (by simp) (by simpa [closed] using holds.forward)
  | begin idle unopened unbegun unclosed unstopped free =>
    have unclosing : l.state ≠ .closing := fun closing => unstopped (sound.closing closing)
    exact active (by simp [shut, Entry.shuts]) (by simp) (by simpa [unclosing.symm] using holds.forward)
  | report event => exact holds.frame rfl rfl rfl (by simp [shut, Entry.shuts]) (by simp)
  | actorStart | actorGone | writerExit | readerExit | controlExit | controlBackoff =>
    exact holds.frame rfl rfl rfl rfl (fun _ recorded => recorded)
  | actorEnd event runs writer reader control =>
    exact holds.ends rfl rfl rfl (by simp [shut, Entry.shuts]) (by simp; grind)
  | actorCloses event ended unclosed =>
    exact holds.ends rfl rfl rfl (by simp [shut, Entry.shuts]) (by simp; grind)
  | controlDisable flag runs failed idle hear =>
    have told : l.Heard := hear.mp (heard (.shutdown flag) (by simp))
    exact holds.closes told rfl rfl rfl (by simp [shut, Entry.shuts]) (by simp; grind)
  | controlReconnect runs unstopped ready =>
    have unclosing : l.state ≠ .closing := by
      rcases ready with ⟨-, failed⟩ | ⟨-, unclosing⟩
      · simp [failed]
      · exact unclosing
    exact holds.sets (holds.unshut unclosing (sound.unclosed runs)) (by simp) (.inl rfl) (by simp) rfl
  | @advance i m found early unstopped =>
    have still : l.shut = false := holds.unshut_busy found (by simp [Member.busy, early]) (.inr (.inr unstopped))
    refine ⟨holds.closing, holds.state, fun shut => ?_, holds.forward⟩
    rw [show (l.setPhase i .late).shut = l.shut from rfl, still] at shut
    cases shut
  | finish found busy owner =>
    exact ⟨holds.closing, holds.state, fun shut i m left => holds.crew shut i m (busy_done.mp left).1, holds.forward⟩
  | reconnectFailed found busy owner runs =>
    exact holds.sets (holds.unshut_busy found busy (.inl owner)) (by simp) (.inl rfl) (by simp) rfl
  | opens event found late owner =>
    have still := holds.unshut_busy found (by simp [Member.busy, late]) (.inr (.inl late))
    exact holds.sets still (by simp) (.inr ⟨event, rfl⟩) (by simp) rfl
  | opensAgain event found late owner runs =>
    have still := holds.unshut_busy found (by simp [Member.busy, late]) (.inr (.inl late))
    exact holds.sets still (by simp) (.inr ⟨event, rfl⟩) (by simp) rfl

end Shut

end Life

namespace System

variable {ρ : Type} {fuel : Nat} {cfg : Config} {s : System ρ}

/-- Whatever is enqueued is not queued, and its sink is complete with this error in every slot. -/
def Rejects (fuel : Nat) (s : System ρ) (errc : ClientErrc) : Prop :=
  ∀ (req : Request) (slotFromMessage : Nat → Message → Except ErrorInfo ρ) (next : System ρ),
    s.enqueue fuel req slotFromMessage = some next →
    next.pipeline = s.pipeline ∧ next.sinks.isComplete s.sinks.cells.length = true ∧
      ∃ k, next.sinks.log = s.sinks.log ++ List.replicate k (s.sinks.cells.length, .error (.client errc))

theorem rejects_of_refusal {errc : ClientErrc} (refused : refusal s.state = some errc) : s.Rejects fuel errc := by
  intro req slotFromMessage next enqueued
  cases enqueue_cases enqueued with
  | @rejected other finish sinks why same failed =>
    have code : other = errc := by
      rcases why with why | ⟨why, -⟩
      · exact Option.some.inj (why.symm.trans refused)
      · cases why.symm.trans refused
    subst code
    have result := Sinks.failAll_refused failed
    exact ⟨rfl, result.complete, result.log⟩
  | queued opened pushed =>
    rw [opened] at refused
    cases refused

variable [FloatChars] [Inhabited ρ]

theorem Reached.shut (reached : Reached fuel cfg s) (heard : ∀ entry ∈ s.log, entry.heard = true) : s.life.Shut := by
  have kept (l next : Life) (holds : l.Sound ∧ l.Shut) (move : Life.Move l next)
      (fine : ∀ entry ∈ next.log, entry.heard = true) : next.Sound ∧ next.Shut :=
    ⟨holds.1.step move, holds.2.step holds.1 move fine⟩
  have start : (System.start (ρ := ρ) cfg).life.Sound ∧ (System.start (ρ := ρ) cfg).life.Shut :=
    ⟨.start cfg, .active rfl (by simp [System.start, System.life]) (by simp [System.start, System.life])⟩
  exact (reached.life.invariant kept start heard).2

/-- From CLOSING there is only CLOSED, and until `connect()` begins again every request is rejected
with connection_closed, where CLOSING is set only while every unfinished attempt will hear of it. -/
theorem shutdown_forward (reached : Reached fuel cfg s) (heard : ∀ entry ∈ s.log, entry.heard = true) :
    (∀ after, .state .closing after ∈ s.log → after = .closing ∨ after = .closed) ∧
      (s.life.shut = true → s.Rejects fuel .connectionClosed) := by
  have holds := reached.shut heard
  refine ⟨holds.forward, fun shut => rejects_of_refusal ?_⟩
  rcases holds.state shut with closing | closed
  · rw [show s.state = .closing from closing]
    rfl
  · rw [show s.state = .closed from closed]
    rfl

omit [FloatChars] [Inhabited ρ] in
/-- `close()` while `connect()` resolves: the attempt returns, and the actor comes to its end. -/
theorem shutdown_forward_resolving : letI := FloatChars.none
    ∃ s : System Unit, (Reached 8 {} s ∧ s.life.shut = true ∧ ∀ entry ∈ s.log, entry.heard = true) ∧
      (∀ after, .state .closing after ∈ s.log → after = .closing ∨ after = .closed) ∧
      (s.life.shut = true → s.Rejects 8 .connectionClosed) := by
  let := FloatChars.none
  have run : ∃ s : System Unit, Reached 8 {} s ∧ s.life.shut = true ∧ ∀ entry ∈ s.log, entry.heard = true :=
    Reached.of_run 8 {}
      [.connect, .actorStart, .attemptStart 0, .close, .attemptComplete 0 (.resolved (.ok 1)), .attemptResume 0 {},
        .writerRun .wakeup, .readerRun .wakeup, .controlRun .wakeup 0, .actorEnd]
      (by decide +kernel)
  obtain ⟨s, reached, shut, heard⟩ := run
  exact ⟨s, ⟨reached, shut, heard⟩, shutdown_forward reached heard⟩

omit [FloatChars] [Inhabited ρ] in
/-- `close()` while the control loop reconnects: the attempt fails, FAILED is set, and a request is
rejected with connection_lost. -/
theorem shutdown_backward : letI := FloatChars.none
    ∃ s : System Unit, Reached 8 {} s ∧ .state .closing .failed ∈ s.log ∧ s.life.shut = true ∧
      refusal s.state = some .connectionLost := by
  let := FloatChars.none
  exact Reached.of_run 8 {}
    (opening ++ losing ++
      [.controlRun .wakeup 0, .close, .attemptComplete 1 (.resolved (.error (.other []))), .attemptResume 1 {}])
    (by decide +kernel)

end System

end Rediscoro.Connection

import Rediscoro.Connection.Outcomes

/-! What happens to a connection while it is open.

Where attempts are made one at a time, no `do_connect` is at work in OPEN and the control loop is outside
of `do_reconnect`. So a step that does not leave OPEN is one of the loops of the actor, a request, or
nothing that requests and octets could notice.
-/

set_option autoImplicit false

namespace Rediscoro.Connection

open Rediscoro.Semantics Rediscoro.Resp3 Rediscoro.Pipeline

/-! Loops without an actor. -/

namespace Life

/-- The loops have exited unless their actor runs. -/
def Manned (l : Life) : Prop := (∃ token, l.actor = .running token) ∨ l.writerExited = true ∧ l.readerExited = true

variable {l next : Life}

theorem Manned.frame (manned : Manned l) (actor : next.actor = l.actor) (writer : next.writerExited = l.writerExited)
    (reader : next.readerExited = l.readerExited) : Manned next := by
  rwa [Manned, actor, writer, reader]

theorem Manned.exited (manned : Manned l) (idle : ∀ token, l.actor ≠ .running token) :
    l.writerExited = true ∧ l.readerExited = true := by
  apply manned.resolve_left
  rintro ⟨token, runs⟩
  exact idle token runs

theorem Manned.awaitActor (manned : Manned l) : Manned l.awaitActor := by
  unfold Life.awaitActor
  split <;> exact manned

theorem Manned.beginConnect (manned : Manned l) (running : l.actorRunning = true ↔ l.actor ≠ .none) (idle : Bool) :
    Manned (l.beginConnect idle) := by
  by_cases runs : l.actorRunning = true
  · exact manned.frame (by simp [runs]) rfl rfl
  · -- without an actor the loops of the last one have exited
    rcases manned with ⟨token, actor⟩ | exited
    · exact absurd (running.mpr (by simp [actor])) runs
    · exact .inr exited

theorem Manned.step (manned : Manned l) (sound : Sound l) (move : Move l next) : Manned next := by
  cases move with
  | close heard unclosed hear => exact Manned.awaitActor manned
  | reopen idle closed free =>
    have fresh : Manned l.reopen := manned
    exact fresh.beginConnect sound.running idle
  | begin idle unopened unbegun unclosed unstopped free => exact manned.beginConnect sound.running idle
  | actorStart spawned => exact .inl ⟨_, rfl⟩
  | actorEnd event runs writer reader control kind generation => exact .inr ⟨writer, reader⟩
  | actorGone ended closed => exact .inr (manned.exited fun token => by simp [ended])
  | actorCloses event ended unclosed kind generation => exact .inr (manned.exited fun token => by simp [ended])
  | writerExit runs ends => exact .inl ⟨_, runs⟩
  | readerExit runs ends => exact .inl ⟨_, runs⟩
  | _ => exact manned

end Life

theorem Loop.eq_exited {κ : Type} {loop : Loop κ} (exited : loop.hasExited = true) : loop = .exited := by
  cases loop with
  | exited => rfl
  | _ => cases exited

namespace System

variable {ρ : Type} [FloatChars] [Inhabited ρ] {fuel : Nat} {cfg : Config} {s next : System ρ}

theorem Reached.manned (reached : Reached fuel cfg s) : s.life.Manned := by
  have kept (l next : Life) (holds : l.Sound ∧ l.Manned) (move : Life.Move l next)
      (_ : ∀ entry ∈ next.log, True) : next.Sound ∧ next.Manned :=
    ⟨holds.1.step move, holds.2.step holds.1 move⟩
  exact (reached.life.invariant kept ⟨.start cfg, .inr ⟨rfl, rfl⟩⟩ fun _ _ => trivial).2

/-! The steps that do not leave OPEN. -/

/-- What requests and octets depend on is left as it is. -/
structure Same (s next : System ρ) : Prop where
  pipeline : next.pipeline = s.pipeline
  sinks : next.sinks = s.sinks
  parser : next.parser = s.parser
  writer : next.writer = s.writer
  reader : next.reader = s.reader

/-- What a step can do to an open connection that stays open. -/
inductive Stays (fuel : Nat) (s : System ρ) : Act ρ → System ρ → Prop where
  | same {act : Act ρ} {next : System ρ} (unchanged : s.Same next) : Stays fuel s act next
  | enqueue {req : Request} {slotFromMessage : Nat → Message → Except ErrorInfo ρ} {next : System ρ}
      (enqueued : Enqueued fuel s req slotFromMessage next) : Stays fuel s (.enqueue req slotFromMessage) next
  | actorStart (token : Token) (writer : s.writer = .exited) (reader : s.reader = .exited) :
      Stays fuel s .actorStart
        { s with actor := .running token, writer := .running, reader := .running, control := .running }
  | writerRun {cause : Cause} (token : Token) (wakeups : Nat) (rests : s.writer.resting = true) :
      Stays fuel s (.writerRun cause) ({ s with writeWakeup := wakeups }.writeTop token)
  | writerComplete {call next : WriteCall} {result : Except IoError Nat} (busy : s.writer = .busy call)
      (answered : call.complete result = some next) :
      Stays fuel s (.writerComplete result) { s with writer := .busy next }
  | writerResume {call : WriteCall} {n : Nat} {pipeline : Pipeline} (token : Token) (wakeups : Nat)
      (busy : s.writer = .busy call) (done : call.op = .ready (.ok n))
      (applied : s.pipeline.onWriteDone n = some pipeline) :
      Stays fuel s .writerResume
        ({ s with writer := .running, pipeline := pipeline, readWakeup := wakeups }.writeTop token)
  | readerRun {cause : Cause} (token : Token) (wakeups : Nat) (rests : s.reader.resting = true) :
      Stays fuel s (.readerRun cause) ({ s with readWakeup := wakeups }.readTop token)
  | readerComplete {call next : ReadCall} {result : Except IoError Bytes} (busy : s.reader = .busy call)
      (answered : call.complete result = some next) :
      Stays fuel s (.readerComplete result) { s with reader := .busy next }
  | readerResume (call : ReadCall) {memory : Memory} {octets : Bytes} {outcome : Outcome} {x : Exchange (Sink ρ)}
      (token : Token)
      (busy : s.reader = .busy call) (arrived : call.op = .ready (.ok octets)) (nonempty : octets ≠ [])
      (parsed : s.consume fuel memory octets (fun _ => false) = (outcome, x))
      (waits : outcome = .starved ∨ outcome = .complete) :
      Stays fuel s (.readerResume memory)
        (((({ s with reader := .running }.note (.committed call.resets s.resets)).consumed x).leave call.resets).readTop
          token)

section Leaving

variable {token : Token} {err : ErrorInfo}

omit [FloatChars] [Inhabited ρ] in
/-- `handle_error` leaves OPEN, and nothing behind it in the step comes back to it. -/
theorem handleError_unopened (handled : s.handleError fuel err = some next) : next.state ≠ .opened := by
  by_cases opened : s.state = .opened
  · simp [(handleError_failed opened handled).1]
  · unfold handleError at handled
    split at handled
    case h_7 => exact absurd ‹_› opened
    all_goals
      cases handled
      exact opened

omit [FloatChars] [Inhabited ρ] in
theorem state_writeTop (s : System ρ) (token : Token) : (s.writeTop token).state = s.state := by
  unfold writeTop
  split
  · rfl
  · split
    · split <;> rfl
    · rfl

omit [FloatChars] [Inhabited ρ] in
theorem state_readTop (s : System ρ) (token : Token) : (s.readTop token).state = s.state := by
  unfold readTop
  split
  · rfl
  · split <;> rfl

omit [Inhabited ρ] in
theorem writerResume_stays (opened : s.state = .opened) (resumed : s.writerResume fuel token = some next)
    (still : next.state = .opened) : Stays fuel s .writerResume next := by
  unfold writerResume at resumed
  split at resumed
  · rename_i sink size n busy
    split at resumed
    · cases resumed
    · rename_i pipeline applied
      cases resumed
      exact .writerResume token _ busy rfl applied
  · dsimp only at resumed
    split at resumed
    · rename_i aborted
      simp [opened] at aborted
    · obtain ⟨middle, handled, rfl⟩ := Option.map_eq_some_iff.mp resumed
      rw [state_writeTop] at still
      exact absurd still (handleError_unopened handled)
  · cases resumed

omit [Inhabited ρ] in
theorem readChunk_stays {memory : Memory} {octets : Bytes} {issued : Nat}
    (read : s.readChunk fuel memory octets issued = some next) (still : next.state = .opened) :
    ∃ outcome x, s.consume fuel memory octets (fun _ => false) = (outcome, x) ∧
      (outcome = .starved ∨ outcome = .complete) ∧
      next = (({ s with reader := .running }.note (.committed issued s.resets)).consumed x).leave issued := by
  cases parsed : s.consume fuel memory octets (fun _ => false) with
  | mk outcome x =>
    simp only [readChunk, parsed] at read
    cases outcome with
    | faulty => cases read
    | invalid errc => exact absurd still (handleError_unopened read)
    | unsolicited => exact absurd still (handleError_unopened read)
    | starved => exact ⟨_, x, rfl, .inl rfl, (Option.some.inj read).symm⟩
    | complete => exact ⟨_, x, rfl, .inr rfl, (Option.some.inj read).symm⟩

omit [Inhabited ρ] in
theorem readerResume_stays {memory : Memory} (opened : s.state = .opened)
    (resumed : s.readerResume fuel token memory = some next)
    (still : next.state = .opened) : Stays fuel s (.readerResume memory) next := by
  unfold readerResume at resumed
  split at resumed
  · rename_i room issued octets busy
    obtain ⟨middle, read, rfl⟩ := Option.map_eq_some_iff.mp resumed
    rw [state_readTop] at still
    split at read
    · exact absurd still (handleError_unopened read)
    · rename_i nonempty
      obtain ⟨outcome, x, parsed, waits, rfl⟩ := readChunk_stays read still
      exact .readerResume ⟨room, issued, .ready (.ok octets)⟩ token busy rfl nonempty parsed waits
  · dsimp only at resumed
    split at resumed
    · rename_i aborted
      simp [opened] at aborted
    · obtain ⟨middle, handled, rfl⟩ := Option.map_eq_some_iff.mp resumed
      rw [state_readTop] at still
      exact absurd still (handleError_unopened handled)
  · cases resumed

omit [FloatChars] [Inhabited ρ] in
theorem controlTop_stays {delay : Nat} (opened : s.state = .opened)
    (ran : s.controlTop fuel token delay = some next) (still : next.state = .opened) :
    s.Same next ∧ next.notes = s.notes := by
  unfold controlTop at ran
  split at ran
  · cases ran
    exact ⟨⟨rfl, rfl, rfl, rfl, rfl⟩, rfl⟩
  · split at ran
    · rename_i failed
      rw [opened] at failed
      cases failed
    · split at ran
      · obtain ⟨middle, handled, rfl⟩ := Option.map_eq_some_iff.mp ran
        exact absurd still (controlFailed_unopened (handleError_failed opened handled).1 token delay)
      · cases ran
        unfold controlIdle
        split
        · exact ⟨⟨rfl, rfl, rfl, rfl, rfl⟩, rfl⟩
        · split <;> exact ⟨⟨rfl, rfl, rfl, rfl, rfl⟩, rfl⟩

end Leaving

omit [FloatChars] [Inhabited ρ] in
theorem controlRun_stays {token : Token} {cause : Cause} {delay : Nat} (opened : s.state = .opened)
    (awake : ∀ deadline, s.control ≠ .backoff deadline) (ran : s.controlRun fuel token cause delay = some next)
    (still : next.state = .opened) : s.Same next := by
  have woken {expiry : Option TimePoint} {middle : System ρ}
      (resumed : s.controlWoken token expiry cause = some middle) :
      ∃ wakeups, middle = { s with controlWakeup := wakeups } := by
    cases cause with
    | wakeup =>
      simp only [controlWoken] at resumed
      split at resumed
      · cases resumed
        exact ⟨_, rfl⟩
      · cases resumed
    | cancelled =>
      simp only [controlWoken] at resumed
      split at resumed
      · cases resumed
        exact ⟨_, rfl⟩
      · cases resumed
    | timer =>
      simp only [controlWoken] at resumed
      split at resumed
      · cases resumed
      · split at resumed
        · cases resumed
          exact ⟨_, rfl⟩
        · cases resumed
  have after {middle : System ρ} (same : ∃ wakeups, middle = { s with controlWakeup := wakeups })
      (went : middle.controlTop fuel token delay = some next) : s.Same next := by
    obtain ⟨wakeups, rfl⟩ := same
    have unchanged := (controlTop_stays (s := { s with controlWakeup := wakeups }) opened went still).1
    exact ⟨unchanged.pipeline, unchanged.sinks, unchanged.parser, unchanged.writer, unchanged.reader⟩
  unfold controlRun at ran
  split at ran
  · exact (controlTop_stays opened ran still).1
  · obtain ⟨middle, resumed, went⟩ := Option.bind_eq_some_iff.mp ran
    exact after (woken resumed) went
  · obtain ⟨middle, resumed, went⟩ := Option.bind_eq_some_iff.mp ran
    exact after (woken resumed) went
  · rename_i deadline backoff
    exact absurd backoff (awake deadline)
  · cases ran
  · cases ran

theorem stays_open {act : Act ρ} (exclusive : s.life.Exclusive) (manned : s.life.Manned) (opened : s.state = .opened)
    (stepped : s.step fuel act = some next) (still : next.state = .opened) : Stays fuel s act next := by
  have free {i : Nat} (busy : ∃ a, s.attempts[i]? = some a ∧ a.unfinished = true) : False := by
    obtain ⟨a, found, unfinished⟩ := busy
    exact exclusive.free (.inl opened) i a.member ⟨crew_found found, Attempt.busy_of_unfinished unfinished⟩
  have awake (deadline : Nat) : s.control ≠ .backoff deadline := by
    intro backoff
    have away := exclusive.backoff (by simp [life, backoff, Control.duty])
    simp [life, opened] at away
  cases act with
  | tick elapsed =>
    cases stepped
    exact .same ⟨rfl, rfl, rfl, rfl, rfl⟩
  | connect =>
    simp only [step, connect, opened] at stepped
    cases stepped
    exact .same ⟨rfl, rfl, rfl, rfl, rfl⟩
  | connectResume i =>
    simp only [step, connectResume] at stepped
    split at stepped
    · cases stepped
      exact .same ⟨rfl, rfl, rfl, rfl, rfl⟩
    · cases stepped
      exact .same ⟨rfl, rfl, rfl, rfl, rfl⟩
    · cases stepped
  | connectClose i =>
    simp only [step, connectClose] at stepped
    split at stepped
    · exact absurd still (close_away stepped).1
    · cases stepped
  | close => exact absurd still (close_away stepped).1
  | closeResume =>
    simp only [step, closeResume] at stepped
    split at stepped
    · cases stepped
      exact .same ⟨rfl, rfl, rfl, rfl, rfl⟩
    · cases stepped
  | enqueue req slotFromMessage => exact .enqueue (enqueue_cases stepped)
  | actorStart =>
    simp only [step, actorStart] at stepped
    split at stepped
    · rename_i token spawned
      cases stepped
      -- an actor that was not started has no loops yet
      have exited := manned.exited fun token => by simp [life, spawned]
      exact .actorStart token (Loop.eq_exited exited.1) (Loop.eq_exited exited.2)
    · cases stepped
  | actorEnd =>
    simp only [step, actorEnd] at stepped
    split at stepped
    · exact absurd still (transitionToClosed_away stepped).1
    · cases stepped
  | actorHandler =>
    simp only [step, actorHandler] at stepped
    split at stepped
    · obtain ⟨closed, closes, rfl⟩ := Option.map_eq_some_iff.mp stepped
      split at closes
      · rename_i state
        simp [opened] at state
      · exact absurd still (transitionToClosed_away closes).1
    · cases stepped
  | writerRun cause =>
    obtain ⟨token, -, woken⟩ := inActor_runs stepped
    unfold writerRun at woken
    split at woken
    · rename_i rests
      cases woken
      exact .writerRun token s.writeWakeup (by rw [rests]; rfl)
    · rename_i rests
      split at woken
      · cases woken
        exact .writerRun token _ (by rw [rests]; rfl)
      · cases woken
    · rename_i rests
      split at woken
      · cases woken
        exact .writerRun token s.writeWakeup (by rw [rests]; rfl)
      · cases woken
    · cases woken
  | writerComplete result =>
    simp only [step, writerComplete] at stepped
    split at stepped
    · rename_i call busy
      obtain ⟨answer, answered, rfl⟩ := Option.map_eq_some_iff.mp stepped
      exact .writerComplete busy answered
    · cases stepped
  | writerResume =>
    obtain ⟨token, -, resumed⟩ := inActor_runs stepped
    exact writerResume_stays opened resumed still
  | readerRun cause =>
    obtain ⟨token, -, woken⟩ := inActor_runs stepped
    unfold readerRun at woken
    split at woken
    · rename_i rests
      cases woken
      exact .readerRun token s.readWakeup (by rw [rests]; rfl)
    · rename_i rests
      split at woken
      · cases woken
        exact .readerRun token _ (by rw [rests]; rfl)
      · cases woken
    · rename_i rests
      split at woken
      · cases woken
        exact .readerRun token s.readWakeup (by rw [rests]; rfl)
      · cases woken
    · cases woken
  | readerComplete result =>
    simp only [step, readerComplete] at stepped
    split at stepped
    · rename_i call busy
      obtain ⟨answer, answered, rfl⟩ := Option.map_eq_some_iff.mp stepped
      exact .readerComplete busy answered
    · cases stepped
  | readerResume memory =>
    obtain ⟨token, -, resumed⟩ := inActor_runs stepped
    exact readerResume_stays opened resumed still
  | controlRun cause delay =>
    obtain ⟨token, -, ran⟩ := inActor_runs stepped
    exact .same (controlRun_stays opened awake ran still)
  | attemptStart i => exact (free (attemptStart_keeps stepped).2).elim
  | attemptComplete i completion => exact (free (attemptComplete_keeps stepped).2).elim
  | attemptTimeout i => exact (free (attemptTimeout_keeps stepped).2).elim
  | attemptResume i oracle => exact (free (attemptResume_unfinished stepped)).elim

end System

end Rediscoro.Connection

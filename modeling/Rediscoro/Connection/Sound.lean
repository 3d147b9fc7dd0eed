import Rediscoro.Connection.Projection

/-! What holds of every life, whatever its callers do.

The actor runs while its control loop does, a closed connection has no actor
left that could act, and a closing one has stopped its source.
-/

set_option autoImplicit false

namespace Rediscoro.Connection

open Rediscoro.Semantics Rediscoro.Resp3

namespace Life

structure Sound (l : Life) : Prop where
  running : l.actorRunning = true ↔ l.actor ≠ .none
  manned : l.duty ≠ .exited → ∃ token, l.actor = .running token
  closed : l.state = .closed → l.actor = .none ∨ l.actor = .ended
  closing : l.state = .closing → l.source ∈ l.stopped
  stopped : ∀ token ∈ l.stopped, token ≤ l.source
  connecting : l.duty = .connecting → ∃ i m, l.Busy i m ∧ m.owner = .control

namespace Sound

variable {l next : Life}

theorem unclosed {token : Token} (sound : Sound l) (runs : l.actor = .running token) : l.state ≠ .closed := by
  intro closed
  rcases sound.closed closed with none | ended
  · rw [runs] at none
    cases none
  · rw [runs] at ended
    cases ended

theorem idle {token : Token} (sound : Sound l) (spawned : l.actor = .spawned token) : l.duty = .exited := by
  by_contra busy
  obtain ⟨other, runs⟩ := sound.manned busy
  rw [spawned] at runs
  cases runs

theorem reopened (sound : Sound l) : l.source + 1 ∉ l.stopped :=
  fun stopped => Nat.not_succ_le_self _ (sound.stopped _ stopped)

/-- The history and the waiting `close()` calls play no part. -/
theorem frame (sound : Sound l) (generation closing actorDone : Nat) (log : List Entry) :
    Sound { l with generation := generation, closing := closing, actorDone := actorDone, log := log } :=
  ⟨sound.running, sound.manned, sound.closed, sound.closing, sound.stopped, sound.connecting⟩

/-- The states in which nothing is known of the actor. -/
theorem setState {state : State} (sound : Sound l) (active : state = .connecting ∨ state = .opened ∨ state = .failed) :
    Sound (l.setState state) := by
  have other : state ≠ .closed ∧ state ≠ .closing := by
    rcases active with rfl | rfl | rfl <;> decide
  exact ⟨sound.running, sound.manned, fun closed => absurd closed other.1, fun closing => absurd closing other.2,
    sound.stopped, sound.connecting⟩

/-- The control loop is outside of `do_reconnect`. -/
theorem setDuty {duty : Duty} {token : Token} (sound : Sound l) (runs : l.actor = .running token)
    (outside : duty ≠ .connecting) : Sound { l with duty := duty } :=
  ⟨sound.running, fun _ => ⟨token, runs⟩, sound.closed, sound.closing, sound.stopped,
    fun connecting => absurd connecting outside⟩

/-- The control loop is inside of `do_reconnect` or the attempt is none of its own. -/
theorem setPhase {i : Nat} {m : Member} {phase : Phase} (sound : Sound l) (found : l.crew[i]? = some m)
    (harmless : l.duty = .connecting → m.owner = .control → phase = .late) : Sound (l.setPhase i phase) := by
  refine ⟨sound.running, sound.manned, sound.closed, sound.closing, sound.stopped, fun connecting => ?_⟩
  obtain ⟨j, n, busy, owner⟩ := sound.connecting connecting
  by_cases here : j = i
  · subst here
    cases busy.1.symm.trans found
    refine ⟨j, { m with phase := phase }, ⟨by simp [Life.setPhase, found], ?_⟩, owner⟩
    simp [Member.busy, harmless connecting owner]
  · refine ⟨j, n, ⟨?_, busy.2⟩, owner⟩
    simpa [Life.setPhase, Ne.symm here] using busy.1

/-- The crew grows. -/
theorem keeps_busy {m : Member} (joined : next.crew = l.crew ++ [m]) (early : m.phase = .early)
    (busy : ∃ i n, l.Busy i n ∧ n.owner = .control) : ∃ i n, next.Busy i n ∧ n.owner = .control := by
  obtain ⟨i, n, found, owner⟩ := busy
  exact ⟨i, n, (busy_push joined early).mpr (.inl found), owner⟩

/-- `run_actor` finds no coroutine of an earlier actor. -/
theorem beginConnect (sound : Sound l) (idle : Bool) : Sound (l.beginConnect idle) := by
  refine ⟨?_, fun busy => ?_, by simp, by simp, sound.stopped, fun connecting => ?_⟩
  · by_cases active : l.actorRunning = true
    · simpa [active] using sound.running.mp active
    · simp [active]
  · obtain ⟨token, runs⟩ := sound.manned busy
    have active : l.actorRunning = true := sound.running.mpr (by simp [runs])
    exact ⟨token, by simp [active, runs]⟩
  · exact keeps_busy rfl rfl (sound.connecting connecting)

/-- CLOSING comes with a stop of the source. -/
theorem closes (sound : Sound l) : Sound { l with state := .closing, stopped := l.source :: l.stopped } := by
  refine ⟨sound.running, sound.manned, by simp, by simp, fun token stopped => ?_, sound.connecting⟩
  rcases List.mem_cons.mp stopped with rfl | earlier
  · exact Nat.le_refl _
  · exact sound.stopped token earlier

theorem step (sound : Sound l) (move : Move l next) : Sound next := by
  cases move with
  | fail event opened => exact (sound.setState (.inr (.inr rfl))).frame _ _ _ _
  | closeIdle closed => exact sound.frame _ _ _ _
  | close heard unclosed hear =>
    unfold awaitActor
    split
    · exact sound.closes.frame _ _ _ _
    · exact sound.closes.frame _ _ _ _
  | closeResume waits woken => exact sound.frame _ _ _ _
  | reopen idle closed free =>
    apply beginConnect
    refine ⟨sound.running, sound.manned, by simp, by simp, fun token stopped => ?_, sound.connecting⟩
    exact Nat.le_succ_of_le (sound.stopped token stopped)
  | begin idle unopened unbegun unclosed unstopped free => exact sound.beginConnect idle
  | report event => exact sound.frame _ _ _ _
  | actorStart spawned =>
    refine ⟨by simpa [spawned] using sound.running, fun _ => ⟨_, rfl⟩, fun closed => ?_, sound.closing, sound.stopped,
      by simp⟩
    simpa [spawned] using sound.closed closed
  | actorEnd event runs writer reader control =>
    exact ⟨by simpa [runs] using sound.running, by simp [control], by simp, by simp, sound.stopped, by simp [control]⟩
  | actorGone ended closed =>
    exact ⟨by simp, fun busy => by simpa [ended] using sound.manned busy, by simp, by simp [closed], sound.stopped,
      sound.connecting⟩
  | actorCloses event ended unclosed =>
    exact ⟨by simp, fun busy => by simpa [ended] using sound.manned busy, by simp, by simp, sound.stopped,
      sound.connecting⟩
  | writerExit | readerExit =>
    exact ⟨sound.running, sound.manned, sound.closed, sound.closing, sound.stopped, sound.connecting⟩
  | controlExit runs ends free => exact sound.setDuty runs (by simp)
  | controlBackoff runs failed idle => exact sound.setDuty runs (by simp)
  | controlDisable heard runs failed idle hear =>
    exact (sound.closes.setDuty runs (by simp)).frame _ _ _ _
  | controlReconnect runs unstopped ready =>
    refine ⟨sound.running, fun _ => ⟨_, runs⟩, by simp, by simp, sound.stopped, fun _ => ?_⟩
    exact ⟨_, _, (busy_push rfl rfl).mpr (.inr ⟨rfl, rfl⟩), rfl⟩
  | advance found early unstopped => exact sound.setPhase found (fun _ _ => rfl)
  | finish found busy owner => exact sound.setPhase found (by simp [owner])
  | reconnectFailed found busy owner runs =>
    exact ⟨sound.running, fun _ => ⟨_, runs⟩, by simp, by simp, sound.stopped, by simp⟩
  | opens event found late owner =>
    have opened : Sound (l.setOpen event) := (sound.setState (.inr (.inl rfl))).frame _ _ _ _
    exact opened.setPhase found (by simp [owner])
  | opensAgain event found late owner runs =>
    exact ⟨sound.running, fun _ => ⟨_, runs⟩, by simp, by simp, sound.stopped, by simp⟩

theorem run {first : Life} (moves : Moves first l) (sound : Sound first) : Sound l := by
  induction moves with
  | refl => exact sound
  | tail _ move ih => exact ih.step move

theorem start {ρ : Type} (cfg : Config) : Sound (System.start (ρ := ρ) cfg).life := by
  refine ⟨by simp [System.start, System.life], by simp [System.start, System.life, Control.duty],
    by simp [System.start, System.life], by simp [System.start, System.life], by simp [System.start, System.life],
    by simp [System.start, System.life, Control.duty]⟩

end Sound

end Life

namespace System

variable {ρ : Type} [FloatChars] [Inhabited ρ] {fuel : Nat} {cfg : Config} {s : System ρ}

/-- Every connection that a run reaches is sound. -/
theorem Reached.sound (reached : Reached fuel cfg s) : s.life.Sound := .run reached.life (.start cfg)

variable (fuel cfg) in
/-- What a given run comes to can be evaluated. -/
theorem Reached.of_run (actions : List (Act ρ)) {holds : System ρ → Prop} [DecidablePred holds]
    (run : (runFrom (step fuel) (System.start cfg) actions).any (fun s => holds s) = true) :
    ∃ s, Reached fuel cfg s ∧ holds s := by
  cases last : runFrom (step fuel) (System.start cfg) actions with
  | none =>
    rw [last] at run
    cases run
  | some s =>
    rw [last] at run
    exact ⟨s, ⟨actions, last⟩, of_decide_eq_true run⟩

end System

/-- An attempt resolves, connects, writes its handshake, reads the reply and sets OPEN. -/
def dial {ρ : Type} (i : Nat) : List (Act ρ) :=
  [.attemptComplete i (.resolved (.ok 1)), .attemptResume i {}, .attemptComplete i (.connected (.ok ())),
    .attemptResume i {}, .attemptComplete i (.wrote (.ok 22)), .attemptResume i {},
    .attemptComplete i (.read (.ok (text "+OK\r\n"))), .attemptResume i {}, .attemptResume i {}, .attemptResume i {}]

/-- `connect()` from INIT to its return. -/
def opening {ρ : Type} : List (Act ρ) := [.connect, .actorStart, .attemptStart 0] ++ dial 0 ++ [.connectResume 0]

/-- The loops of the actor wake up to a stop request and exit, and CLOSED is set. -/
def stopping {ρ : Type} : List (Act ρ) := [.writerRun .wakeup, .readerRun .wakeup, .controlRun .wakeup 0, .actorEnd]

/-- The loops of the actor wait, and the read fails. -/
def losing {ρ : Type} : List (Act ρ) :=
  [.controlRun .wakeup 0, .writerRun .wakeup, .readerRun .wakeup, .readerComplete (.error (.other [])), .readerResume]

end Rediscoro.Connection

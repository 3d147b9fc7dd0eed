import Rediscoro.Connection.Sound

/-! One attempt at a time.

Where `connect()` begins an attempt only while no other attempt and no
`do_reconnect` is unfinished, at most one `do_connect` is busy, and its state
and the control loop say whose it is.
-/

set_option autoImplicit false

namespace Rediscoro.Connection

open Rediscoro.Semantics Rediscoro.Resp3

/-- `connect()` begins an attempt only where no other is unfinished. -/
def Entry.solo : Entry → Bool
  | .began idle => idle
  | _ => true

/-- The coroutine has run. -/
def Attempt.started (a : Attempt) : Bool :=
  match a.stage with
  | .spawned => false
  | _ => true

namespace Life

/-- What is known while a member is busy. -/
def Engaged (l : Life) (m : Member) : Prop :=
  match m.owner with
  | .caller =>
      (l.state = .connecting ∨ l.state = .closing ∨ l.state = .closed) ∧ l.duty ≠ .backoff ∧ l.duty ≠ .connecting
  | .control => (l.state = .reconnecting ∨ l.state = .closing) ∧ l.duty = .connecting

structure Exclusive (l : Life) : Prop where
  unique : ∀ i j m n, l.Busy i m → l.Busy j n → i = j
  engaged : ∀ i m, l.Busy i m → l.Engaged m
  backoff : l.duty = .backoff → l.state = .failed ∨ l.state = .closing

namespace Exclusive

variable {l next : Life}

/-- Only the state, the crew and the control loop matter. -/
theorem frame (exclusive : Exclusive l) (state : next.state = l.state) (crew : next.crew = l.crew)
    (duty : next.duty = l.duty) : Exclusive next := by
  refine ⟨?_, ?_, by rw [state, duty]; exact exclusive.backoff⟩
  · simpa only [Busy, crew] using exclusive.unique
  · simpa only [Busy, Engaged, crew, state, duty] using exclusive.engaged

/-- Nothing is left to be shown where nobody is busy. -/
theorem freed (free : ∀ i m, ¬next.Busy i m)
    (backoff : next.duty = .backoff → next.state = .failed ∨ next.state = .closing) :
    Exclusive next :=
  ⟨fun i _ m _ busy => absurd busy (free i m), fun i m busy => absurd busy (free i m), backoff⟩

/-- In OPEN and in FAILED nobody is busy. -/
theorem free (exclusive : Exclusive l) (state : l.state = .opened ∨ l.state = .failed) (i : Nat) (m : Member) :
    ¬l.Busy i m := by
  intro busy
  have engaged := exclusive.engaged i m busy
  unfold Engaged at engaged
  split at engaged <;> rcases state with state | state <;> simp [state] at engaged

theorem closes (exclusive : Exclusive l) (state : next.state = .closing) (crew : next.crew = l.crew)
    (duty : next.duty = l.duty) : Exclusive next := by
  refine ⟨?_, fun i m busy => ?_, fun _ => .inr state⟩
  · simpa only [Busy, crew] using exclusive.unique
  · have engaged := exclusive.engaged i m (by simpa only [Busy, crew] using busy)
    unfold Engaged at engaged ⊢
    rw [state, duty]
    split at engaged <;> simp_all

/-- The control loop is left, or has been. -/
theorem leaves (exclusive : Exclusive l) (outside : l.duty ≠ .connecting) (crew : next.crew = l.crew)
    (state : next.state = l.state ∨ next.state = .closed) (duty : next.duty = .exited ∨ next.duty = .idle) :
    Exclusive next := by
  refine ⟨?_, fun i m busy => ?_, by rcases duty with duty | duty <;> simp [duty]⟩
  · simpa only [Busy, crew] using exclusive.unique
  · have engaged := exclusive.engaged i m (by simpa only [Busy, crew] using busy)
    unfold Engaged at engaged ⊢
    split at engaged
    · rcases state with state | state <;> rcases duty with duty | duty <;> simp_all
    · exact absurd engaged.2 outside

/-- A member joins where nobody is busy. -/
theorem joins {m : Member} (free : ∀ i n, ¬l.Busy i n) (crew : next.crew = l.crew ++ [m]) (early : m.phase = .early)
    (engaged : next.Engaged m) (duty : next.duty ≠ .backoff) : Exclusive next := by
  have sole (i : Nat) (n : Member) (busy : next.Busy i n) : i = l.crew.length ∧ n = m := by
    rcases (busy_push crew early).mp busy with earlier | last
    · exact absurd earlier (free i n)
    · exact last
  refine ⟨fun i j m n left right => ?_, fun i n busy => ?_, fun backoff => absurd backoff duty⟩
  · rw [(sole i m left).1, (sole j n right).1]
  · rw [(sole i n busy).2]
    exact engaged

/-- The busy member is done. -/
theorem done {i : Nat} {m : Member} (exclusive : Exclusive l) (found : l.crew[i]? = some m) (busy : m.busy)
    (crew : next.crew = (l.setPhase i .done).crew) (j : Nat) (n : Member) : ¬next.Busy j n := by
  intro left
  have other : (l.setPhase i .done).Busy j n := by simpa only [Busy, crew] using left
  obtain ⟨still, elsewhere⟩ := busy_done.mp other
  exact elsewhere (exclusive.unique j i n m still ⟨found, busy⟩)

/-- The control loop starts an attempt in FAILED only, behind a backoff too. -/
theorem failed (exclusive : Exclusive l)
    (ready : (l.duty = .idle ∧ l.state = .failed) ∨ (l.duty = .backoff ∧ l.state ≠ .closing)) : l.state = .failed := by
  rcases ready with ⟨-, failed⟩ | ⟨backoff, unclosing⟩
  · exact failed
  · exact (exclusive.backoff backoff).resolve_right unclosing

theorem begins {idle : Bool} (free : idle = true ↔ l.Idle)
    (solo : ∀ entry ∈ (l.beginConnect idle).log, entry.solo = true) :
    Exclusive (l.beginConnect idle) := by
  have alone : l.Idle := free.mp (solo (.began idle) (by simp))
  exact joins alone.free rfl rfl ⟨.inl rfl, alone.2⟩ alone.2.1

theorem step (sound : Sound l) (exclusive : Exclusive l) (move : Move l next)
    (solo : ∀ entry ∈ next.log, entry.solo = true) : Exclusive next := by
  cases move with
  | fail event opened => exact freed (exclusive.free (.inl opened)) (by simp)
  | closeIdle closed => exact exclusive.frame rfl rfl rfl
  | close heard unclosed hear =>
    unfold awaitActor
    split
    · exact exclusive.closes rfl rfl rfl
    · exact exclusive.closes rfl rfl rfl
  | closeResume waits woken => exact exclusive.frame rfl rfl rfl
  | reopen idle closed free => exact begins free solo
  | begin idle unopened unbegun unclosed unstopped free => exact begins free solo
  | report event => exact exclusive.frame rfl rfl rfl
  | actorStart spawned => exact exclusive.leaves (by simp [sound.idle spawned]) rfl (.inl rfl) (.inr rfl)
  | actorEnd event runs writer reader control =>
    exact exclusive.leaves (by simp [control]) rfl (.inr rfl) (.inl control)
  | actorGone ended closed => exact exclusive.frame rfl rfl rfl
  | actorCloses event ended unclosed =>
    have exited : l.duty = .exited := by
      by_contra busy
      simpa [ended] using sound.manned busy
    exact exclusive.leaves (by simp [exited]) rfl (.inr rfl) (.inl exited)
  | writerExit | readerExit => exact exclusive.frame rfl rfl rfl
  | controlExit runs ends free => exact exclusive.leaves free rfl (.inl rfl) (.inl rfl)
  | controlBackoff runs failed idle => exact freed (exclusive.free (.inr failed)) (fun _ => .inl failed)
  | controlDisable heard runs failed idle hear => exact freed (exclusive.free (.inr failed)) (by simp)
  | controlReconnect runs unstopped ready =>
    have failed := exclusive.failed ready
    exact joins (exclusive.free (.inr failed)) rfl rfl (by simp [Engaged]) (by simp)
  | @advance i m found early unstopped =>
    -- an index stays busy, and whose it is does not change
    have before (j : Nat) (n : Member) (busy : (l.setPhase i .late).Busy j n) :
        ∃ old, l.Busy j old ∧ old.owner = n.owner := by
      rcases (busy_late found).mp busy with ⟨still, -⟩ | ⟨rfl, rfl⟩
      · exact ⟨n, still, rfl⟩
      · exact ⟨m, ⟨found, by simp [Member.busy, early]⟩, rfl⟩
    refine ⟨fun j k m n left right => ?_, fun j n busy => ?_, exclusive.backoff⟩
    · obtain ⟨a, left, -⟩ := before j m left
      obtain ⟨b, right, -⟩ := before k n right
      exact exclusive.unique j k a b left right
    · obtain ⟨old, still, owner⟩ := before j n busy
      have engaged := exclusive.engaged j old still
      unfold Engaged at engaged ⊢
      rw [owner] at engaged
      exact engaged
  | finish found busy owner =>
    apply freed (exclusive.done found busy rfl)
    exact exclusive.backoff
  | reconnectFailed found busy owner runs => exact freed (exclusive.done found busy rfl) (by simp)
  | @opens i m event found late owner =>
    have busy : m.busy := by simp [Member.busy, late]
    have engaged := exclusive.engaged i m ⟨found, busy⟩
    rw [Engaged, owner] at engaged
    exact freed (exclusive.done found busy rfl) (fun backoff => absurd backoff engaged.2.1)
  | opensAgain event found late owner runs =>
    exact freed (exclusive.done found (by simp [Member.busy, late]) rfl) (by simp)

theorem start {ρ : Type} (cfg : Config) : Exclusive (System.start (ρ := ρ) cfg).life :=
  freed (by simp [System.start, System.life, Busy]) (by simp [System.start, System.life, Control.duty])

end Exclusive

/-- `do_reconnect` sets RECONNECTING only in FAILED. -/
theorem Exclusive.reconnects {l next : Life} {before : State} (exclusive : Exclusive l) (move : Move l next)
    (recorded : .state before .reconnecting ∈ next.log) : .state before .reconnecting ∈ l.log ∨ before = .failed := by
  cases move with
  | controlReconnect runs unstopped ready =>
    have failed : l.state = .failed := exclusive.failed ready
    rcases List.mem_append.mp recorded with earlier | now
    · exact .inl earlier
    · exact .inr (by simpa [failed] using now)
  | _ => exact .inl (by simpa using recorded)

end Life

namespace System

variable {ρ : Type} [FloatChars] [Inhabited ρ] {fuel : Nat} {cfg : Config} {s : System ρ}

/-- No two attempts are unfinished. -/
def OneAttempt (s : System ρ) : Prop :=
  ∀ (i j : Nat) (a b : Attempt), s.attempts[i]? = some a → s.attempts[j]? = some b →
    a.unfinished = true → b.unfinished = true → i = j

/-- A move of the connection keeps its life sound and exclusive. -/
theorem Move.exclusive {next : System ρ} (move : Move fuel s next) (held : s.life.Sound ∧ s.life.Exclusive)
    (solo : ∀ entry ∈ next.log, entry.solo = true) : next.life.Sound ∧ next.life.Exclusive := by
  have kept (l next : Life) (held : l.Sound ∧ l.Exclusive) (move : Life.Move l next)
      (solo : ∀ entry ∈ next.log, entry.solo = true) : next.Sound ∧ next.Exclusive :=
    ⟨held.1.step move, held.2.step held.1 move solo⟩
  exact move.life.invariant kept held solo

theorem Reached.exclusive (reached : Reached fuel cfg s) (solo : ∀ entry ∈ s.log, entry.solo = true) :
    s.life.Exclusive ∧ ∀ before, .state before .reconnecting ∈ s.log → before = .failed := by
  let invariant (l : Life) : Prop :=
    l.Sound ∧ l.Exclusive ∧ ∀ before, .state before .reconnecting ∈ l.log → before = .failed
  have kept (l next : Life) (holds : invariant l) (move : Life.Move l next)
      (fine : ∀ entry ∈ next.log, entry.solo = true) : invariant next := by
    obtain ⟨sound, exclusive, reconnects⟩ := holds
    refine ⟨sound.step move, exclusive.step sound move fine, fun before recorded => ?_⟩
    exact (exclusive.reconnects move recorded).elim (reconnects before) id
  have start : invariant (System.start (ρ := ρ) cfg).life :=
    ⟨.start cfg, .start cfg, by simp [System.start, System.life]⟩
  exact (reached.life.invariant kept start solo).2

/-- At most one `do_connect` is unfinished, and `do_reconnect` sets RECONNECTING in FAILED only,
where `connect()` begins an attempt only while no other attempt and no `do_reconnect` is unfinished. -/
theorem one_attempt (reached : Reached fuel cfg s) (solo : ∀ entry ∈ s.log, entry.solo = true) :
    s.OneAttempt ∧ ∀ before, .state before .reconnecting ∈ s.log → before = .failed := by
  obtain ⟨exclusive, reconnects⟩ := reached.exclusive solo
  refine ⟨fun i j a b here there left right => ?_, reconnects⟩
  exact exclusive.unique i j a.member b.member ⟨crew_found here, Attempt.busy_of_unfinished left⟩
    ⟨crew_found there, Attempt.busy_of_unfinished right⟩

omit [FloatChars] [Inhabited ρ] in
/-- A connection that was lost and is being reconnected by the control loop. -/
theorem one_attempt_reconnecting : letI := FloatChars.none
    ∃ s : System Unit, (Reached 8 {} s ∧ s.state = .reconnecting ∧ ∀ entry ∈ s.log, entry.solo = true) ∧
      s.OneAttempt ∧ ∀ before, .state before .reconnecting ∈ s.log → before = .failed := by
  let := FloatChars.none
  have run : ∃ s : System Unit, Reached 8 {} s ∧ s.state = .reconnecting ∧ ∀ entry ∈ s.log, entry.solo = true :=
    Reached.of_run 8 {} (opening ++ losing ++ [.controlRun .wakeup 0]) (by decide +kernel)
  obtain ⟨s, reached, state, solo⟩ := run
  exact ⟨s, ⟨reached, state, solo⟩, one_attempt reached solo⟩

omit [FloatChars] [Inhabited ρ] in
/-- `connect()` while the control loop reconnects starts a second attempt, and where the control
loop waits for its backoff, it goes on to RECONNECTING in CONNECTING. -/
theorem two_attempts : letI := FloatChars.none
    (∃ s : System Unit, Reached 8 {} s ∧ (s.attempts.filter fun a => a.started && a.unfinished).length = 2) ∧
    ∃ s : System Unit, Reached 8 { immediateAttempts := 0 } s ∧ .state .connecting .reconnecting ∈ s.log := by
  let := FloatChars.none
  constructor
  · exact Reached.of_run 8 {} (opening ++ losing ++ [.controlRun .wakeup 0, .connect, .attemptStart 2])
      (by decide +kernel)
  · exact Reached.of_run 8 { immediateAttempts := 0 }
      (opening ++ losing ++ [.controlRun .wakeup 5, .connect, .tick 5, .controlRun .timer 0]) (by decide +kernel)

end System

end Rediscoro.Connection

import Rediscoro.Connection.Sound

/-! What OPEN and the return of `close()` promise.

OPEN promises an actor that serves the requests. It holds where OPEN is set by an
attempt that the lifecycle still waits for, and CLOSED is left only once the
actor's completion handler has run. `close()` promises CLOSED. It holds where in
addition each `close()` waits for an actor, finds no wake-up that another actor
has left behind, and is done before `connect()` leaves CLOSED.
-/

set_option autoImplicit false

namespace Rediscoro.Connection

open Rediscoro.Semantics Rediscoro.Resp3

/-- OPEN is set in CONNECTING or RECONNECTING only. -/
def Entry.expected : Entry → Bool
  | .state before .opened => before = .connecting || before = .reconnecting
  | _ => true

/-- CLOSED is left only behind the completion handler of the actor. -/
def Entry.relieved : Entry → Bool
  | .reopened _ actorRunning => !actorRunning
  | _ => true

/-- `close()` waits for an actor and finds no wake-up before it, and CLOSED is not left while one waits. -/
def Entry.paired : Entry → Bool
  | .closeEntered actorRunning banked => actorRunning && banked == 0
  | .reopened closers _ => closers == 0
  | _ => true

namespace Life

structure Served (l : Life) : Prop where
  token : ∀ token, l.actor = .spawned token ∨ l.actor = .running token → token = l.source
  live : l.state = .connecting ∨ l.state = .reconnecting ∨ l.state = .opened → l.source ∉ l.stopped
  manned : l.source ∉ l.stopped → l.state ≠ .init → l.state ≠ .closed →
    l.actor = .spawned l.source ∨ l.actor = .running l.source
  exits : ∀ token, l.actor = .running token → l.writerExited = true ∨ l.readerExited = true ∨ l.duty = .exited →
    token ∈ l.stopped
  fresh : l.state = .init → l.actor = .none

namespace Served

variable {l next : Life}

/-- History, crew and waiting calls play no part. -/
theorem frame (served : Served l) (generation closing actorDone : Nat) (crew : List Member) (log : List Entry) :
    Served { l with generation := generation, closing := closing, actorDone := actorDone, crew := crew, log := log } :=
  ⟨served.token, served.live, served.manned, served.exits, served.fresh⟩

/-- CLOSING comes with a stop of the source. -/
theorem closes (served : Served l) : Served { l with state := .closing, stopped := l.source :: l.stopped } :=
  ⟨served.token, by simp, by simp,
    fun token runs exited => List.mem_cons_of_mem _ (served.exits token runs exited), by simp⟩

/-- CLOSED is set when the actor has ended. -/
theorem ends (gone : next.actor = .none ∨ next.actor = .ended) (closed : next.state = .closed) : Served next := by
  refine ⟨fun token alive => ?_, by simp [closed], by simp [closed], fun token runs => ?_, by simp [closed]⟩
  · rcases gone with gone | gone <;> rcases alive with alive | alive <;> simp [gone] at alive
  · rcases gone with gone | gone <;> simp [gone] at runs

/-- A state is set while the actor runs for an unstopped source. -/
theorem sets {state : State} (served : Served l) (unstopped : l.source ∉ l.stopped)
    (alive : l.actor = .spawned l.source ∨ l.actor = .running l.source) (other : state ≠ .init) :
    Served { l with state := state } :=
  ⟨served.token, fun _ => unstopped, fun _ _ _ => alive, served.exits, fun fresh => absurd fresh other⟩

/-- The control loop goes on. -/
theorem setDuty {duty : Duty} (served : Served l) (stays : duty ≠ .exited) : Served { l with duty := duty } := by
  refine ⟨served.token, served.live, served.manned, fun token runs exited => ?_, served.fresh⟩
  rcases exited with writer | reader | control
  · exact served.exits token runs (.inl writer)
  · exact served.exits token runs (.inr (.inl reader))
  · exact absurd control stays

/-- A loop that exits sees the stop of its own actor. -/
theorem exit {token : Token} {writer reader : Bool} {duty : Duty} (served : Served l) (runs : l.actor = .running token)
    (stopped : token ∈ l.stopped) : Served { l with writerExited := writer, readerExited := reader, duty := duty } := by
  refine ⟨served.token, served.live, served.manned, fun other also _ => ?_, served.fresh⟩
  cases runs.symm.trans also
  exact stopped

/-- The actor is there for the source, or is started for it. -/
theorem begins (idle : Bool) (unstopped : l.source ∉ l.stopped)
    (alive : l.actorRunning = true → Served l ∧ (l.actor = .spawned l.source ∨ l.actor = .running l.source)) :
    Served (l.beginConnect idle) := by
  cases active : l.actorRunning with
  | true =>
    obtain ⟨served, alive⟩ := alive active
    refine ⟨?_, fun _ => unstopped, fun _ _ _ => by simpa [active] using alive, ?_, by simp⟩
    · simpa [active] using served.token
    · simpa [active] using served.exits
  | false => exact ⟨by simp [active], fun _ => unstopped, by simp [active], by simp [active], by simp⟩

theorem step (sound : Sound l) (served : Served l) (move : Move l next)
    (fine : ∀ entry ∈ next.log, entry.expected = true ∧ entry.relieved = true) : Served next := by
  -- OPEN is set in a state that has its actor
  have opens (opened : .state l.state .opened ∈ next.log) :
      l.source ∉ l.stopped ∧ (l.actor = .spawned l.source ∨ l.actor = .running l.source) := by
    have before : l.state = .connecting ∨ l.state = .reconnecting := by
      simpa [Entry.expected] using (fine _ opened).1
    have unstopped := served.live (before.imp_right .inl)
    exact ⟨unstopped, served.manned unstopped (by rcases before with h | h <;> simp [h])
      (by rcases before with h | h <;> simp [h])⟩
  cases move with
  | fail event opened =>
    have unstopped := served.live (.inr (.inr opened))
    exact (served.sets unstopped (served.manned unstopped (by simp [opened]) (by simp [opened])) (by simp)).frame _ _ _
      _ _
  | closeIdle closed => exact served.frame _ _ _ _ _
  | close flag unclosed hear =>
    unfold awaitActor
    split
    · exact served.closes.frame _ _ _ _ _
    · exact served.closes.frame _ _ _ _ _
  | closeResume waits woken => exact served.frame _ _ _ _ _
  | reopen idle closed free =>
    have relieved : l.actorRunning = false := by
      simpa [Entry.relieved] using (fine (.reopened l.closing l.actorRunning) (by simp)).2
    exact begins idle sound.reopened (by simp [relieved])
  | begin idle unopened unbegun unclosed unstopped free =>
    refine begins idle unstopped fun active => ⟨served, ?_⟩
    have begun : l.state ≠ .init := fun fresh => sound.running.mp active (served.fresh fresh)
    exact served.manned unstopped begun unclosed
  | report event => exact served.frame _ _ _ _ _
  | actorStart spawned =>
    refine ⟨fun token alive => ?_, served.live, fun unstopped begun unclosed => ?_, by simp, fun fresh => ?_⟩
    · exact served.token token (by simpa [spawned] using alive)
    · simpa [spawned] using served.manned unstopped begun unclosed
    · simpa [spawned] using served.fresh fresh
  | actorEnd event runs writer reader control => exact ends (.inr rfl) rfl
  | actorGone ended closed => exact ends (.inl rfl) closed
  | actorCloses event ended unclosed => exact ends (.inl rfl) rfl
  | writerExit runs exits => exact served.exit runs (exits.resolve_right (sound.unclosed runs))
  | readerExit runs exits => exact served.exit runs (exits.resolve_right (sound.unclosed runs))
  | controlExit runs exits free =>
    apply served.exit runs
    rcases exits with stopped | closed | closing
    · exact stopped
    · exact absurd closed (sound.unclosed runs)
    · rw [served.token _ (.inr runs)]
      exact sound.closing closing
  | controlBackoff runs failed idle => exact served.setDuty (by simp)
  | controlDisable flag runs failed idle hear =>
    have stopped : _ ∈ l.source :: l.stopped := List.mem_cons.mpr (.inl (served.token _ (.inr runs)))
    exact (served.closes.exit runs stopped).frame _ _ _ _ _
  | controlReconnect runs unstopped ready =>
    have same := served.token _ (.inr runs)
    rw [same] at runs unstopped
    exact ((served.sets unstopped (.inr runs) (by simp)).setDuty (by simp)).frame _ _ _ _ _
  | advance | finish => exact served.frame _ _ _ _ _
  | reconnectFailed found busy owner runs =>
    have same := served.token _ (.inr runs)
    rw [same] at runs
    refine ⟨served.token, by simp, fun _ _ _ => .inr runs, fun token also exited => ?_, by simp⟩
    exact served.exits token also (exited.imp_right fun reader => reader.imp_right (by simp))
  | opens event found late owner =>
    obtain ⟨unstopped, alive⟩ := opens (by simp)
    exact (served.sets unstopped alive (by simp)).frame _ _ _ _ _
  | opensAgain event found late owner runs =>
    obtain ⟨unstopped, alive⟩ := opens (by simp)
    exact ((served.sets unstopped alive (by simp)).setDuty (by simp)).frame _ _ _ _ _

end Served

/-- While a `close()` waits, a wake-up of `actor_done_` means CLOSED. -/
structure Paired (l : Life) : Prop where
  woken : 0 < l.closing → 0 < l.actorDone → l.state = .closed
  returned : ∀ state, .closeReturned state ∈ l.log → state = .closed

namespace Paired

variable {l next : Life}

/-- Nothing is known to wait for where CLOSED was not yet set. -/
theorem moves (paired : Paired l) (unclosed : l.state ≠ .closed) (closing : next.closing = l.closing)
    (actorDone : next.actorDone = l.actorDone)
    (log : ∀ state, .closeReturned state ∈ next.log → .closeReturned state ∈ l.log) : Paired next := by
  refine ⟨fun waits woken => ?_, fun state returned => paired.returned state (log state returned)⟩
  rw [closing] at waits
  rw [actorDone] at woken
  exact absurd (paired.woken waits woken) unclosed

/-- The state stays, or is CLOSED. -/
theorem stays (paired : Paired l) (state : next.state = l.state ∨ next.state = .closed)
    (closing : next.closing = l.closing) (actorDone : next.actorDone = l.actorDone ∨ next.state = .closed)
    (log : ∀ state, .closeReturned state ∈ next.log → .closeReturned state ∈ l.log) : Paired next := by
  refine ⟨fun waits woken => ?_, fun state returned => paired.returned state (log state returned)⟩
  rcases actorDone with same | closed
  · rcases state with kept | closed
    · rw [kept]
      exact paired.woken (closing ▸ waits) (same ▸ woken)
    · exact closed
  · exact closed

theorem step (sound : Sound l) (paired : Paired l) (move : Move l next)
    (fine : ∀ entry ∈ next.log, entry.expected = true ∧ entry.paired = true) : Paired next := by
  cases move with
  | fail event opened => exact paired.moves (by simp [opened]) rfl rfl (by simp)
  | closeIdle closed =>
    exact ⟨paired.woken, fun state returned => (by simpa using returned : _ ∨ _).elim (paired.returned state) id⟩
  | close flag unclosed hear =>
    obtain ⟨active, empty⟩ : l.actorRunning = true ∧ l.actorDone = 0 := by
      simpa [Entry.paired] using (fine (.closeEntered l.actorRunning l.actorDone) (by simp)).2
    rw [awaitActor, if_pos (by simpa using active)]
    exact ⟨by simp [empty], by simpa using paired.returned⟩
  | closeResume waits woken =>
    have closed := paired.woken waits woken
    refine ⟨fun _ _ => closed, fun state returned => ?_⟩
    rcases List.mem_append.mp returned with earlier | now
    · exact paired.returned state earlier
    · simpa [closed] using now
  | reopen idle closed free =>
    have nobody : l.closing = 0 := by
      simpa [Entry.paired] using (fine (.reopened l.closing l.actorRunning) (by simp)).2
    exact ⟨by simp [nobody], by simpa using paired.returned⟩
  | begin idle unopened unbegun unclosed unstopped free => exact paired.moves unclosed (by simp) (by simp) (by simp)
  | report event => exact paired.stays (.inl rfl) rfl (.inl rfl) (by simp)
  | actorStart | writerExit | readerExit | controlExit | controlBackoff | advance | finish =>
    exact paired.stays (.inl rfl) rfl (.inl rfl) (fun _ returned => returned)
  | actorEnd event runs writer reader control => exact paired.stays (.inr rfl) rfl (.inl rfl) (by simp)
  | actorGone ended closed => exact paired.stays (.inl rfl) rfl (.inr closed) (fun _ returned => returned)
  | actorCloses event ended unclosed => exact paired.stays (.inr rfl) rfl (.inr rfl) (by simp)
  | controlDisable flag runs failed idle hear => exact paired.moves (by simp [failed]) rfl rfl (by simp)
  | controlReconnect runs unstopped ready => exact paired.moves (sound.unclosed runs) rfl rfl (by simp)
  | reconnectFailed found busy owner runs => exact paired.moves (sound.unclosed runs) rfl rfl (by simp)
  | opens event found late owner =>
    have before : l.state = .connecting ∨ l.state = .reconnecting := by
      simpa [Entry.expected] using (fine (.state l.state .opened) (by simp)).1
    exact paired.moves (by rcases before with h | h <;> simp [h]) rfl rfl (by simp)
  | opensAgain event found late owner runs => exact paired.moves (sound.unclosed runs) rfl rfl (by simp)

end Paired

end Life

namespace System

variable {ρ : Type} [FloatChars] [Inhabited ρ] {fuel : Nat} {cfg : Config} {s : System ρ}

/-- An actor of the current lifecycle runs, and none of its loops has exited. -/
def Served (s : System ρ) : Prop :=
  s.actorRunning = true ∧ (s.actor = .spawned s.source ∨
    (s.actor = .running s.source ∧ s.writer.hasExited = false ∧ s.reader.hasExited = false ∧ s.control.duty ≠ .exited))

/-- OPEN means served, where OPEN is set in CONNECTING or RECONNECTING only and CLOSED is left only
behind the completion handler of the actor. -/
theorem open_served (reached : Reached fuel cfg s)
    (fine : ∀ entry ∈ s.log, entry.expected = true ∧ entry.relieved = true) (opened : s.state = .opened) :
    s.Served := by
  have kept (l next : Life) (holds : l.Sound ∧ l.Served) (move : Life.Move l next)
      (fine : ∀ entry ∈ next.log, entry.expected = true ∧ entry.relieved = true) : next.Sound ∧ next.Served :=
    ⟨holds.1.step move, holds.2.step holds.1 move fine⟩
  have start : (System.start (ρ := ρ) cfg).life.Sound ∧ (System.start (ρ := ρ) cfg).life.Served := by
    refine ⟨.start cfg, ?_⟩
    constructor <;> simp [System.start, System.life]
  obtain ⟨sound, served⟩ := reached.life.invariant kept start fine
  have unstopped := served.live (.inr (.inr opened))
  have alive := served.manned unstopped (by simp [System.life, opened]) (by simp [System.life, opened])
  refine ⟨sound.running.mpr (by rcases alive with h | h <;> simp [h]), alive.imp_right fun runs => ⟨runs, ?_⟩⟩
  -- a loop that had exited would have seen the source stopped
  have stays (exited : s.life.writerExited = true ∨ s.life.readerExited = true ∨ s.life.duty = .exited) : False :=
    unstopped (served.exits _ runs exited)
  exact ⟨Bool.eq_false_iff.mpr fun writer => stays (.inl writer),
    Bool.eq_false_iff.mpr fun reader => stays (.inr (.inl reader)),
    fun control => stays (.inr (.inr control))⟩

omit [FloatChars] [Inhabited ρ] in
theorem open_served_first : letI := FloatChars.none
    ∃ s : System Unit, (Reached 8 {} s ∧ s.state = .opened ∧
      ∀ entry ∈ s.log, entry.expected = true ∧ entry.relieved = true) ∧ s.Served := by
  let := FloatChars.none
  have run : ∃ s : System Unit, Reached 8 {} s ∧ s.state = .opened ∧
      ∀ entry ∈ s.log, entry.expected = true ∧ entry.relieved = true :=
    Reached.of_run 8 {} opening (by decide +kernel)
  obtain ⟨s, reached, opened, fine⟩ := run
  exact ⟨s, ⟨reached, opened, fine⟩, open_served reached fine opened⟩

omit [FloatChars] [Inhabited ρ] in
/-- An attempt sets OPEN behind a `close()` that its last stop check has not seen; and `connect()`
between CLOSED and the completion handler starts no actor. Either way there is none. -/
theorem open_unserved : letI := FloatChars.none
    (∃ s : System Unit, Reached 8 {} s ∧ s.state = .opened ∧ s.actor = .ended ∧
      ∀ entry ∈ s.log, entry.relieved = true) ∧
    ∃ s : System Unit, Reached 8 {} s ∧ s.state = .opened ∧ s.actor = .ended ∧
      ∀ entry ∈ s.log, entry.expected = true := by
  let := FloatChars.none
  constructor
  · exact Reached.of_run 8 {}
      ([.connect, .actorStart, .attemptStart 0] ++ (dial 0).dropLast ++ [.close] ++ stopping ++ [.attemptResume 0 {}])
      (by decide +kernel)
  · exact Reached.of_run 8 {} (opening ++ [.close] ++ stopping ++ [.connect, .attemptStart 1] ++ dial 1)
      (by decide +kernel)

/-- Every `close()` that returns leaves CLOSED behind, where each waits for an actor, finds no wake-up
that was left behind, and is done before `connect()` leaves CLOSED, and OPEN is set in CONNECTING or
RECONNECTING only. -/
theorem close_returns_closed (reached : Reached fuel cfg s)
    (fine : ∀ entry ∈ s.log, entry.expected = true ∧ entry.paired = true) (state : State)
    (returned : .closeReturned state ∈ s.log) : state = .closed := by
  have kept (l next : Life) (holds : l.Sound ∧ l.Paired) (move : Life.Move l next)
      (fine : ∀ entry ∈ next.log, entry.expected = true ∧ entry.paired = true) : next.Sound ∧ next.Paired :=
    ⟨holds.1.step move, holds.2.step holds.1 move fine⟩
  have start : (System.start (ρ := ρ) cfg).life.Sound ∧ (System.start (ρ := ρ) cfg).life.Paired :=
    ⟨.start cfg, by simp [System.start, System.life], by simp [System.start, System.life]⟩
  exact (reached.life.invariant kept start fine).2.returned state returned

omit [FloatChars] [Inhabited ρ] in
theorem close_returns_closed_once : letI := FloatChars.none
    ∃ s : System Unit, (Reached 8 {} s ∧ .closeReturned .closed ∈ s.log ∧
      ∀ entry ∈ s.log, entry.expected = true ∧ entry.paired = true) ∧
      ∀ state, .closeReturned state ∈ s.log → state = .closed := by
  let := FloatChars.none
  have run : ∃ s : System Unit, Reached 8 {} s ∧ .closeReturned .closed ∈ s.log ∧
      ∀ entry ∈ s.log, entry.expected = true ∧ entry.paired = true :=
    Reached.of_run 8 {} (opening ++ [.close] ++ stopping ++ [.actorHandler, .closeResume]) (by decide +kernel)
  obtain ⟨s, reached, returned, fine⟩ := run
  exact ⟨s, ⟨reached, returned, fine⟩, close_returns_closed reached fine⟩

omit [FloatChars] [Inhabited ρ] in
/-- `close()` before any `connect()` returns in CLOSING. So does one that finds the wake-up of an actor
that came to its end on its own, where reconnection is disabled. -/
theorem close_returns_closing : letI := FloatChars.none
    (∃ s : System Unit, Reached 8 {} s ∧ .closeReturned .closing ∈ s.log) ∧
    ∃ s : System Unit, Reached 8 { reconnectEnabled := false } s ∧ .closeReturned .closing ∈ s.log ∧
      .closeEntered true 1 ∈ s.log := by
  let := FloatChars.none
  constructor
  · exact Reached.of_run 8 {} [.close] (by decide +kernel)
  · exact Reached.of_run 8 { reconnectEnabled := false }
      (opening ++ losing ++
        [.controlRun .wakeup 0, .writerRun .wakeup, .readerRun .wakeup, .actorEnd, .actorHandler, .connect, .actorStart,
          .attemptStart 1] ++ dial 1 ++ [.connectResume 1, .close, .closeResume])
      (by decide +kernel)

end System

end Rediscoro.Connection

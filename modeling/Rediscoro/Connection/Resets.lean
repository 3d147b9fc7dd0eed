import Rediscoro.Connection.Sound

/-! Octets of one connection and the parser of the next.

`do_connect` resets the parser when it begins and when it sets OPEN. Octets that a
`do_read` was waiting for come into the parser of their own connection only where
no such reset finds a `do_read` that may still bring some.
-/

set_option autoImplicit false

namespace Rediscoro.Connection

open Rediscoro.Semantics Rediscoro.Resp3 Rediscoro.Pipeline

/-- `do_connect` resets the parser only where no `do_read` may still bring octets. -/
def Note.calm : Note → Bool
  | .reset promising => !promising
  | _ => true

/-- What concerns neither commits nor handshakes that parse. -/
def Note.neutral : Note → Bool
  | .committed .. | .parsed _ => false
  | _ => true

theorem ReadCall.promising_abort {call : ReadCall} (promising : call.abort.promising = true) :
    call.promising = true := by
  rcases call with ⟨room, resets, op⟩
  cases op with
  | pending => rfl
  | ready result => exact promising

theorem ReadCall.resets_complete {call next : ReadCall} {result : Except IoError Bytes}
    (answered : call.complete result = some next) : next.resets = call.resets ∧ call.promising = true := by
  rcases call with ⟨room, resets, op⟩
  cases op with
  | ready => cases answered
  | pending =>
    refine ⟨?_, rfl⟩
    cases result with
    | ok octets =>
      simp only [complete] at answered
      split at answered <;> cases answered
      rfl
    | error err =>
      cases answered
      rfl

namespace System

variable {ρ : Type}

structure Fresh (s : System ρ) : Prop where
  reader : ∀ call, s.reader = .busy call → call.promising = true → call.resets = s.resets
  leftover : ∀ issued, s.leftover = some issued → issued = s.resets
  attempts : ∀ a ∈ s.attempts, a.reset ≤ s.resets
  committed : ∀ issued resets, .committed issued resets ∈ s.notes → issued = resets
  parsed : ∀ stale, .parsed stale ∈ s.notes → stale = false

namespace Fresh

variable {s next : System ρ}

/-- Neither the parser nor the reader is touched. -/
theorem frame (fresh : Fresh s)
    (reader : ∀ call, next.reader = .busy call → call.promising = true →
      ∃ old, s.reader = .busy old ∧ old.promising = true ∧ call.resets = old.resets)
    (resets : next.resets = s.resets) (leftover : next.leftover = s.leftover)
    (attempts : ∀ a ∈ next.attempts, a.reset = 0 ∨ ∃ old ∈ s.attempts, a.reset = old.reset)
    (notes : next.notes = s.notes) : Fresh next := by
  refine ⟨fun call busy promising => ?_, ?_, fun a member => ?_, by rw [notes]; exact fresh.committed,
    by rw [notes]; exact fresh.parsed⟩
  · obtain ⟨old, was, before, same⟩ := reader call busy promising
    rw [resets, same]
    exact fresh.reader old was before
  · rw [resets, leftover]
    exact fresh.leftover
  · rw [resets]
    rcases attempts a member with zero | ⟨old, was, same⟩
    · rw [zero]
      exact Nat.zero_le _
    · rw [same]
      exact fresh.attempts old was

theorem still (fresh : Fresh s) (reader : next.reader = s.reader) (resets : next.resets = s.resets)
    (leftover : next.leftover = s.leftover) (attempts : next.attempts = s.attempts) (notes : next.notes = s.notes) :
    Fresh next := by
  refine fresh.frame (fun call busy promising => ⟨call, reader ▸ busy, promising, rfl⟩) resets leftover ?_ notes
  rw [attempts]
  exact fun a member => .inr ⟨a, member, rfl⟩

/-- The reader has no operation under way. -/
theorem rests (fresh : Fresh s) (reader : ∀ call, next.reader ≠ .busy call) (resets : next.resets = s.resets)
    (leftover : next.leftover = s.leftover) (attempts : next.attempts = s.attempts) (notes : next.notes = s.notes) :
    Fresh next := by
  refine fresh.frame (fun call busy => absurd busy (reader call)) resets leftover ?_ notes
  rw [attempts]
  exact fun a member => .inr ⟨a, member, rfl⟩

theorem note {n : Note} (fresh : Fresh s) (neutral : n.neutral = true) : Fresh (s.note n) := by
  refine ⟨fresh.reader, fresh.leftover, fresh.attempts, fun issued resets member => ?_, fun stale member => ?_⟩
  · rcases List.mem_append.mp member with earlier | last
    · exact fresh.committed issued resets earlier
    · rw [← List.mem_singleton.mp last] at neutral
      cases neutral
  · rcases List.mem_append.mp member with earlier | last
    · exact fresh.parsed stale earlier
    · rw [← List.mem_singleton.mp last] at neutral
      cases neutral

theorem clearAll {fuel : Nat} {err : ErrorInfo} (fresh : Fresh s) (cleared : s.clearAll fuel err = some next) :
    Fresh next := by
  obtain ⟨pipeline, sinks, -, rfl⟩ := clearAll_eq cleared
  exact (fresh.note rfl).still rfl rfl rfl rfl rfl

theorem closeSocket (fresh : Fresh s) : Fresh s.closeSocket := by
  unfold System.closeSocket
  split
  · refine fresh.frame (fun call busy promising => ?_) rfl rfl (fun a member => ?_) rfl
    · cases shape : s.reader with
      | busy old =>
        simp only [shape, Loop.map, Loop.busy.injEq] at busy
        subst busy
        exact ⟨old, rfl, ReadCall.promising_abort promising, rfl⟩
      | running | waiting | exited => simp [shape, Loop.map] at busy
    · obtain ⟨old, was, rfl⟩ := List.mem_map.mp member
      exact .inr ⟨old, was, rfl⟩
  · exact fresh

theorem setAttempt {change : Attempt → Attempt} (fresh : Fresh s) (i : Nat)
    (bounded : ∀ a ∈ s.attempts, (change a).reset ≤ s.resets) : Fresh (s.setAttempt i change) := by
  refine ⟨fresh.reader, fresh.leftover, fun a member => ?_, fresh.committed, fresh.parsed⟩
  obtain ⟨j, found⟩ := List.mem_iff_getElem?.mp member
  simp only [System.setAttempt, List.getElem?_modify] at found
  obtain ⟨old, was, same⟩ := Option.map_eq_some_iff.mp found
  have inside := List.mem_of_getElem? was
  split at same
  · rw [← same]
    exact bounded old inside
  · rw [← same]
    exact fresh.attempts old inside

theorem setStage (fresh : Fresh s) (i : Nat) (stage : Stage) : Fresh (s.setStage i stage) :=
  fresh.setAttempt i fresh.attempts

theorem joins (fresh : Fresh s) (a : Attempt) (new : a.reset = 0) : Fresh { s with attempts := s.attempts ++ [a] } := by
  refine ⟨fresh.reader, fresh.leftover, fun b member => ?_, fresh.committed, fresh.parsed⟩
  rcases List.mem_append.mp member with earlier | last
  · exact fresh.attempts b earlier
  · rw [List.mem_singleton.mp last, new]
    exact Nat.zero_le _

/-- No read that may still bring octets sees the reset. -/
theorem resetParser (fresh : Fresh s) (calm : s.readPromising = false) : Fresh s.resetParser := by
  refine ⟨fun call busy promising => ?_, by simp [System.resetParser], fun a member => ?_, ?_, ?_⟩
  · have reading : s.reader = .busy call := busy
    simp [readPromising, reading, promising] at calm
  · exact Nat.le_succ_of_le (fresh.attempts a member)
  · simpa [System.resetParser, System.note] using fresh.committed
  · simpa [System.resetParser, System.note] using fresh.parsed

theorem beginResolve (fresh : Fresh s) (calm : s.readPromising = false) (i : Nat) : Fresh (s.beginResolve i) :=
  (fresh.resetParser calm).setAttempt i fun _ _ => Nat.le_refl _

theorem enqueue {fuel : Nat} {req : Request} {slotFromMessage : Nat → Message → Except ErrorInfo ρ} (fresh : Fresh s)
    (enqueued : s.enqueue fuel req slotFromMessage = some next) : Fresh next := by
  cases enqueue_cases enqueued with
  | rejected refused same failed => exact fresh.still rfl rfl rfl rfl rfl
  | queued opened pushed => exact (fresh.note rfl).still rfl rfl rfl rfl rfl

theorem transitionToClosed {fuel : Nat} (fresh : Fresh s) (closes : s.transitionToClosed fuel = some next) :
    Fresh next := by
  obtain ⟨cleared, clears, rfl⟩ := Option.map_eq_some_iff.mp closes
  have done := clearAll (by exact fresh.still rfl rfl rfl rfl rfl) clears
  exact done.closeSocket.still rfl rfl rfl rfl rfl

theorem beginConnect (fresh : Fresh s) : Fresh s.beginConnect := by
  have joined := fresh.joins { owner := .caller, token := s.source } rfl
  exact joined.still rfl rfl rfl rfl rfl

theorem setOpen (fresh : Fresh s) (calm : s.readPromising = false) : Fresh s.setOpen := by
  have opened : Fresh ({ (s.note (.opened s.pipeline.pendingCount)).setState .opened with
      reconnectCount := 0, generation := s.generation + 1 }.emit .connected .handshake s.state .opened none) :=
    (fresh.note rfl).still rfl rfl rfl rfl rfl
  exact opened.resetParser calm

/-- A tree that `do_read` has left is from behind the last reset, so from behind that of the attempt. -/
theorem staleFor {a : Attempt} (fresh : Fresh s) (member : a ∈ s.attempts) : s.staleFor a = false := by
  unfold System.staleFor
  split
  · rfl
  · rename_i issued left
    have bound := fresh.attempts a member
    rw [fresh.leftover issued left, decide_eq_false_iff_not]
    omega

variable [FloatChars] [Inhabited ρ] {fuel : Nat}

theorem step (fresh : Fresh s) (move : Move fuel s next) (calm : ∀ note ∈ next.notes, note.calm = true) :
    Fresh next := by
  have unpromising (reset : .reset s.readPromising ∈ next.notes) : s.readPromising = false := by
    simpa [Note.calm] using calm _ reset
  cases move with
  | quiet | closeIdle | actorGone => exact fresh.still rfl rfl rfl rfl rfl
  | report found here => exact (fresh.setStage _ _).still rfl rfl rfl rfl rfl
  | fail opened clears =>
    have cleared := clearAll (by exact fresh.still rfl rfl rfl rfl rfl) clears
    exact cleared.closeSocket.still rfl rfl rfl rfl rfl
  | close unclosed clears =>
    have cleared := clearAll (by exact fresh.still rfl rfl rfl rfl rfl) clears
    unfold awaitActor
    split
    · exact cleared.closeSocket.still rfl rfl rfl rfl rfl
    · exact cleared.closeSocket.still rfl rfl rfl rfl rfl
  | closeResume resumed =>
    unfold System.closeResume at resumed
    split at resumed
    · cases resumed
      exact fresh.still rfl rfl rfl rfl rfl
    · cases resumed
  | reopen closed =>
    have reopened : Fresh s.reopen := fresh.still rfl rfl rfl rfl rfl
    exact reopened.beginConnect
  | begin unopened idle unclosed unstopped => exact fresh.beginConnect
  | hop found hops => exact fresh.setStage _ _
  | actorStart spawned => exact fresh.rests (by simp) rfl rfl rfl rfl
  | actorEnd runs writer reader control closes =>
    exact transitionToClosed (by exact fresh.still rfl rfl rfl rfl rfl) closes
  | actorCloses ended unclosed closes =>
    have closed := transitionToClosed (by exact fresh.still rfl rfl rfl rfl rfl) closes
    exact closed.still rfl rfl rfl rfl rfl
  | enqueue enqueued => exact fresh.enqueue enqueued
  | writerExit | writerWait | writerComplete | writerDone | writerDrop => exact fresh.still rfl rfl rfl rfl rfl
  | writerIssue runs opened rests issued => exact (fresh.note rfl).still rfl rfl rfl rfl rfl
  | readerExit | readerWait | readerDrop => exact fresh.rests (by simp) rfl rfl rfl rfl
  | readerIssue runs opened rests =>
    refine ⟨fun call busy _ => ?_, fresh.leftover, fresh.attempts, fresh.committed, fresh.parsed⟩
    cases busy
    rfl
  | readerComplete busy answered =>
    refine ⟨fun call found _ => ?_, fresh.leftover, fresh.attempts, fresh.committed, fresh.parsed⟩
    cases found
    obtain ⟨same, promising⟩ := ReadCall.resets_complete answered
    exact same.trans (fresh.reader _ busy promising)
  | readerChunk runs busy arrived nonempty parsed =>
    -- the octets were asked for behind the last reset, and so is the tree that they leave
    have current := fresh.reader _ busy (by simp [ReadCall.promising, arrived, nonempty])
    refine ⟨by simp [leave, consumed, delivered, System.note], fun issued left => ?_, fresh.attempts,
      fun issued resets member => ?_, ?_⟩
    · simp only [leave] at left
      split at left
      · cases left
      · cases left
        exact current
    · rcases List.mem_append.mp member with earlier | last
      · exact fresh.committed issued resets earlier
      · cases List.mem_singleton.mp last
        exact current
    · simpa [leave, consumed, delivered, System.note] using fresh.parsed
  | controlExit | controlWait | controlBackoff | controlDisable => exact fresh.still rfl rfl rfl rfl rfl
  | @controlReconnect token runs unstopped ready =>
    have joined := fresh.joins { owner := .control, token := token } rfl
    have begun : Fresh { s.setState .reconnecting with
        attempts := s.attempts ++ [{ owner := .control, token := token }], control := .connecting } :=
      joined.still rfl rfl rfl rfl rfl
    exact begun.beginResolve (unpromising (List.mem_append_right _ List.mem_cons_self)) _
  | resolve found here => exact fresh.beginResolve (unpromising (List.mem_append_right _ List.mem_cons_self)) _
  | connectNext left found unfinished before =>
    have dialled : Fresh { s.closeSocket with socketOpen := true, socket := s.closeSocket.socket + 1 } :=
      fresh.closeSocket.still rfl rfl rfl rfl rfl
    exact dialled.setStage _ _
  | closeSocket => exact fresh.closeSocket
  | alloc => exact fresh.still rfl rfl rfl rfl rfl
  | push found unfinished before pushed => exact setStage (by exact fresh.still rfl rfl rfl rfl rfl) _ _
  | issueWrite => exact (fresh.note rfl).setStage _ _
  | wrote found here done applied => exact setStage (by exact fresh.still rfl rfl rfl rfl rfl) _ _
  | issueRead found here => exact setStage (by exact fresh.still rfl rfl rfl rfl rfl) _ _
  | @read i a slot call memory octets outcome x found here arrived parsed =>
    -- the parse of a handshake is noted with the tree that it finds
    have current := fresh.staleFor (List.mem_of_getElem? found)
    have handled : Fresh ((s.note (.parsed (s.staleFor a))).consumed x) := by
      refine ⟨fresh.reader, fresh.leftover, fresh.attempts, ?_, fun stale member => ?_⟩
      · simpa [consumed, delivered, System.note] using fresh.committed
      · rcases List.mem_append.mp member with earlier | last
        · exact fresh.parsed stale earlier
        · cases List.mem_singleton.mp last
          exact current
    exact handled.setStage _ _
  | clear found ends clears => exact fresh.clearAll clears
  | timeout found => exact fresh.setAttempt _ fresh.attempts
  | reconnectFailed found unfinished owner settled runs => exact (fresh.setStage _ _).still rfl rfl rfl rfl rfl
  | opens found here complete owner =>
    exact (fresh.setOpen (unpromising (List.mem_append_right _ List.mem_cons_self))).setStage _ _
  | opensAgain found here complete owner runs =>
    have opened := fresh.setOpen (unpromising (List.mem_append_right _ List.mem_cons_self))
    exact (opened.setStage _ _).still rfl rfl rfl rfl rfl

end Fresh

variable [FloatChars] [Inhabited ρ] {fuel : Nat} {cfg : Config} {s : System ρ}

/-- No octets cross connections, where `do_connect` resets the parser only while no `do_read` may
still bring octets. -/
theorem octets_stay (reached : Reached fuel cfg s) (calm : ∀ note ∈ s.notes, note.calm = true) :
    (∀ issued resets, .committed issued resets ∈ s.notes → issued = resets) ∧
      ∀ stale, .parsed stale ∈ s.notes → stale = false := by
  have kept (s next : System ρ) (fresh : s.Fresh) (move : Move fuel s next) (_ : ∀ entry ∈ next.log, True)
      (calm : ∀ note ∈ next.notes, note.calm = true) : next.Fresh := fresh.step move calm
  have start : (System.start (ρ := ρ) cfg).Fresh := by constructor <;> simp [System.start]
  have fresh := reached.moves.invariant kept start ⟨fun _ _ => trivial, calm⟩
  exact ⟨fresh.committed, fresh.parsed⟩

omit [FloatChars] [Inhabited ρ] in
/-- A reply is read, the connection is lost and reconnected. -/
theorem octets_stay_reconnected : letI := FloatChars.none
    ∃ s : System Unit, (Reached 8 {} s ∧ .committed 2 2 ∈ s.notes ∧ .reset false ∈ s.notes ∧
      ∀ note ∈ s.notes, note.calm = true) ∧
      (∀ issued resets, .committed issued resets ∈ s.notes → issued = resets) ∧
      ∀ stale, .parsed stale ∈ s.notes → stale = false := by
  let := FloatChars.none
  have run : ∃ s : System Unit, Reached 8 {} s ∧ .committed 2 2 ∈ s.notes ∧ .reset false ∈ s.notes ∧
      ∀ note ∈ s.notes, note.calm = true :=
    Reached.of_run 8 {}
      (opening ++ [.controlRun .wakeup 0, .readerRun .wakeup, .readerComplete (.ok (text "+")), .readerResume,
        .readerComplete (.error (.other [])), .readerResume, .controlRun .wakeup 0] ++ dial 1)
      (by decide +kernel)
  obtain ⟨s, reached, committed, reset, calm⟩ := run
  exact ⟨s, ⟨reached, committed, reset, calm⟩, octets_stay reached calm⟩

omit [FloatChars] [Inhabited ρ] in
/-- A reply has been received when a request times out: the control loop goes on to reconnect and to
reset the parser before `do_read` is resumed, and what `do_read` leaves is there when the handshake parses. -/
theorem octets_cross : letI := FloatChars.none
    ∃ s : System Unit, Reached 8 {} s ∧ .committed 2 3 ∈ s.notes ∧ .parsed true ∈ s.notes := by
  let := FloatChars.none
  exact Reached.of_run 8 {}
    (opening ++ [.controlRun .wakeup 0, .readerRun .wakeup,
      .enqueue (Request.ofCommands [.variadic (text "PING") []]) fun _ _ => .ok (),
      .readerComplete (.ok (text "*2\r\n")), .tick 5000, .controlRun .wakeup 0, .readerResume] ++ (dial 1).take 8)
    (by decide +kernel)

end System

end Rediscoro.Connection

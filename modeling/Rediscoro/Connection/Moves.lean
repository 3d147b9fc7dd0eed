import Rediscoro.Connection.Coroutines

/-! A step taken apart into moves.

A move is what a coroutine does at one place of the source, with what is known
there. Every step is a sequence of moves, so an invariant needs to be checked
against the moves only, and the control flow is followed once.
-/

set_option autoImplicit false

namespace Rediscoro.Connection

open Rediscoro.Semantics Rediscoro.Resp3 Rediscoro.Pipeline

/-- The sink of the handshake, while there is one. -/
def Stage.slot : Stage → Option SinkRef
  | .handshaking slot | .writing slot _ | .reading slot _ | .joining slot _ | .waitingSlot slot => some slot
  | _ => none

variable {ρ : Type}

/-- The stage of an attempt that is about to end the handshake with an error: no write of it is under way. -/
inductive Stage.Ends (slot : SinkRef) : Stage → Prop where
  | handshaking : Ends slot (.handshaking slot)
  | writing {call : WriteCall} {err : IoError} (failed : call.op = .ready (.error err)) : Ends slot (.writing slot call)
  | reading {call : ReadCall} : Ends slot (.reading slot call)
  | joining {result : Except HandshakeError Unit} : Ends slot (.joining slot result)
  | waitingSlot : Ends slot (.waitingSlot slot)

/-- A `do_connect` may return: its request is no longer in the pipeline. -/
def System.Settled (s : System ρ) (stage : Stage) : Prop :=
  ∀ slot, stage.slot = some slot → s.pipeline.pendingCount = 0 ∨ s.sinks.isComplete slot = true

/-- A change of stage that touches nothing else. -/
inductive Hop (s : System ρ) (a : Attempt) : Stage → Prop where
  | resolved {result : Except IoError Nat} (here : a.stage = .resolving .pending) : Hop s a (.resolving (.ready result))
  | connected {left : Nat} {result : Except IoError Unit} (here : a.stage = .connecting left .pending) :
      Hop s a (.connecting left (.ready result))
  | wrote {slot : SinkRef} {call next : WriteCall} {result : Except IoError Nat} (here : a.stage = .writing slot call)
      (answered : call.complete result = some next) : Hop s a (.writing slot next)
  | read {slot : SinkRef} {call next : ReadCall} {result : Except IoError Bytes} (here : a.stage = .reading slot call)
      (answered : call.complete result = some next) : Hop s a (.reading slot next)
  | ended {slot : SinkRef} {err : HandshakeError} (ends : a.stage.Ends slot) (early : a.late = false) :
      Hop s a (.joining slot (.error err))
  | joined {slot : SinkRef} (here : a.stage = .handshaking slot) (unstopped : s.stopRequested a.token = false)
      (complete : s.sinks.isComplete slot = true) : Hop s a (.joining slot (.ok ()))
  | passed {slot : SinkRef} (here : a.stage = .handshaking slot) (unstopped : s.stopRequested a.token = false)
      (complete : s.sinks.isComplete slot = true) : Hop s a (.waitingSlot slot)
  | returned {slot : SinkRef} (here : a.stage = .joining slot (.ok ())) (complete : s.sinks.isComplete slot = true) :
      Hop s a (.waitingSlot slot)
  | finished {err : ErrorInfo} (unfinished : a.unfinished = true) (owner : a.owner = .caller)
      (settled : s.Settled a.stage) : Hop s a (.finished (.error err))
  | dismissed (spent : a.unfinished = false) : Hop s a .gone

namespace System

variable [FloatChars] [Inhabited ρ]

/-- What a coroutine does at one place. -/
inductive Move (fuel : Nat) : System ρ → System ρ → Prop where
  -- the clock and the wake-ups of the loops
  | quiet {s : System ρ} (now write read control : Nat) :
      Move fuel s { s with now := now, writeWakeup := write, readWakeup := read, controlWakeup := control }
  -- handle_error
  | fail {s cleared : System ρ} {err : ErrorInfo} (opened : s.state = .opened)
      (clears : ((s.setState .failed).emit .disconnected .runtimeIo .opened .failed (some err)).clearAll fuel err =
        some cleared) : Move fuel s cleared.closeSocket.wakeLoops
  -- close()
  | closeIdle {s : System ρ} (closed : s.state = .closed) : Move fuel s (s.record (.closeReturned .closed))
  | close {s cleared : System ρ} (unclosed : s.state ≠ .closed)
      (clears : ((s.record (.closeEntered s.actorRunning s.actorDone)).requestStop.setClosing).clearAll fuel
        (.client .connectionClosed) = some cleared) : Move fuel s cleared.closeSocket.wakeLoops.awaitActor
  | closeResume {s next : System ρ} (resumed : s.closeResume = some next) : Move fuel s next
  -- connect()
  | reopen {s : System ρ} (closed : s.state = .closed) : Move fuel s s.reopen.beginConnect
  | begin {s : System ρ} (unopened : s.state ≠ .opened) (idle : s.state ≠ .connecting) (unclosed : s.state ≠ .closed)
      (unstopped : s.stopRequested s.source = false) : Move fuel s s.beginConnect
  | report {s : System ρ} {i : Nat} {a : Attempt} {err : ErrorInfo} (found : s.attempts[i]? = some a)
      (here : a.stage = .finished (.error err)) :
      Move fuel s ((s.setStage i .unwinding).emit .disconnected .connect .connecting .closing (some err))
  | hop {s : System ρ} {i : Nat} {a : Attempt} {stage : Stage} (found : s.attempts[i]? = some a)
      (hops : Hop s a stage) : Move fuel s (s.setStage i stage)
  -- the actor
  | actorStart {s : System ρ} {token : Token} (spawned : s.actor = .spawned token) :
      Move fuel s { s with actor := .running token, writer := .running, reader := .running, control := .running }
  | actorEnd {s closed : System ρ} {token : Token} (runs : s.actor = .running token) (writer : s.writer = .exited)
      (reader : s.reader = .exited) (control : s.control = .exited)
      (closes : { s with actor := .ended }.transitionToClosed fuel = some closed) : Move fuel s closed
  | actorGone {s : System ρ} (ended : s.actor = .ended) (closed : s.state = .closed) :
      Move fuel s { s with actor := .none, actorRunning := false }.actorNotify
  | actorCloses {s closed : System ρ} (ended : s.actor = .ended) (unclosed : s.state ≠ .closed)
      (closes : { s with actor := .none, actorRunning := false }.transitionToClosed fuel = some closed) :
      Move fuel s closed.actorNotify
  -- enqueue
  | enqueue {s next : System ρ} {req : Request} {slotFromMessage : Nat → Message → Except ErrorInfo ρ}
      (queued : s.enqueue fuel req slotFromMessage = some next) : Move fuel s next
  -- write_loop
  | writerExit {s : System ρ} {token : Token} (runs : s.actor = .running token)
      (ends : s.stopRequested token = true ∨ s.state = .closed) (rests : s.writer.resting = true) :
      Move fuel s { s with writer := .exited }
  | writerWait {s : System ρ} {token : Token} (runs : s.actor = .running token) (rests : s.writer.resting = true) :
      Move fuel s { s with writer := .waiting }
  | writerIssue {s : System ρ} {token : Token} {call : WriteCall} (runs : s.actor = .running token)
      (opened : s.state = .opened) (rests : s.writer.resting = true) (next : s.nextWrite = some call) :
      Move fuel s { s.note (.written call.sink s.socket) with writer := .busy call }
  | writerComplete {s : System ρ} {call next : WriteCall} {result : Except IoError Nat} (busy : s.writer = .busy call)
      (answered : call.complete result = some next) : Move fuel s { s with writer := .busy next }
  | writerDone {s : System ρ} {token : Token} {call : WriteCall} {n : Nat} {pipeline : Pipeline}
      (runs : s.actor = .running token) (busy : s.writer = .busy call) (done : call.op = .ready (.ok n))
      (applied : s.pipeline.onWriteDone n = some pipeline) :
      Move fuel s { s with writer := .running, pipeline := pipeline }
  | writerDrop {s : System ρ} {token : Token} {call : WriteCall} {err : IoError} (runs : s.actor = .running token)
      (busy : s.writer = .busy call) (failed : call.op = .ready (.error err)) :
      Move fuel s { s with writer := .running }
  -- read_loop
  | readerExit {s : System ρ} {token : Token} (runs : s.actor = .running token)
      (ends : s.stopRequested token = true ∨ s.state = .closed) (rests : s.reader.resting = true) :
      Move fuel s { s with reader := .exited }
  | readerWait {s : System ρ} {token : Token} (runs : s.actor = .running token) (rests : s.reader.resting = true) :
      Move fuel s { s with reader := .waiting }
  | readerIssue {s : System ρ} {token : Token} (runs : s.actor = .running token) (opened : s.state = .opened)
      (rests : s.reader.resting = true) :
      Move fuel s { s with parser := s.nextRead.1, reader := .busy s.nextRead.2 }
  | readerComplete {s : System ρ} {call next : ReadCall} {result : Except IoError Bytes} (busy : s.reader = .busy call)
      (answered : call.complete result = some next) : Move fuel s { s with reader := .busy next }
  | readerDrop {s : System ρ} {token : Token} {call : ReadCall} (runs : s.actor = .running token)
      (busy : s.reader = .busy call) : Move fuel s { s with reader := .running }
  | readerChunk {s : System ρ} {token : Token} {call : ReadCall} {memory : Memory} {octets : Bytes}
      {outcome : Outcome} {x : Exchange (Sink ρ)} (runs : s.actor = .running token) (busy : s.reader = .busy call)
      (arrived : call.op = .ready (.ok octets)) (nonempty : octets ≠ [])
      (parsed : s.consume fuel memory octets (fun _ => false) = (outcome, x)) :
      Move fuel s
        ((({ s with reader := .running }.note (.committed call.resets s.resets)).consumed x).leave call.resets)
  -- control_loop
  | controlExit {s : System ρ} {token : Token} (runs : s.actor = .running token)
      (ends : s.stopRequested token = true ∨ s.state = .closed ∨ s.state = .closing) (free : s.control ≠ .connecting) :
      Move fuel s { s with control := .exited }
  | controlWait {s : System ρ} {token : Token} {control : Control} (runs : s.actor = .running token)
      (idle : s.control.idle = true) (next : control.idle = true) : Move fuel s { s with control := control }
  | controlBackoff {s : System ρ} {token : Token} (deadline : Nat) (runs : s.actor = .running token)
      (failed : s.state = .failed) (idle : s.control.idle = true) : Move fuel s { s with control := .backoff deadline }
  | controlDisable {s : System ρ} {token : Token} (runs : s.actor = .running token) (failed : s.state = .failed)
      (idle : s.control.idle = true) : Move fuel s { s.setClosing.requestStop with control := .exited }
  | controlReconnect {s : System ρ} {token : Token} (runs : s.actor = .running token)
      (unstopped : s.stopRequested token = false)
      (ready : (s.control.idle = true ∧ s.state = .failed) ∨ ∃ deadline, s.control = .backoff deadline ∧
        s.state ≠ .closing) :
      Move fuel s (s.beginReconnect token)
  -- do_connect
  | resolve {s : System ρ} {i : Nat} {a : Attempt} (found : s.attempts[i]? = some a) (here : a.stage = .spawned) :
      Move fuel s (s.beginResolve i)
  | connectNext {s : System ρ} {i : Nat} {a : Attempt} (left : Nat) (found : s.attempts[i]? = some a)
      (unfinished : a.unfinished = true) (before : a.stage.slot = none) : Move fuel s (s.connectNext i left)
  | closeSocket {s : System ρ} {i : Nat} {a : Attempt} (found : s.attempts[i]? = some a)
      (unfinished : a.unfinished = true) (before : a.stage.slot = none) : Move fuel s s.closeSocket
  | alloc {s : System ρ} (req : Request) :
      Move fuel s (s.queue s.pipeline (s.sinks.alloc (Sink.forRequest handshakeSlot req)).2)
  | push {s : System ρ} {i : Nat} {a : Attempt} {req : Request} {pipeline : Pipeline} (found : s.attempts[i]? = some a)
      (unfinished : a.unfinished = true) (before : a.stage.slot = none)
      (pushed : s.pipeline.push req (s.sinks.alloc (Sink.forRequest handshakeSlot req)).1 ⊤ = some pipeline) :
      Move fuel s
        ((s.queue pipeline (s.sinks.alloc (Sink.forRequest handshakeSlot req)).2).setStage i
          (.handshaking (s.sinks.alloc (Sink.forRequest (handshakeSlot (ρ := ρ)) req)).1))
  | issueWrite {s : System ρ} {i : Nat} {a : Attempt} {slot : SinkRef} {call : WriteCall}
      (found : s.attempts[i]? = some a) (here : a.stage = .handshaking slot) (next : s.nextWrite = some call) :
      Move fuel s ((s.note (.written call.sink s.socket)).setStage i (.writing slot call))
  | wrote {s : System ρ} {i : Nat} {a : Attempt} {slot : SinkRef} {call : WriteCall} {n : Nat} {pipeline : Pipeline}
      (found : s.attempts[i]? = some a) (here : a.stage = .writing slot call) (done : call.op = .ready (.ok n))
      (applied : s.pipeline.onWriteDone n = some pipeline) :
      Move fuel s ({ s with pipeline := pipeline }.setStage i (.handshaking slot))
  | issueRead {s : System ρ} {i : Nat} {a : Attempt} {slot : SinkRef} (found : s.attempts[i]? = some a)
      (here : a.stage = .handshaking slot) :
      Move fuel s ({ s with parser := s.nextRead.1 }.setStage i (.reading slot s.nextRead.2))
  | read {s : System ρ} {i : Nat} {a : Attempt} {slot : SinkRef} {call : ReadCall} {memory : Memory} {octets : Bytes}
      {outcome : Outcome} {x : Exchange (Sink ρ)} (found : s.attempts[i]? = some a)
      (here : a.stage = .reading slot call) (arrived : call.op = .ready (.ok octets))
      (parsed : s.consume fuel memory octets (fun sinks => sinks.isComplete slot) = (outcome, x)) :
      Move fuel s (((s.note (.parsed (s.staleFor a))).consumed x).setStage i (.handshaking slot))
  | clear {s cleared : System ρ} {i : Nat} {a : Attempt} {slot : SinkRef} {err : ErrorInfo}
      (found : s.attempts[i]? = some a) (ends : a.stage.Ends slot) (clears : s.clearAll fuel err = some cleared) :
      Move fuel s cleared
  | timeout {s : System ρ} {i : Nat} {a : Attempt} (found : s.attempts[i]? = some a) :
      Move fuel s (s.setAttempt i fun a => { a.abort with timedOut := true })
  | reconnectFailed {s : System ρ} {i : Nat} {a : Attempt} {token : Token} (found : s.attempts[i]? = some a)
      (unfinished : a.unfinished = true) (owner : a.owner = .control) (settled : s.Settled a.stage)
      (runs : s.actor = .running token) :
      Move fuel s (s.setStage i .gone).failReconnect
  | opens {s : System ρ} {i : Nat} {a : Attempt} {slot : SinkRef} (found : s.attempts[i]? = some a)
      (here : a.stage = .waitingSlot slot) (complete : s.sinks.isComplete slot = true) (owner : a.owner = .caller) :
      Move fuel s (s.setOpen.setStage i (.finished (.ok ())))
  | opensAgain {s : System ρ} {i : Nat} {a : Attempt} {slot : SinkRef} {token : Token} (found : s.attempts[i]? = some a)
      (here : a.stage = .waitingSlot slot) (complete : s.sinks.isComplete slot = true) (owner : a.owner = .control)
      (runs : s.actor = .running token) :
      Move fuel s (s.setOpen.setStage i .gone).endReconnect

abbrev Moves (fuel : Nat) : System ρ → System ρ → Prop := Relation.ReflTransGen (Move fuel)

/-! What the helpers leave alone. -/

section Frames

omit [FloatChars] [Inhabited ρ]

variable {fuel : Nat} {s next : System ρ} {err : ErrorInfo}

theorem clearAll_eq (cleared : s.clearAll fuel err = some next) :
    ∃ pipeline sinks, s.pipeline.clearAll fuel err s.sinks = some (pipeline, sinks) ∧
      next = (s.note (.cleared s.writeCompleted)).delivered pipeline sinks
        (s.pipeline.pendingWrite.map PendingItem.sink ++ s.pipeline.awaitingRead.map AwaitingItem.sink) := by
  unfold clearAll at cleared
  split at cleared
  · cases cleared
  · rename_i pipeline sinks result
    exact ⟨pipeline, sinks, result, (Option.some.inj cleared).symm⟩

theorem clearAll_pipeline (cleared : s.clearAll fuel err = some next) : next.pipeline.pendingCount = 0 := by
  obtain ⟨pipeline, sinks, result, rfl⟩ := clearAll_eq cleared
  unfold Pipeline.clearAll at result
  split at result
  · cases result
  · split at result
    · cases result
    · cases result
      rfl

/-- What `enqueue` comes to: the request is rejected and its sink failed, or it is queued. -/
inductive Enqueued (fuel : Nat) (s : System ρ) (req : Request) (slotFromMessage : Nat → Message → Except ErrorInfo ρ) :
    System ρ → Prop where
  | rejected {errc : ClientErrc} {finish : TraceFinish} {sinks : Sinks (Sink ρ) Message ErrorInfo}
      (refused : refusal s.state = some errc ∨ refusal s.state = none ∧ errc = .queueFull)
      (same : finish =
        { info := s.traceInfo req, okCount := 0, errorCount := req.replyCount
          primaryError := some (.client errc), primaryErrorDetail := [] })
      (failed : (s.announce req slotFromMessage).sinks.failAll fuel (.client errc) s.sinks.cells.length = some sinks) :
      Enqueued fuel s req slotFromMessage (((s.announce req slotFromMessage).finishTrace finish).queue s.pipeline sinks)
  | queued {pipeline : Pipeline} (opened : s.state = .opened)
      (pushed : s.pipeline.push req s.sinks.cells.length s.deadline = some pipeline) :
      Enqueued fuel s req slotFromMessage
        { ((s.announce req slotFromMessage).note (.accepted s.sinks.cells.length s.socket)).queue pipeline
            ((s.announce req slotFromMessage).setTraceContext s.sinks.cells.length (s.traceInfo req)) with
          writeWakeup := s.writeWakeup + 1, controlWakeup := s.controlWakeup + 1 }

theorem enqueue_cases {req : Request} {slotFromMessage : Nat → Message → Except ErrorInfo ρ}
    (enqueued : s.enqueue fuel req slotFromMessage = some next) : Enqueued fuel s req slotFromMessage next := by
  have expected : ((s.announce req slotFromMessage).sinks.cells[s.sinks.cells.length]?).map expectedReplies =
      some req.replyCount := by
    simp [announce, Sinks.alloc, Sink.forRequest, PendingResponse.forRequest, expectedReplies]
  have rejects {errc : ClientErrc} (refused : refusal s.state = some errc ∨ refusal s.state = none ∧ errc = .queueFull)
      (rejected : (s.announce req slotFromMessage).reject fuel s.sinks.cells.length (s.traceInfo req) (.client errc) =
        some next) : Enqueued fuel s req slotFromMessage next := by
    obtain ⟨sinks, failed, rfl⟩ := Option.map_eq_some_iff.mp rejected
    exact .rejected refused (by rw [expected]; rfl) failed
  unfold enqueue accept at enqueued
  split at enqueued
  · rename_i errc refused
    exact rejects (.inl refused) enqueued
  · rename_i accepts
    split at enqueued
    · exact rejects (.inr ⟨accepts, rfl⟩) enqueued
    · rename_i pipeline pushed
      cases enqueued
      have opened : s.state = .opened := by
        have accepts : refusal s.state = none := accepts
        cases state : s.state <;> simp_all [refusal]
      exact .queued opened pushed

theorem actor_closeSocket (s : System ρ) : s.closeSocket.actor = s.actor := by unfold closeSocket; split <;> rfl

theorem control_closeSocket (s : System ρ) : s.closeSocket.control = s.control := by unfold closeSocket; split <;> rfl

theorem state_closeSocket (s : System ρ) : s.closeSocket.state = s.state := by unfold closeSocket; split <;> rfl

theorem stopped_closeSocket (s : System ρ) : s.closeSocket.stopped = s.stopped := by unfold closeSocket; split <;> rfl

theorem Loop.map_rests {κ : Type} {loop : Loop κ} {change : κ → κ} (rests : loop.resting = true) :
    loop.map change = loop := by
  cases loop with
  | busy call => cases rests
  | running => rfl
  | waiting => rfl
  | exited => rfl

theorem writer_closeSocket (rests : s.writer.resting = true) : s.closeSocket.writer = s.writer := by
  unfold closeSocket
  split
  · exact Loop.map_rests rests
  · rfl

theorem reader_closeSocket (rests : s.reader.resting = true) : s.closeSocket.reader = s.reader := by
  unfold closeSocket
  split
  · exact Loop.map_rests rests
  · rfl

end Frames

/-! Every step is a sequence of moves. -/

section Following

variable {fuel : Nat} {s next : System ρ} {token : Token}

/-- What `handle_error` does, and what it leaves as it is for the coroutine that goes on. -/
structure Handled (fuel : Nat) (s next : System ρ) : Prop where
  moves : Moves fuel s next
  actor : next.actor = s.actor
  control : next.control = s.control
  stopped : next.stopped = s.stopped
  writer : s.writer.resting = true → next.writer = s.writer
  reader : s.reader.resting = true → next.reader = s.reader
  failed : s.state = .opened → next.state = .failed

theorem handleError_handled {err : ErrorInfo} (handled : s.handleError fuel err = some next) : Handled fuel s next := by
  have nothing (unopened : s.state ≠ .opened) : Handled fuel s s :=
    ⟨.refl, rfl, rfl, rfl, fun _ => rfl, fun _ => rfl, fun opened => absurd opened unopened⟩
  have notified (unopened : s.state ≠ .opened) : Handled fuel s { s with controlWakeup := s.controlWakeup + 1 } :=
    ⟨.single (.quiet _ _ _ _), rfl, rfl, rfl, fun _ => rfl, fun _ => rfl, fun opened => absurd opened unopened⟩
  unfold handleError at handled
  split at handled
  case h_7 opened =>
    obtain ⟨cleared, clears, rfl⟩ := Option.map_eq_some_iff.mp handled
    have move : Move fuel s cleared.closeSocket.wakeLoops := .fail opened clears
    obtain ⟨pipeline, sinks, -, rfl⟩ := clearAll_eq clears
    exact {
      moves := .single move
      actor := actor_closeSocket _
      control := control_closeSocket _
      stopped := stopped_closeSocket _
      writer := fun rests => writer_closeSocket rests
      reader := fun rests => reader_closeSocket rests
      failed := fun _ => state_closeSocket _ }
  case h_5 state | h_6 state =>
    cases handled
    exact notified (by simp [state])
  all_goals
    rename_i state
    cases handled
    exact nothing (by simp [state])

theorem writeTop_moves (runs : s.actor = .running token) (rests : s.writer.resting = true) :
    Moves fuel s (s.writeTop token) := by
  unfold writeTop
  split
  · rename_i ends
    exact .single (.writerExit runs (by simpa using ends) rests)
  · split
    · rename_i opened
      split
      · exact .single (.writerWait runs rests)
      · rename_i call next
        exact .single (.writerIssue runs opened rests next)
    · exact .single (.writerWait runs rests)

theorem readTop_moves (runs : s.actor = .running token) (rests : s.reader.resting = true) :
    Moves fuel s (s.readTop token) := by
  unfold readTop
  split
  · rename_i ends
    exact .single (.readerExit runs (by simpa using ends) rests)
  · split
    · rename_i opened
      exact .single (.readerIssue runs opened rests)
    · exact .single (.readerWait runs rests)

theorem writerResume_moves (runs : s.actor = .running token) (resumed : s.writerResume fuel token = some next) :
    Moves fuel s next := by
  unfold writerResume at resumed
  split at resumed
  · rename_i sink size n busy
    split at resumed
    · cases resumed
    · rename_i pipeline applied
      cases resumed
      exact .head (.writerDone runs busy rfl applied) (.head (.quiet _ _ _ _) (writeTop_moves runs (by simp)))
  · rename_i sink size err busy
    have dropped : Move fuel s { s with writer := .running } := .writerDrop runs busy rfl
    dsimp only at resumed
    split at resumed
    · cases resumed
      exact .head dropped (writeTop_moves runs (by simp))
    · obtain ⟨middle, handled, rfl⟩ := Option.map_eq_some_iff.mp resumed
      have after := handleError_handled handled
      have resting : middle.writer = .running := after.writer (by simp)
      exact .head dropped (after.moves.trans (writeTop_moves (after.actor.trans runs) (by simp [resting])))
  · cases resumed

theorem writerRun_moves {cause : Cause} (runs : s.actor = .running token)
    (woken : s.writerRun token cause = some next) :
    Moves fuel s next := by
  unfold writerRun at woken
  split at woken
  · rename_i running
    cases woken
    exact writeTop_moves runs (by simp [running])
  · rename_i waiting
    split at woken
    · cases woken
      exact .head (.quiet _ _ _ _) (writeTop_moves runs (by simp [waiting]))
    · cases woken
  · rename_i waiting
    split at woken
    · cases woken
      exact writeTop_moves runs (by simp [waiting])
    · cases woken
  · cases woken

theorem readChunk_moves {call : ReadCall} {memory : Memory} {octets : Bytes} (runs : s.actor = .running token)
    (busy : s.reader = .busy call) (arrived : call.op = .ready (.ok octets)) (nonempty : octets ≠ [])
    (read : s.readChunk fuel memory octets call.resets = some next) :
    Moves fuel s next ∧ next.actor = .running token ∧ next.reader = .running := by
  cases parsed : s.consume fuel memory octets (fun _ => false) with
  | mk outcome x =>
    have move : Move fuel s _ := .readerChunk runs busy arrived nonempty parsed
    simp only [readChunk, parsed] at read
    cases outcome with
    | faulty => cases read
    | starved | complete =>
      cases read
      exact ⟨.single move, runs, rfl⟩
    | invalid errc =>
      have after := handleError_handled read
      exact ⟨.head move after.moves, after.actor.trans runs, after.reader (by simp [consumed, leave, delivered, note])⟩
    | unsolicited =>
      have after := handleError_handled read
      exact ⟨.head move after.moves, after.actor.trans runs, after.reader (by simp [consumed, leave, delivered, note])⟩

theorem readerResume_moves {memory : Memory} (runs : s.actor = .running token)
    (resumed : s.readerResume fuel token memory = some next) :
    Moves fuel s next := by
  unfold readerResume at resumed
  split at resumed
  · rename_i room issued octets busy
    obtain ⟨middle, read, rfl⟩ := Option.map_eq_some_iff.mp resumed
    split at read
    · have after := handleError_handled read
      have resting : middle.reader = .running := after.reader (by simp)
      exact .head (.readerDrop runs busy)
        (after.moves.trans (readTop_moves (after.actor.trans runs) (by simp [resting])))
    · rename_i nonempty
      obtain ⟨moves, still, resting⟩ := readChunk_moves runs busy rfl nonempty read
      exact moves.trans (readTop_moves still (by simp [resting]))
  · rename_i room issued err busy
    have dropped : Move fuel s { s with reader := .running } := .readerDrop runs busy
    dsimp only at resumed
    split at resumed
    · cases resumed
      exact .head dropped (readTop_moves runs (by simp))
    · obtain ⟨middle, handled, rfl⟩ := Option.map_eq_some_iff.mp resumed
      have after := handleError_handled handled
      have resting : middle.reader = .running := after.reader (by simp)
      exact .head dropped (after.moves.trans (readTop_moves (after.actor.trans runs) (by simp [resting])))
  · cases resumed

theorem readerRun_moves {cause : Cause} (runs : s.actor = .running token)
    (woken : s.readerRun token cause = some next) :
    Moves fuel s next := by
  unfold readerRun at woken
  split at woken
  · rename_i running
    cases woken
    exact readTop_moves runs (by simp [running])
  · rename_i waiting
    split at woken
    · cases woken
      exact .head (.quiet _ _ _ _) (readTop_moves runs (by simp [waiting]))
    · cases woken
  · rename_i waiting
    split at woken
    · cases woken
      exact readTop_moves runs (by simp [waiting])
    · cases woken
  · cases woken

/-! The control loop. -/

omit [FloatChars] [Inhabited ρ] in
theorem Control.idle_free {control : Control} (idle : control.idle = true) : control ≠ .connecting := by
  rintro rfl
  cases idle

theorem reconnectTop_moves {delay : Nat} (runs : s.actor = .running token) (unstopped : s.stopRequested token = false)
    (failed : s.state = .failed) (idle : s.control.idle = true) : Moves fuel s (s.reconnectTop token delay) := by
  unfold reconnectTop
  split
  · exact .single (.controlReconnect runs unstopped (.inl ⟨idle, failed⟩))
  · exact .single (.controlBackoff _ runs failed idle)

theorem controlFailed_moves {delay : Nat} (runs : s.actor = .running token) (unstopped : s.stopRequested token = false)
    (failed : s.state = .failed) (idle : s.control.idle = true) : Moves fuel s (s.controlFailed token delay) := by
  unfold controlFailed
  split
  · exact reconnectTop_moves runs unstopped failed idle
  · exact .head (.controlDisable runs failed idle) (.single (.quiet _ _ _ _))

theorem controlTop_moves {delay : Nat} (runs : s.actor = .running token) (idle : s.control.idle = true)
    (went : s.controlTop fuel token delay = some next) : Moves fuel s next := by
  have free := Control.idle_free idle
  unfold controlTop at went
  split at went
  · rename_i ends
    cases went
    have ends : s.stopRequested token = true ∨ s.state = .closed := by simpa using ends
    exact .single (.controlExit runs (ends.imp_right .inl) free)
  · rename_i goes
    have unstopped : s.stopRequested token = false := by simp_all
    split at went
    · rename_i failed
      cases went
      exact controlFailed_moves runs unstopped failed idle
    · split at went
      · rename_i overdue
        obtain ⟨middle, handled, rfl⟩ := Option.map_eq_some_iff.mp went
        have after := handleError_handled handled
        apply after.moves.trans
        apply controlFailed_moves (after.actor.trans runs)
        · simpa only [stopRequested, after.stopped] using unstopped
        · exact after.failed overdue.1
        · rw [after.control]
          exact idle
      · cases went
        unfold controlIdle
        split
        · exact .single (.controlWait runs idle rfl)
        · split
          · rename_i closing
            exact .single (.controlExit runs (.inr (.inr closing)) free)
          · exact .single (.controlWait runs idle rfl)

theorem controlWoken_moves (fuel : Nat) {expiry : Option TimePoint} {cause : Cause}
    (woken : s.controlWoken token expiry cause = some next) :
    Moves fuel s next ∧ next.actor = s.actor ∧ next.control = s.control := by
  cases cause with
  | wakeup =>
    simp only [controlWoken] at woken
    split at woken
    · cases woken
      exact ⟨.single (.quiet _ _ _ _), rfl, rfl⟩
    · cases woken
  | cancelled =>
    simp only [controlWoken] at woken
    split at woken
    · cases woken
      exact ⟨.refl, rfl, rfl⟩
    · cases woken
  | timer =>
    simp only [controlWoken] at woken
    split at woken
    · cases woken
    · split at woken
      · cases woken
        exact ⟨.refl, rfl, rfl⟩
      · cases woken

theorem backoffTop_moves {deadline : Nat} (runs : s.actor = .running token) (backoff : s.control = .backoff deadline) :
    Moves fuel s (s.backoffTop token deadline) := by
  unfold backoffTop
  split
  · rename_i ends
    have ends : s.stopRequested token = true ∨ s.state = .closing := by simpa using ends
    exact .single (.controlExit runs (ends.imp_right .inr) (by simp [backoff]))
  · rename_i goes
    obtain ⟨unstopped, unclosing⟩ : s.stopRequested token = false ∧ s.state ≠ .closing := by simpa using goes
    split
    · exact .single (.controlReconnect runs unstopped (.inr ⟨deadline, backoff, unclosing⟩))
    · have same : { s with control := .backoff deadline } = s := by rw [← backoff]
      rw [same]

theorem controlRun_moves {cause : Cause} {delay : Nat} (runs : s.actor = .running token)
    (ran : s.controlRun fuel token cause delay = some next) : Moves fuel s next := by
  unfold controlRun at ran
  split at ran
  · rename_i running
    exact controlTop_moves runs (by simp [running, Control.idle]) ran
  · rename_i waiting
    obtain ⟨middle, woken, went⟩ := Option.bind_eq_some_iff.mp ran
    obtain ⟨moves, actor, control⟩ := controlWoken_moves fuel woken
    exact moves.trans (controlTop_moves (actor.trans runs) (by simp [control, waiting, Control.idle]) went)
  · rename_i deadline timer
    obtain ⟨middle, woken, went⟩ := Option.bind_eq_some_iff.mp ran
    obtain ⟨moves, actor, control⟩ := controlWoken_moves fuel woken
    exact moves.trans (controlTop_moves (actor.trans runs) (by simp [control, timer, Control.idle]) went)
  · rename_i deadline backoff
    obtain ⟨middle, woken, rfl⟩ := Option.map_eq_some_iff.mp ran
    obtain ⟨moves, actor, control⟩ := controlWoken_moves fuel woken
    exact moves.trans (backoffTop_moves (actor.trans runs) (control.trans backoff))
  · cases ran
  · cases ran

/-! The attempts. -/

/-- The attempt as it is now, while its `do_connect` goes on with what it knew at its start. -/
structure Stands (s : System ρ) (i : Nat) (a now : Attempt) : Prop where
  found : s.attempts[i]? = some now
  owner : now.owner = a.owner
  token : now.token = a.token

omit [FloatChars] [Inhabited ρ] in
theorem Stands.setStage {i : Nat} {a now : Attempt} (stands : Stands s i a now) (stage : Stage) :
    Stands (s.setStage i stage) i a { now with stage := stage } :=
  ⟨by simp [System.setStage, System.setAttempt, stands.found], stands.owner, stands.token⟩

variable {i delay : Nat} {a now : Attempt} {slot : SinkRef} {err : ErrorInfo}

omit [FloatChars] [Inhabited ρ] in
theorem inActor_runs {body : Token → Option (System ρ)} (ran : s.inActor body = some next) :
    ∃ token, s.actor = .running token ∧ body token = some next := by
  unfold inActor at ran
  split at ran
  · rename_i token runs
    exact ⟨token, runs, ran⟩
  · cases ran

theorem fail_moves (stands : Stands s i a now) (unfinished : now.unfinished = true) (settled : s.Settled now.stage)
    (failed : s.fail i a delay err = some next) : Moves fuel s next := by
  unfold fail at failed
  split at failed
  · rename_i owner
    cases failed
    exact .single (.hop stands.found (.finished unfinished (stands.owner.trans owner) settled))
  · rename_i owner
    obtain ⟨token, runs, failed⟩ := inActor_runs failed
    cases failed
    have move : Move fuel s _ := .reconnectFailed stands.found unfinished (stands.owner.trans owner) settled runs
    unfold reconnectFailed
    split
    · rename_i stopped
      exact .head move (.single (.controlExit runs (.inl stopped) (by simp [failReconnect])))
    · rename_i unstopped
      exact .head move (reconnectTop_moves runs (Bool.eq_false_iff.mpr unstopped) rfl rfl)

theorem failHandshake_moves (stands : Stands s i a now) (unfinished : now.unfinished = true)
    (ends : now.stage.Ends slot) (failed : s.failHandshake fuel i a delay err = some next) : Moves fuel s next := by
  obtain ⟨cleared, clears, failed⟩ := Option.bind_eq_some_iff.mp failed
  have settled : cleared.Settled now.stage := fun _ _ => .inl (clearAll_pipeline clears)
  have move : Move fuel s cleared := .clear stands.found ends clears
  obtain ⟨pipeline, sinks, -, rfl⟩ := clearAll_eq clears
  exact .head move (fail_moves ⟨stands.found, stands.owner, stands.token⟩ unfinished settled failed)

theorem afterHandshake_moves {result : Except HandshakeError Unit} (stands : Stands s i a now)
    (unfinished : now.unfinished = true) (ends : now.stage.Ends slot)
    (hops : result = .ok () → s.sinks.isComplete slot = true → Hop s now (.waitingSlot slot))
    (went : s.afterHandshake fuel i a delay slot result = some next) : Moves fuel s next := by
  cases result with
  | error err => exact failHandshake_moves stands unfinished ends went
  | ok _ =>
    simp only [afterHandshake] at went
    split at went
    · rename_i complete
      cases went
      exact .single (.hop stands.found (hops rfl complete))
    · exact failHandshake_moves stands unfinished ends went

theorem endHandshake_moves {result : Except HandshakeError Unit} (stands : Stands s i a now) (early : now.late = false)
    (unfinished : now.unfinished = true) (ends : now.stage.Ends slot)
    (passed : result = .ok () → now.stage = .handshaking slot ∧ s.stopRequested now.token = false ∧
      s.sinks.isComplete slot = true)
    (went : s.endHandshake fuel i a delay slot result = some next) : Moves fuel s next := by
  unfold endHandshake at went
  split at went
  · cases went
    cases result with
    | error err => exact .single (.hop stands.found (.ended ends early))
    | ok _ =>
      obtain ⟨here, unstopped, complete⟩ := passed rfl
      exact .single (.hop stands.found (.joined here unstopped complete))
  · apply afterHandshake_moves stands unfinished ends _ went
    intro fine complete
    obtain ⟨here, unstopped, complete⟩ := passed fine
    exact .passed here unstopped complete

theorem handshakeRead_moves (stands : Stands s i a now) (here : now.stage = .handshaking slot)
    (went : s.handshakeRead fuel i a delay slot = some next) : Moves fuel s next := by
  have early : now.late = false := by simp [Attempt.late, here]
  have unfinished : now.unfinished = true := by simp [Attempt.unfinished, here]
  have ends : now.stage.Ends slot := by rw [here]; exact .handshaking
  unfold handshakeRead at went
  split at went
  · exact endHandshake_moves stands early unfinished ends (by simp) went
  · rename_i unstopped
    split at went
    · rename_i complete
      apply endHandshake_moves stands early unfinished ends _ went
      intro _
      rw [stands.token]
      exact ⟨here, by simpa using unstopped, complete⟩
    · cases went
      exact .single (.issueRead stands.found here)

theorem handshakeWrite_moves (stands : Stands s i a now) (here : now.stage = .handshaking slot)
    (went : s.handshakeWrite fuel i a delay slot = some next) : Moves fuel s next := by
  unfold handshakeWrite at went
  split at went
  · exact handshakeRead_moves stands here went
  · split at went
    · rename_i call issued
      cases went
      exact .single (.issueWrite stands.found here issued)
    · exact handshakeRead_moves stands here went

omit [FloatChars] [Inhabited ρ] in
theorem settled_of_slot {stage : Stage} (before : stage.slot = none) : s.Settled stage := by
  intro slot found
  rw [before] at found
  cases found

theorem beginHandshake_moves (stands : Stands s i a now) (unfinished : now.unfinished = true)
    (before : now.stage.slot = none) (went : s.beginHandshake fuel i a delay = some next) : Moves fuel s next := by
  unfold beginHandshake at went
  split at went
  · exact fail_moves stands unfinished (settled_of_slot before) went
  · dsimp only at went
    split at went
    · exact .head (.alloc _)
        (fail_moves ⟨stands.found, stands.owner, stands.token⟩ unfinished (settled_of_slot before) went)
    · rename_i pipeline pushed
      have later (sinks : Sinks (Sink ρ) Message ErrorInfo) : Stands (s.queue pipeline sinks) i a now :=
        ⟨stands.found, stands.owner, stands.token⟩
      exact .head (.push stands.found unfinished before pushed) (handshakeWrite_moves ((later _).setStage _) rfl went)

theorem handshakeChunk_moves {call : ReadCall} {memory : Memory} {octets : Bytes} (found : s.attempts[i]? = some a)
    (here : a.stage = .reading slot call) (arrived : call.op = .ready (.ok octets))
    (went : s.handshakeChunk fuel i a delay memory slot octets = some next) : Moves fuel s next := by
  cases parsed : s.consume fuel memory octets (fun sinks => sinks.isComplete slot) with
  | mk outcome x =>
    have move : Move fuel s _ := .read found here arrived parsed
    have later : Stands ((s.note (.parsed (s.staleFor a))).consumed x) i a a := ⟨found, rfl, rfl⟩
    have stands := later.setStage (.handshaking slot)
    simp only [handshakeChunk, parsed] at went
    cases outcome with
    | faulty => cases went
    | starved | complete => exact .head move (handshakeRead_moves stands rfl went)
    | invalid errc => exact .head move (endHandshake_moves stands rfl rfl .handshaking (by simp) went)
    | unsolicited => exact .head move (endHandshake_moves stands rfl rfl .handshaking (by simp) went)

theorem succeed_moves (found : s.attempts[i]? = some a) (here : a.stage = .waitingSlot slot)
    (complete : s.sinks.isComplete slot = true) (went : s.setOpen.succeed fuel i a delay = some next) :
    Moves fuel s next := by
  unfold succeed at went
  split at went
  · rename_i owner
    cases went
    exact .single (.opens found here complete owner)
  · rename_i owner
    obtain ⟨token, runs, went⟩ := inActor_runs went
    have running : s.actor = .running token := runs
    have woken :
        Moves fuel (s.setOpen.setStage i .gone).endReconnect (s.setOpen.setStage i .gone).endReconnect.wakeLoops :=
      .single (.quiet _ _ _ _)
    exact .head (.opensAgain found here complete owner running) (woken.trans (controlTop_moves running rfl went))

omit [FloatChars] [Inhabited ρ] in
theorem complete_of_result {results : List (Except ErrorInfo ρ)}
    (taken : ((s.sinks.cells[slot]?).bind fun sink => sink.response.result) = some results) :
    s.sinks.isComplete slot = true := by
  obtain ⟨sink, found, result⟩ := Option.bind_eq_some_iff.mp taken
  simp [Sinks.isComplete, found, ResponseSink.isComplete, result]

theorem concludeHandshake_moves (found : s.attempts[i]? = some a) (here : a.stage = .waitingSlot slot)
    (went : s.concludeHandshake fuel i a delay slot = some next) : Moves fuel s next := by
  have stands : Stands s i a a := ⟨found, rfl, rfl⟩
  have unfinished : a.unfinished = true := by simp [Attempt.unfinished, here]
  have ends : a.stage.Ends slot := by rw [here]; exact .waitingSlot
  cases taken : (s.sinks.cells[slot]?).bind fun sink => sink.response.result with
  | none =>
    simp only [concludeHandshake, taken] at went
    cases went
  | some results =>
    have complete := complete_of_result taken
    have settled : s.Settled a.stage := by
      intro other same
      rw [here] at same
      cases same
      exact .inr complete
    simp only [concludeHandshake, taken, Option.map_some] at went
    split at went
    · cases ‹_ = none›
    · exact succeed_moves found here complete went
    · split at went
      · exact fail_moves stands unfinished settled went
      · exact failHandshake_moves stands unfinished ends went

theorem connectFailed_moves {left : Nat} {io : IoError} (stands : Stands s i a now) (unfinished : now.unfinished = true)
    (before : now.stage.slot = none) (went : s.connectFailed i a delay left io = some next) : Moves fuel s next := by
  unfold connectFailed at went
  split at went
  · exact fail_moves stands unfinished (settled_of_slot before) went
  · cases went
    exact .single (.connectNext _ stands.found unfinished before)

omit [FloatChars] [Inhabited ρ] in
theorem attempts_closeSocket (found : s.attempts[i]? = some a) :
    s.closeSocket.attempts[i]? = some a ∨ s.closeSocket.attempts[i]? = some a.abort := by
  unfold closeSocket
  split
  · exact .inr (by simp [found])
  · exact .inl found

omit [FloatChars] [Inhabited ρ] in
/-- An attempt that connects still stands there behind a `close()` of its socket. -/
theorem Stands.closeSocket {left : Nat} {op : Op Unit} (found : s.attempts[i]? = some a)
    (here : a.stage = .connecting left op) :
    ∃ now, Stands s.closeSocket i a now ∧ now.unfinished = true ∧ now.stage.slot = none := by
  rcases attempts_closeSocket found with same | aborted
  · exact ⟨a, ⟨same, rfl, rfl⟩, by simp [Attempt.unfinished, here], by simp [here, Stage.slot]⟩
  · exact ⟨a.abort, ⟨aborted, rfl, rfl⟩, by simp [Attempt.unfinished, Attempt.abort, here],
      by simp [Attempt.abort, here, Stage.slot]⟩

theorem attemptResume_moves {oracle : Oracle} (resumed : s.attemptResume fuel i oracle = some next) :
    Moves fuel s next := by
  unfold attemptResume at resumed
  split at resumed
  · cases resumed
  · rename_i a found
    have stands : Stands s i a a := ⟨found, rfl, rfl⟩
    split at resumed
    · rename_i err here
      exact fail_moves stands (by simp [Attempt.unfinished, here])
        (settled_of_slot (by simp [here, Stage.slot])) resumed
    · rename_i here
      exact fail_moves stands (by simp [Attempt.unfinished, here])
        (settled_of_slot (by simp [here, Stage.slot])) resumed
    · rename_i left here
      have unfinished : a.unfinished = true := by simp [Attempt.unfinished, here]
      have before : a.stage.slot = none := by simp [here, Stage.slot]
      split at resumed
      · exact fail_moves stands unfinished (settled_of_slot before) resumed
      · cases resumed
        exact .single (.connectNext _ found unfinished before)
    · rename_i left err here
      exact connectFailed_moves stands (by simp [Attempt.unfinished, here]) (by simp [here, Stage.slot]) resumed
    · rename_i left value here
      have unfinished : a.unfinished = true := by simp [Attempt.unfinished, here]
      have before : a.stage.slot = none := by simp [here, Stage.slot]
      split at resumed
      · exact beginHandshake_moves stands unfinished before resumed
      · cases resumed
      · obtain ⟨now, later, still, outside⟩ := Stands.closeSocket found here
        exact .head (.closeSocket found unfinished before) (connectFailed_moves later still outside resumed)
    · rename_i slot sink size n here
      split at resumed
      · cases resumed
      · rename_i pipeline applied
        have later : Stands { s with pipeline := pipeline } i a a := ⟨found, rfl, rfl⟩
        exact .head (.wrote found here rfl applied) (handshakeWrite_moves (later.setStage _) rfl resumed)
    · rename_i slot sink size err here
      exact endHandshake_moves stands (by simp [Attempt.late, here]) (by simp [Attempt.unfinished, here])
        (by rw [here]; exact .writing rfl) (by simp) resumed
    · rename_i slot room issued err here
      exact endHandshake_moves stands (by simp [Attempt.late, here]) (by simp [Attempt.unfinished, here])
        (by rw [here]; exact .reading) (by simp) resumed
    · rename_i slot room issued octets here
      split at resumed
      · exact endHandshake_moves stands (by simp [Attempt.late, here]) (by simp [Attempt.unfinished, here])
          (by rw [here]; exact .reading) (by simp) resumed
      · exact handshakeChunk_moves found here rfl resumed
    · rename_i slot result here
      apply afterHandshake_moves stands (by simp [Attempt.unfinished, here]) (by rw [here]; exact .joining) _ resumed
      intro fine complete
      split at fine
      · cases fine
      · subst fine
        exact .returned here complete
    · rename_i slot here
      exact concludeHandshake_moves found here resumed
    · cases resumed

theorem attemptStart_moves (started : s.attemptStart i = some next) : Moves fuel s next := by
  unfold attemptStart at started
  split at started
  · rename_i token timedOut reset found
    split at started
    · cases started
      exact .single (.hop found (.finished rfl rfl (settled_of_slot rfl)))
    · cases started
      exact .single (.resolve found rfl)
  · cases started

theorem attemptComplete_moves {completion : Completion} (completed : s.attemptComplete i completion = some next) :
    Moves fuel s next := by
  unfold attemptComplete at completed
  split at completed
  · cases completed
  · rename_i a found
    split at completed
    · rename_i result here
      split at completed
      · cases completed
        exact .single (.hop found (.resolved here))
      · cases completed
    · rename_i left result here
      split at completed
      · cases completed
        exact .single (.hop found (.connected here))
      · cases completed
    · rename_i slot call result here
      obtain ⟨answer, answered, rfl⟩ := Option.map_eq_some_iff.mp completed
      exact .single (.hop found (.wrote here answered))
    · rename_i slot call result here
      obtain ⟨answer, answered, rfl⟩ := Option.map_eq_some_iff.mp completed
      exact .single (.hop found (.read here answered))
    · cases completed

theorem attemptTimeout_moves (fired : s.attemptTimeout i = some next) : Moves fuel s next := by
  unfold attemptTimeout at fired
  split at fired
  · rename_i found
    split at fired
    · cases fired
      exact .single (.timeout found)
    · cases fired
  · rename_i found
    split at fired
    · cases fired
      exact .single (.timeout found)
    · cases fired
  · cases fired

/-! `connect()`, `close()` and the actor. -/

theorem close_moves (closed : s.close fuel = some next) : Moves fuel s next := by
  unfold close at closed
  split at closed
  · rename_i state
    cases closed
    exact .single (.closeIdle state)
  · rename_i unclosed
    obtain ⟨cleared, clears, rfl⟩ := Option.map_eq_some_iff.mp closed
    exact .single (.close unclosed clears)

theorem connect_moves (connected : s.connect = some next) : Moves fuel s next := by
  unfold connect at connected
  split at connected
  · cases connected
    exact .refl
  · cases connected
    exact .refl
  · rename_i closed
    cases connected
    exact .single (.reopen closed)
  · rename_i unopened idle unclosed
    split at connected
    · cases connected
      exact .refl
    · rename_i unstopped
      cases connected
      exact .single (.begin unopened idle unclosed (by simpa using unstopped))

theorem connectResume_moves (resumed : s.connectResume i = some next) : Moves fuel s next := by
  unfold connectResume at resumed
  split at resumed
  · rename_i found
    cases resumed
    exact .head (.hop found (.dismissed rfl)) (.single (.quiet _ _ _ _))
  · rename_i err found
    cases resumed
    exact .single (.report found rfl)
  · cases resumed

theorem connectClose_moves (resumed : s.connectClose fuel i = some next) : Moves fuel s next := by
  unfold connectClose at resumed
  split at resumed
  · rename_i found
    exact .head (.hop found (.dismissed rfl)) (close_moves resumed)
  · cases resumed

theorem actorStart_moves (started : s.actorStart = some next) : Moves fuel s next := by
  unfold actorStart at started
  split at started
  · rename_i token spawned
    cases started
    exact .single (.actorStart spawned)
  · cases started

theorem actorEnd_moves (ended : s.actorEnd fuel = some next) : Moves fuel s next := by
  unfold actorEnd at ended
  split at ended
  · rename_i token runs writer reader control
    exact .single (.actorEnd runs writer reader control ended)
  · cases ended

theorem actorHandler_moves (handled : s.actorHandler fuel = some next) : Moves fuel s next := by
  unfold actorHandler at handled
  split at handled
  · rename_i ended
    obtain ⟨closed, closes, rfl⟩ := Option.map_eq_some_iff.mp handled
    split at closes
    · rename_i state
      cases closes
      exact .single (.actorGone ended state)
    · rename_i unclosed
      exact .single (.actorCloses ended unclosed closes)
  · cases handled

theorem writerComplete_moves {result : Except IoError Nat} (completed : s.writerComplete result = some next) :
    Moves fuel s next := by
  unfold writerComplete at completed
  split at completed
  · rename_i call busy
    obtain ⟨answer, answered, rfl⟩ := Option.map_eq_some_iff.mp completed
    exact .single (.writerComplete busy answered)
  · cases completed

theorem readerComplete_moves {result : Except IoError Bytes} (completed : s.readerComplete result = some next) :
    Moves fuel s next := by
  unfold readerComplete at completed
  split at completed
  · rename_i call busy
    obtain ⟨answer, answered, rfl⟩ := Option.map_eq_some_iff.mp completed
    exact .single (.readerComplete busy answered)
  · cases completed

end Following

/-- Every step is a sequence of moves. -/
theorem step_moves (fuel : Nat) (s : System ρ) (act : Act ρ) (next : System ρ) (stepped : s.step fuel act = some next) :
    Moves fuel s next := by
  cases act with
  | tick elapsed =>
    cases stepped
    exact .single (.quiet _ _ _ _)
  | connect => exact connect_moves stepped
  | connectResume i => exact connectResume_moves stepped
  | connectClose i => exact connectClose_moves stepped
  | close => exact close_moves stepped
  | closeResume => exact .single (.closeResume stepped)
  | enqueue req slotFromMessage => exact .single (.enqueue stepped)
  | actorStart => exact actorStart_moves stepped
  | actorEnd => exact actorEnd_moves stepped
  | actorHandler => exact actorHandler_moves stepped
  | writerRun cause =>
    obtain ⟨token, runs, woken⟩ := inActor_runs stepped
    exact writerRun_moves runs woken
  | writerComplete result => exact writerComplete_moves stepped
  | writerResume =>
    obtain ⟨token, runs, resumed⟩ := inActor_runs stepped
    exact writerResume_moves runs resumed
  | readerRun cause =>
    obtain ⟨token, runs, woken⟩ := inActor_runs stepped
    exact readerRun_moves runs woken
  | readerComplete result => exact readerComplete_moves stepped
  | readerResume memory =>
    obtain ⟨token, runs, resumed⟩ := inActor_runs stepped
    exact readerResume_moves runs resumed
  | controlRun cause delay =>
    obtain ⟨token, runs, ran⟩ := inActor_runs stepped
    exact controlRun_moves runs ran
  | attemptStart i => exact attemptStart_moves stepped
  | attemptComplete i completion => exact attemptComplete_moves stepped
  | attemptTimeout i => exact attemptTimeout_moves stepped
  | attemptResume i oracle => exact attemptResume_moves stepped

theorem Reached.moves {fuel : Nat} {cfg : Config} {s : System ρ} (reached : Reached fuel cfg s) :
    Moves fuel (start cfg) s := by
  obtain ⟨actions, run⟩ := reached
  exact runFrom_moves (step_moves fuel) run

end System

end Rediscoro.Connection

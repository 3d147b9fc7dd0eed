import Rediscoro.Connection.Projection
import Rediscoro.Pipeline.Stock

/-! The requests of a connection.

The traffic of a connection forgets the coroutines, the socket and the parser: what
is left are the pipeline, the sinks and the trace. Whatever a coroutine does, it
rejects or queues a request, has one written, answers some, or clears the pipeline.
-/

set_option autoImplicit false

namespace Rediscoro.Connection

open Rediscoro.Semantics Rediscoro.Resp3 Rediscoro.Pipeline

/-- The user request that was accepted. -/
def Note.request : Note → Option SinkRef
  | .accepted ref _ => some ref
  | _ => none

variable {ρ : Type}

structure Traffic (ρ : Type) where
  hooks : TraceHooks
  pipeline : Pipeline
  sinks : Sinks (Sink ρ) Message ErrorInfo
  trace : List TraceEvent
  nextRequestId : Nat
  /-- The sinks of the user requests that were queued. -/
  accepted : List SinkRef

namespace Traffic

variable {t next : Traffic ρ}

def traceInfo (t : Traffic ρ) (req : Request) : TraceInfo :=
  { id := t.nextRequestId, commandCount := req.commandCount, wireBytes := req.wire.length }

/-- The sink of a request is made, and its start event emitted. -/
def announce (t : Traffic ρ) (req : Request) (slotFromMessage : Nat → Message → Except ErrorInfo ρ) : Traffic ρ :=
  { t with
    sinks := (t.sinks.alloc (Sink.forRequest slotFromMessage req)).2
    nextRequestId := if t.hooks.enabled then t.nextRequestId + 1 else t.nextRequestId
    trace := if t.hooks.onStart then t.trace ++ [.start (t.traceInfo req)] else t.trace }

/-- The trace context of the request is installed. -/
def install (t : Traffic ρ) (ref : SinkRef) (info : TraceInfo) : Sinks (Sink ρ) Message ErrorInfo :=
  if t.hooks.enabled then
    { t.sinks with cells := t.sinks.cells.modify ref fun sink => sink.setTraceContext ⟨t.hooks, info⟩ }
  else t.sinks

def rejection (info : TraceInfo) (replies : Nat) (errc : ClientErrc) : TraceFinish :=
  { info := info, okCount := 0, errorCount := replies
    primaryError := some (.client errc), primaryErrorDetail := [] }

/-- Some deliveries, with the finish events of the requests that they complete. -/
def delivered (t : Traffic ρ) (pipeline : Pipeline) (sinks : Sinks (Sink ρ) Message ErrorInfo) (refs : List SinkRef) :
    Traffic ρ :=
  { t with pipeline := pipeline, sinks := sinks, trace := t.trace ++ System.finishes t.sinks sinks refs }

/-- What can happen to the requests. -/
inductive Move : Traffic ρ → Traffic ρ → Prop where
  | reject {t : Traffic ρ} {req : Request} {slotFromMessage : Nat → Message → Except ErrorInfo ρ} {errc : ClientErrc}
      {sinks : Sinks (Sink ρ) Message ErrorInfo}
      (refused : Sinks.Refused (.client errc) t.sinks.cells.length (t.announce req slotFromMessage).sinks sinks) :
      Move t
        { t.announce req slotFromMessage with
          sinks := sinks
          trace :=
            if t.hooks.onFinish then
              (t.announce req slotFromMessage).trace ++ [.finish (rejection (t.traceInfo req) req.replyCount errc)]
            else (t.announce req slotFromMessage).trace }
  | queue {t : Traffic ρ} {req : Request} {slotFromMessage : Nat → Message → Except ErrorInfo ρ} {deadline : TimePoint}
      {pipeline : Pipeline} {accepted : List SinkRef}
      (pushed : t.pipeline.push req t.sinks.cells.length deadline = some pipeline)
      (one : accepted = t.accepted ++ [t.sinks.cells.length]) :
      Move t
        { t.announce req slotFromMessage with
          pipeline := pipeline
          sinks := (t.announce req slotFromMessage).install t.sinks.cells.length (t.traceInfo req)
          accepted := accepted }
  | write {t : Traffic ρ} {n : Nat} {pipeline : Pipeline} (applied : t.pipeline.onWriteDone n = some pipeline) :
      Move t { t with pipeline := pipeline }
  | answer {t : Traffic ρ} {pipeline : Pipeline} {sinks : Sinks (Sink ρ) Message ErrorInfo}
      (answered : t.pipeline.Answered t.sinks pipeline sinks) :
      Move t (t.delivered pipeline sinks (t.pipeline.awaitingRead.map AwaitingItem.sink))
  | clear {t : Traffic ρ} {pipeline : Pipeline} {sinks : Sinks (Sink ρ) Message ErrorInfo}
      (cleared : t.pipeline.Cleared t.sinks pipeline sinks) : Move t (t.delivered pipeline sinks t.pipeline.refs)
  -- the handshake's own request
  | alloc {t : Traffic ρ} (slotFromMessage : Nat → Message → Except ErrorInfo ρ) (req : Request) :
      Move t { t with sinks := (t.sinks.alloc (Sink.forRequest slotFromMessage req)).2 }
  | push {t : Traffic ρ} {slotFromMessage : Nat → Message → Except ErrorInfo ρ} {req : Request} {deadline : TimePoint}
      {pipeline : Pipeline} (pushed : t.pipeline.push req t.sinks.cells.length deadline = some pipeline) :
      Move t { t with pipeline := pipeline, sinks := (t.sinks.alloc (Sink.forRequest slotFromMessage req)).2 }

abbrev Moves : Traffic ρ → Traffic ρ → Prop := Relation.ReflTransGen Move

theorem Moves.invariant {holds : Traffic ρ → Prop} (kept : ∀ t next, holds t → Move t next → holds next)
    {first last : Traffic ρ} (moves : Moves first last) (start : holds first) : holds last := by
  induction moves with
  | refl => exact start
  | tail _ move ih => exact kept _ _ ih move

/-- The sink that was made last gets its context. -/
theorem cells_install (t : Traffic ρ) (req : Request) (slotFromMessage : Nat → Message → Except ErrorInfo ρ) :
    ∃ context, (t.hooks.enabled = true → context = some ⟨t.hooks, t.traceInfo req⟩) ∧
      ((t.announce req slotFromMessage).install t.sinks.cells.length (t.traceInfo req)).cells =
        t.sinks.cells ++ [{ Sink.forRequest slotFromMessage req with context := context }] := by
  unfold install
  split
  · refine ⟨_, fun _ => rfl, ?_⟩
    simp [announce, Sinks.alloc, List.modify_eq_take_drop, Sink.setTraceContext, Sink.forRequest]
  · rename_i untraced
    exact ⟨none, fun traced => absurd traced untraced, rfl⟩

/-- Every queued request has a sink of its own that is not complete. -/
theorem stocked_step (stocked : t.pipeline.Stocked t.sinks) (move : Move t next) :
    next.pipeline.Stocked next.sinks := by
  cases move with
  | @reject req slotFromMessage errc sinks refused =>
    have made : t.pipeline.Stocked (t.announce req slotFromMessage).sinks := stocked.alloc rfl
    apply made.congr
    intro ref member
    exact refused.others ref (Nat.ne_of_lt (stocked.bound member))
  | @queue req slotFromMessage deadline pipeline accepted pushed one =>
    obtain ⟨context, -, made⟩ := cells_install t req slotFromMessage
    exact stocked.push pushed made rfl
  | write applied => exact stocked.perm (refs_onWriteDone applied)
  | answer answered => exact answered.stocked stocked
  | clear cleared => exact .empty cleared.empty _
  | alloc => exact stocked.alloc rfl
  | push pushed => exact stocked.push pushed rfl rfl

end Traffic

/-! Every move of a connection is a move of its traffic, or leaves it as it is. -/

theorem Exchange.dispatch_answered {σ : Type} [ResponseSink σ Message ErrorInfo] [FloatChars] (fuel : Nat)
    (memory : Memory) (enough : Sinks σ Message ErrorInfo → Bool) (x : Exchange σ) :
    x.pipeline.Answered x.sinks (dispatch fuel memory enough x).2.pipeline (dispatch fuel memory enough x).2.sinks := by
  -- the invariant of the loop is what has been answered so far
  apply run_invariant (dispatchPass_decreases fuel memory enough)
    (fun y => x.pipeline.Answered x.sinks y.pipeline y.sinks)
    (fun result => x.pipeline.Answered x.sinks result.2.pipeline result.2.sinks)
  · intro y next answered again
    unfold dispatchPass at again
    split at again
    · cases again
    · cases again
    · cases again
    · split at again
      · unfold deliver at again
        split at again
        · split at again
          · cases again
          · rename_i pipeline sinks dispatched
            split at again
            · cases again
            · cases again
              exact answered.trans (Pipeline.dispatch_answered dispatched)
        · cases again
      · cases again
  · intro y result answered left
    unfold dispatchPass at left
    split at left
    · cases left
      unfold onError
      split
      · split
        · exact answered
        · rename_i pipeline sinks dispatched
          exact answered.trans (Pipeline.dispatch_answered dispatched)
      · exact answered
    · cases left
      exact answered
    · cases left
      exact answered
    · split at left
      · unfold deliver at left
        split at left
        · split at left
          · cases left
            exact answered
          · rename_i pipeline sinks dispatched
            split at left
            · cases left
              exact answered.trans (Pipeline.dispatch_answered dispatched)
            · cases left
        · cases left
          exact answered
      · cases left
        exact answered
  · exact .refl _ _

namespace System

variable {fuel : Nat} {s next : System ρ}

/-- The requests of a connection. -/
def traffic (s : System ρ) : Traffic ρ :=
  { hooks := s.cfg.traceHooks
    pipeline := s.pipeline
    sinks := s.sinks
    trace := s.trace
    nextRequestId := s.nextRequestId
    accepted := s.notes.filterMap Note.request }

theorem traffic_note {n : Note} (other : n.request = none) : (s.note n).traffic = s.traffic := by
  simp [traffic, note, other]

theorem traffic_record (entry : Entry) : (s.record entry).traffic = s.traffic := rfl

theorem traffic_setState (state : State) : (s.setState state).traffic = s.traffic := rfl

theorem traffic_emit (kind : EventKind) (stage : EventStage) (before after : State) (error : Option ErrorInfo) :
    (s.emit kind stage before after error).traffic = s.traffic := rfl

theorem traffic_setStage (i : Nat) (stage : Stage) : (s.setStage i stage).traffic = s.traffic := rfl

theorem traffic_setClosing (s : System ρ) : s.setClosing.traffic = s.traffic := by
  rw [setClosing, traffic_setState, traffic_record]

theorem traffic_awaitActor (s : System ρ) : s.awaitActor.traffic = s.traffic := by unfold awaitActor; split <;> rfl

theorem traffic_wakeLoops (s : System ρ) : s.wakeLoops.traffic = s.traffic := rfl

theorem traffic_requestStop (s : System ρ) : s.requestStop.traffic = s.traffic := rfl

theorem traffic_endReconnect (s : System ρ) : s.endReconnect.traffic = s.traffic := rfl

theorem traffic_reopen (s : System ρ) : s.reopen.traffic = s.traffic := rfl

theorem traffic_beginConnect (s : System ρ) : s.beginConnect.traffic = s.traffic := by
  have spawned (s : System ρ) (attempts : List Attempt) : { s with attempts := attempts }.traffic = s.traffic := rfl
  have running : s.runActor.traffic = s.traffic := rfl
  rw [beginConnect, spawned, traffic_setState, traffic_record, running]

theorem traffic_closeSocket (s : System ρ) : s.closeSocket.traffic = s.traffic := by unfold closeSocket; split <;> rfl

theorem traffic_resetParser [FloatChars] (s : System ρ) : s.resetParser.traffic = s.traffic :=
  traffic_note (s := s) (n := .reset s.readPromising) rfl

theorem traffic_beginResolve [FloatChars] (s : System ρ) (i : Nat) : (s.beginResolve i).traffic = s.traffic :=
  traffic_resetParser s

theorem traffic_beginReconnect [FloatChars] (s : System ρ) (token : Token) :
    (s.beginReconnect token).traffic = s.traffic := by
  rw [beginReconnect, traffic_beginResolve]
  rfl

theorem traffic_connectNext [FloatChars] (s : System ρ) (i left : Nat) :
    (s.connectNext i left).traffic = s.traffic := by
  rw [connectNext, traffic_setStage]
  exact traffic_closeSocket s

theorem traffic_setOpen [FloatChars] (s : System ρ) : s.setOpen.traffic = s.traffic := by
  rw [setOpen, traffic_resetParser, traffic_emit]
  exact traffic_note (s := s) (n := .opened s.pipeline.pendingCount) rfl

theorem traffic_delivered (pipeline : Pipeline) (sinks : Sinks (Sink ρ) Message ErrorInfo) (refs : List SinkRef) :
    (s.delivered pipeline sinks refs).traffic = s.traffic.delivered pipeline sinks refs := rfl

theorem traffic_consumed [FloatChars] (s : System ρ) (x : Exchange (Sink ρ)) :
    (s.consumed x).traffic =
      s.traffic.delivered x.pipeline x.sinks (s.traffic.pipeline.awaitingRead.map AwaitingItem.sink) := rfl

theorem traffic_clearAll {err : ErrorInfo} (cleared : s.clearAll fuel err = some next) :
    Traffic.Move s.traffic next.traffic := by
  obtain ⟨pipeline, sinks, result, rfl⟩ := clearAll_eq cleared
  rw [traffic_delivered, traffic_note rfl]
  exact .clear (clearAll_cleared result)

theorem traffic_transitionToClosed (closes : s.transitionToClosed fuel = some next) :
    Traffic.Move s.traffic next.traffic := by
  obtain ⟨cleared, clears, rfl⟩ := Option.map_eq_some_iff.mp closes
  have move : Traffic.Move (s.setState .closed).traffic cleared.traffic := traffic_clearAll clears
  rw [← traffic_closeSocket cleared] at move
  exact move

theorem consume_answered [FloatChars] {memory : Memory} {octets : Bytes}
    {enough : Sinks (Sink ρ) Message ErrorInfo → Bool} {outcome : Outcome} {x : Exchange (Sink ρ)}
    (parsed : s.consume fuel memory octets enough = (outcome, x)) :
    s.pipeline.Answered s.sinks x.pipeline x.sinks := by
  have answered := Exchange.dispatch_answered fuel memory enough
    { parser := { s.parser with input := (s.parser.input.write octets).commit octets.length }
      pipeline := s.pipeline
      sinks := s.sinks }
  rw [consume] at parsed
  rw [parsed] at answered
  exact answered

theorem traffic_enqueue {req : Request} {slotFromMessage : Nat → Message → Except ErrorInfo ρ}
    (enqueued : s.enqueue fuel req slotFromMessage = some next) : Traffic.Move s.traffic next.traffic := by
  cases enqueue_cases enqueued with
  | @rejected errc finish sinks refused same failed =>
    subst same
    exact .reject (Sinks.failAll_refused failed)
  | queued opened pushed =>
    exact .queue pushed List.filterMap_append

theorem Move.traffic [FloatChars] [Inhabited ρ] (move : Move fuel s next) : Traffic.Moves s.traffic next.traffic := by
  cases move with
  | fail opened clears =>
    have move := traffic_clearAll clears
    rw [traffic_emit, traffic_setState] at move
    rw [traffic_wakeLoops, traffic_closeSocket]
    exact .single move
  | close unclosed clears =>
    have move := traffic_clearAll clears
    rw [traffic_setClosing, traffic_requestStop, traffic_record] at move
    rw [traffic_awaitActor, traffic_wakeLoops, traffic_closeSocket]
    exact .single move
  | closeResume resumed =>
    unfold System.closeResume at resumed
    split at resumed
    · cases resumed
      exact .refl
    · cases resumed
  | actorEnd runs writer reader control closes =>
    have move := traffic_transitionToClosed closes
    exact .single move
  | actorCloses ended unclosed closes =>
    have move := traffic_transitionToClosed closes
    exact .single move
  | enqueue enqueued => exact .single (traffic_enqueue enqueued)
  | reopen closed => rw [traffic_beginConnect, traffic_reopen]
  | begin unopened idle unclosed unstopped => rw [traffic_beginConnect]
  | @writerIssue token call runs opened rests next =>
    have busy (s : System ρ) : { s with writer := .busy call }.traffic = s.traffic := rfl
    rw [busy, traffic_note rfl]
  | writerDone runs busy done applied => exact .single (.write applied)
  | @readerChunk token call memory octets outcome x runs busy arrived nonempty parsed =>
    have left (s : System ρ) : (s.leave call.resets).traffic = s.traffic := rfl
    have running (s : System ρ) : { s with reader := .running }.traffic = s.traffic := rfl
    rw [left, traffic_consumed, traffic_note rfl, running]
    exact .single (.answer (consume_answered parsed))
  | controlReconnect runs unstopped ready => rw [traffic_beginReconnect]
  | resolve found here => rw [traffic_beginResolve]
  | connectNext left found unfinished before => rw [traffic_connectNext]
  | closeSocket found unfinished before => rw [traffic_closeSocket]
  | alloc req => exact .single (.alloc _ req)
  | push found unfinished before pushed => exact .single (.push pushed)
  | issueWrite found here next => rw [traffic_setStage, traffic_note rfl]
  | wrote found here done applied => exact .single (.write applied)
  | read found here arrived parsed =>
    rw [traffic_setStage, traffic_consumed, traffic_note rfl]
    exact .single (.answer (consume_answered parsed))
  | clear found ends clears => exact .single (traffic_clearAll clears)
  | opens found here complete owner => rw [traffic_setStage, traffic_setOpen]
  | opensAgain found here complete owner runs => rw [traffic_endReconnect, traffic_setStage, traffic_setOpen]
  | _ => exact .refl

theorem Reached.traffic [FloatChars] [Inhabited ρ] {cfg : Config} (reached : Reached fuel cfg s) :
    Traffic.Moves (start (ρ := ρ) cfg).traffic s.traffic :=
  reached.moves.lift' System.traffic fun _ _ move => move.traffic

end System

end Rediscoro.Connection

import Rediscoro.Connection.Dispatch
import Rediscoro.Connection.Sink

/-! The connection: its coroutines, one strand step at a time.

A step runs one coroutine from the point where it is suspended to the next wait.
Awaiting a child coroutine or the stop token does not suspend; waiting for an
event, a timer, a socket or resolver operation, a spawned coroutine or the end of
`with_timeout` does. Between two steps every suspended coroutine is data: what a
loop waits for, and how far each `do_connect` has come. Operations complete on
their own and are seen when their coroutine is resumed; closing the socket aborts
those that have not completed.

A step is refused where nothing waits to be resumed, and where the source would
not come to the next wait: an assertion fails, or `build_message` or `fail_all`
still runs after `fuel` rounds. A text whose storage is gone stops nothing, since
it is only copied: what is found there is an argument of the step, and for a
verbatim string it decides about an assertion. Where assertions are compiled out,
the step is the one with a colon in that place, which no message shows. Two
histories are kept beside the code and never read by it.
-/

set_option autoImplicit false

namespace Rediscoro.Connection

open Rediscoro.Semantics Rediscoro.Resp3 Rediscoro.Pipeline

/-- `connection_state`. -/
inductive State where
  | init | connecting | opened | failed | reconnecting | closing | closed
  deriving DecidableEq, Repr

/-- A stop token is known by the number of its source. -/
abbrev Token := Nat

structure Config where
  username : Bytes := []
  password : Bytes := []
  database : Int := 0
  clientName : Bytes := []
  resolveTimeout : Option Nat := some 5000
  connectTimeout : Option Nat := some 5000
  requestTimeout : Option Nat := some 5000
  respLimits : Resp3.Limits := {}
  pipelineLimits : Pipeline.Limits := {}
  reconnectEnabled : Bool := true
  immediateAttempts : Nat := 5
  traceHooks : TraceHooks := {}

/-! Operations and the coroutines that wait for them. -/

inductive Op (α : Type) where
  | pending
  | ready (result : Except IoError α)

def Op.abort {α : Type} : Op α → Op α
  | .pending => .ready (.error .operationAborted)
  | .ready result => .ready result

/-- An `async_write_some` for the request of a sink, with the size of its buffer. -/
structure WriteCall where
  sink : SinkRef
  size : Nat
  op : Op Nat

def WriteCall.abort (call : WriteCall) : WriteCall := { call with op := call.op.abort }

/-- The octets are written, but the writer does not know yet. -/
def WriteCall.completed (call : WriteCall) : Bool :=
  match call.op with
  | .ready (.ok _) => true
  | _ => false

/-- What the runtime answers: no more octets than there were in the buffer. -/
def WriteCall.complete (call : WriteCall) (result : Except IoError Nat) : Option WriteCall :=
  match call.op, result with
  | .pending, .ok n => if n ≤ call.size then some { call with op := .ready (.ok n) } else none
  | .pending, .error err => some { call with op := .ready (.error err) }
  | .ready _, _ => none

/-- An `async_read_some` into the room that was prepared for it. -/
structure ReadCall where
  room : Nat
  /-- How often `do_connect` had reset the parser by then. -/
  resets : Nat
  op : Op Bytes

def ReadCall.abort (call : ReadCall) : ReadCall := { call with op := call.op.abort }

/-- The call may still bring octets. -/
def ReadCall.promising (call : ReadCall) : Bool :=
  match call.op with
  | .pending => true
  | .ready (.ok octets) => octets ≠ []
  | .ready (.error _) => false

/-- What the runtime answers: no more octets than there was room for. -/
def ReadCall.complete (call : ReadCall) (result : Except IoError Bytes) : Option ReadCall :=
  match call.op, result with
  | .pending, .ok octets => if octets.length ≤ call.room then some { call with op := .ready (.ok octets) } else none
  | .pending, .error err => some { call with op := .ready (.error err) }
  | .ready _, _ => none

/-- `write_loop` or `read_loop`. -/
inductive Loop (κ : Type) where
  | running
  | waiting
  | busy (call : κ)
  | exited

def Loop.map {κ : Type} (change : κ → κ) : Loop κ → Loop κ
  | .busy call => .busy (change call)
  | loop => loop

/-- Between two waits, or about to look whether there is something to do. -/
@[simp]
def Loop.resting {κ : Type} : Loop κ → Bool
  | .running | .waiting => true
  | _ => false

/-- `control_loop`; it is inside `do_reconnect` from the backoff to the end of an attempt. -/
inductive Control where
  | running
  | waiting
  | timer (deadline : TimePoint)
  | backoff (deadline : Nat)
  | connecting
  | exited

/-- Outside of `do_reconnect`. -/
def Control.idle : Control → Bool
  | .running | .waiting | .timer _ => true
  | _ => false

/-- `actor_loop`, from its `co_spawn` to the completion handler. -/
inductive Actor where
  | none
  | spawned (token : Token)
  | running (token : Token)
  | ended
  deriving DecidableEq

inductive Owner where
  | caller | control
  deriving DecidableEq

/-- How far a `do_connect` has come. -/
inductive Stage where
  | spawned
  | resolving (op : Op Nat)
  /-- With the number of endpoints behind the one that is tried. -/
  | connecting (left : Nat) (op : Op Unit)
  /-- In the handshake, between two operations. -/
  | handshaking (slot : SinkRef)
  | writing (slot : SinkRef) (call : WriteCall)
  | reading (slot : SinkRef) (call : ReadCall)
  /-- The handshake has ended and `with_timeout` is about to return. -/
  | joining (slot : SinkRef) (result : Except HandshakeError Unit)
  | waitingSlot (slot : SinkRef)
  /-- The caller of `connect()` is about to be resumed. -/
  | finished (result : Except ErrorInfo Unit)
  /-- `connect()` has reported the failure and is about to call `close()`. -/
  | unwinding
  | gone

structure Attempt where
  owner : Owner
  token : Token
  /-- The timer of the handshake has fired. -/
  timedOut : Bool := false
  /-- The number of the parser reset that the attempt began with. -/
  reset : Nat := 0
  stage : Stage := .spawned

namespace Attempt

def unfinished (a : Attempt) : Bool :=
  match a.stage with
  | .finished _ | .unwinding | .gone => false
  | _ => true

/-- The last stop check is behind it. -/
def late (a : Attempt) : Bool :=
  match a.stage with
  | .joining _ (.ok _) | .waitingSlot _ => true
  | _ => false

def writeCompleted (a : Attempt) : Bool :=
  match a.stage with
  | .writing _ call => call.completed
  | _ => false

/-- What closing the socket does to the operation it waits for; the resolver has no socket. -/
def abort (a : Attempt) : Attempt :=
  { a with stage :=
      match a.stage with
      | .connecting left op => .connecting left op.abort
      | .writing slot call => .writing slot call.abort
      | .reading slot call => .reading slot call.abort
      | stage => stage }

end Attempt

/-! Events and histories. -/

inductive EventKind where
  | connected | disconnected | closed
  deriving DecidableEq, Repr

inductive EventStage where
  | connect | handshake | runtimeIo | close
  deriving DecidableEq, Repr

structure ConnectionEvent where
  kind : EventKind
  stage : EventStage
  generation : Nat
  reconnectCount : Nat
  fromState : State
  toState : State
  error : Option ErrorInfo
  deriving DecidableEq, Repr

inductive TraceEvent where
  | start (info : TraceInfo)
  | finish (finish : TraceFinish)
  deriving DecidableEq, Repr

/-- What happens to the lifecycle. -/
inductive Entry where
  | state (before after : State)
  | event (event : ConnectionEvent)
  /-- `connect()` begins an attempt; whether another attempt or a `do_reconnect` is unfinished. -/
  | began (idle : Bool)
  /-- `connect()` leaves CLOSED, with some `close()` calls suspended. -/
  | reopened (closers : Nat) (actorRunning : Bool)
  /-- `close()` goes past its first check, with some wake-ups of `actor_done_` banked. -/
  | closeEntered (actorRunning : Bool) (banked : Nat)
  | closeReturned (state : State)
  /-- CLOSING is about to be set; whether every unfinished attempt will see the stop request. -/
  | shutdown (heard : Bool)
  deriving DecidableEq, Repr

/-- What happens to requests, octets and the parser. -/
inductive Note where
  /-- `clear_all`; whether a completed write waits to be resumed. -/
  | cleared (racing : Bool)
  /-- `do_connect` resets the parser; whether a `do_read` may still bring octets. -/
  | reset (promising : Bool)
  /-- `do_read` commits octets, read before how many resets and committed after how many. -/
  | committed (issued resets : Nat)
  /-- A handshake parses; whether a tree is left from a read before its reset. -/
  | parsed (stale : Bool)
  | accepted (sink : SinkRef) (socket : Nat)
  /-- `do_write` or `do_handshake` hands octets of the request to the socket. -/
  | written (sink : SinkRef) (socket : Nat)
  /-- OPEN is set, with so many requests in the pipeline. -/
  | opened (queued : Nat)
  deriving DecidableEq, Repr

structure System (ρ : Type) where
  cfg : Config := {}
  state : State := .init
  generation : Nat := 0
  reconnectCount : Nat := 0
  pipeline : Pipeline
  sinks : Sinks (Sink ρ) Message ErrorInfo := {}
  parser : Parser Buffer View
  socketOpen : Bool := false
  /-- How often the socket was connected anew. -/
  socket : Nat := 0
  source : Token := 0
  stopped : List Token := []
  writeWakeup : Nat := 0
  readWakeup : Nat := 0
  controlWakeup : Nat := 0
  actorRunning : Bool := false
  actorDone : Nat := 0
  actor : Actor := .none
  writer : Loop WriteCall := .exited
  reader : Loop ReadCall := .exited
  control : Control := .exited
  attempts : List Attempt := []
  /-- The `close()` calls that wait for the actor. -/
  closing : Nat := 0
  now : Nat := 0
  nextRequestId : Nat := 1
  trace : List TraceEvent := []
  resets : Nat := 0
  /-- The reset before which the octets of a tree were read that `do_read` has left behind. -/
  leftover : Option Nat := none
  log : List Entry := []
  notes : List Note := []

namespace System

variable {ρ : Type}

def start (cfg : Config) : System ρ :=
  { cfg := cfg, pipeline := { limits := cfg.pipelineLimits }, parser := .fresh cfg.respLimits }

/-! What the coroutines do to the connection. -/

def record (s : System ρ) (entry : Entry) : System ρ := { s with log := s.log ++ [entry] }

def note (s : System ρ) (n : Note) : System ρ := { s with notes := s.notes ++ [n] }

def setState (s : System ρ) (next : State) : System ρ := { s.record (.state s.state next) with state := next }

/-- The event that a hook is called with. -/
def event (s : System ρ) (kind : EventKind) (stage : EventStage) (before after : State) (error : Option ErrorInfo) :
    ConnectionEvent :=
  { kind := kind, stage := stage, generation := s.generation, reconnectCount := s.reconnectCount,
    fromState := before, toState := after, error := error }

/-- `emit_connection_event`. -/
def emit (s : System ρ) (kind : EventKind) (stage : EventStage) (before after : State) (error : Option ErrorInfo) :
    System ρ :=
  s.record (.event (s.event kind stage before after error))

def stopRequested (s : System ρ) (token : Token) : Bool := s.stopped.contains token

def requestStop (s : System ρ) : System ρ := { s with stopped := s.source :: s.stopped }

def wakeLoops (s : System ρ) : System ρ :=
  { s with
    writeWakeup := s.writeWakeup + 1
    readWakeup := s.readWakeup + 1
    controlWakeup := s.controlWakeup + 1 }

/-- `if (socket_.is_open()) socket_.close()`. -/
def closeSocket (s : System ρ) : System ρ :=
  if s.socketOpen then
    { s with
      socketOpen := false
      writer := s.writer.map WriteCall.abort
      reader := s.reader.map ReadCall.abort
      attempts := s.attempts.map Attempt.abort }
  else s

/-- A new operation of the socket; on a closed one it fails. -/
def issue {α : Type} (s : System ρ) : Op α := if s.socketOpen then .pending else .ready (.error (.other []))

def setAttempt (s : System ρ) (i : Nat) (change : Attempt → Attempt) : System ρ :=
  { s with attempts := s.attempts.modify i change }

def setStage (s : System ρ) (i : Nat) (stage : Stage) : System ρ := s.setAttempt i fun a => { a with stage := stage }

/-- Some write is done and its coroutine not yet resumed. -/
def writeCompleted (s : System ρ) : Bool :=
  (match s.writer with
    | .busy call => call.completed
    | _ => false) || s.attempts.any Attempt.writeCompleted

/-- A request is in the pipeline, and its sink in the store. -/
def queue (s : System ρ) (pipeline : Pipeline) (sinks : Sinks (Sink ρ) Message ErrorInfo) : System ρ :=
  { s with pipeline := pipeline, sinks := sinks }

/-- The finish events of the sinks that were completed meanwhile. -/
def finishes (before after : Sinks (Sink ρ) Message ErrorInfo) (refs : List SinkRef) : List TraceEvent :=
  refs.filterMap fun ref =>
    match before.cells[ref]?, after.cells[ref]? with
    | some old, some new => if old.finish = none then new.finish.map .finish else none
    | _, _ => none

/-- The pipeline and the sinks after some deliveries. -/
def delivered (s : System ρ) (pipeline : Pipeline) (sinks : Sinks (Sink ρ) Message ErrorInfo) (refs : List SinkRef) :
    System ρ :=
  { s with pipeline := pipeline, sinks := sinks, trace := s.trace ++ finishes s.sinks sinks refs }

/-- A coroutine inside `do_connect` or `do_reconnect`. -/
def connectBusy (s : System ρ) : Bool :=
  s.attempts.any Attempt.unfinished ||
    match s.control with
    | .backoff _ | .connecting => true
    | _ => false

/-- Every unfinished attempt belongs to `connect()` and still has a stop check before it that
sees the stop of the current source. -/
def allHear (s : System ρ) : Bool :=
  s.attempts.all fun a => !a.unfinished ||
    (a.owner = .caller && (s.stopRequested a.token || a.token = s.source) && !a.late)

/-- `set_state(CLOSING)`. -/
def setClosing (s : System ρ) : System ρ := (s.record (.shutdown s.allHear)).setState .closing

section Steps

variable (fuel : Nat)

def clearAll (s : System ρ) (err : ErrorInfo) : Option (System ρ) :=
  match s.pipeline.clearAll fuel err s.sinks with
  | none => none
  | some (pipeline, sinks) =>
      some ((s.note (.cleared s.writeCompleted)).delivered pipeline sinks
        (s.pipeline.pendingWrite.map PendingItem.sink ++ s.pipeline.awaitingRead.map AwaitingItem.sink))

/-- `handle_error`: only an open connection fails. -/
def handleError (s : System ρ) (err : ErrorInfo) : Option (System ρ) :=
  match s.state with
  | .closed | .closing | .failed | .reconnecting => some s
  | .init | .connecting => some { s with controlWakeup := s.controlWakeup + 1 }
  | .opened =>
      (((s.setState .failed).emit .disconnected .runtimeIo .opened .failed (some err)).clearAll fuel err).map
        fun s => s.closeSocket.wakeLoops

def transitionToClosed (s : System ρ) : Option (System ρ) :=
  ((s.setState .closed).clearAll fuel (.client .connectionClosed)).map
    fun cleared => cleared.closeSocket.emit .closed .close s.state .closed none

/-! `connect()`, `close()` and the actor. -/

/-- The end of `close()`, or its wait for the actor. -/
def awaitActor (s : System ρ) : System ρ :=
  if s.actorRunning then { s with closing := s.closing + 1 } else s.record (.closeReturned s.state)

def close (s : System ρ) : Option (System ρ) :=
  if s.state = .closed then some (s.record (.closeReturned .closed))
  else
    (((s.record (.closeEntered s.actorRunning s.actorDone)).requestStop.setClosing).clearAll fuel
      (.client .connectionClosed)).map fun s => s.closeSocket.wakeLoops.awaitActor

/-- A wake-up of `actor_done_` resumes one `close()`. -/
def closeResume (s : System ρ) : Option (System ρ) :=
  if 0 < s.closing ∧ 0 < s.actorDone then
    some ({ s with closing := s.closing - 1, actorDone := s.actorDone - 1 }.record (.closeReturned s.state))
  else none

/-- CLOSED is left: a new lifecycle with a new stop source. -/
def reopen (s : System ρ) : System ρ :=
  { (s.record (.reopened s.closing s.actorRunning)).setState .init with reconnectCount := 0, source := s.source + 1 }

/-- `if (!actor_running_) run_actor()`. -/
def runActor (s : System ρ) : System ρ :=
  { s with actorRunning := true, actor := if s.actorRunning then s.actor else .spawned s.source }

/-- The actor runs, CONNECTING is set, and `do_connect` is spawned. -/
def beginConnect (s : System ρ) : System ρ :=
  let s := (s.runActor.record (.began (!s.connectBusy))).setState .connecting
  { s with attempts := s.attempts ++ [{ owner := .caller, token := s.source }] }

/-- The check behind `stop_.reset()` is of a new stop source and passes. -/
def connect (s : System ρ) : Option (System ρ) :=
  match s.state with
  | .opened | .connecting => some s
  | .closed => some s.reopen.beginConnect
  | _ => some (if s.stopRequested s.source then s else s.beginConnect)

/-- `connect()` behind its `do_connect`. -/
def connectResume (s : System ρ) (i : Nat) : Option (System ρ) :=
  match s.attempts[i]? with
  | some { stage := .finished (.ok _), .. } => some (s.setStage i .gone).wakeLoops
  | some { stage := .finished (.error err), .. } =>
      some ((s.setStage i .unwinding).emit .disconnected .connect .connecting .closing (some err))
  | _ => none

def connectClose (s : System ρ) (i : Nat) : Option (System ρ) :=
  match s.attempts[i]? with
  | some { stage := .unwinding, .. } => (s.setStage i .gone).close fuel
  | _ => none

def actorStart (s : System ρ) : Option (System ρ) :=
  match s.actor with
  | .spawned token =>
      some { s with actor := .running token, writer := .running, reader := .running, control := .running }
  | _ => none

/-- The end of `actor_loop`, behind `when_all`. -/
def actorEnd (s : System ρ) : Option (System ρ) :=
  match s.actor, s.writer, s.reader, s.control with
  | .running _, .exited, .exited, .exited => { s with actor := .ended }.transitionToClosed fuel
  | _, _, _, _ => none

/-- `actor_done_.notify()`. -/
def actorNotify (s : System ρ) : System ρ := { s with actorDone := s.actorDone + 1 }

/-- The completion handler that `run_actor` posts. -/
def actorHandler (s : System ρ) : Option (System ρ) :=
  match s.actor with
  | .ended =>
      let s := { s with actor := .none, actorRunning := false }
      (if s.state = .closed then some s else s.transitionToClosed fuel).map actorNotify
  | _ => none

/-! `enqueue`. -/

/-- The states that accept no request, and what they answer. -/
def refusal : State → Option ClientErrc
  | .init | .connecting => some .notConnected
  | .failed | .reconnecting => some .connectionLost
  | .closing | .closed => some .connectionClosed
  | .opened => none

/-- The finish event of a request that is not queued. -/
def finishTrace (s : System ρ) (finish : TraceFinish) : System ρ :=
  { s with trace := if s.cfg.traceHooks.onFinish then s.trace ++ [.finish finish] else s.trace }

def reject (s : System ρ) (ref : SinkRef) (info : TraceInfo) (err : ErrorInfo) : Option (System ρ) :=
  let finish : TraceFinish :=
    { info := info, okCount := 0, errorCount := ((s.sinks.cells[ref]?).map expectedReplies).getD 0
      primaryError := some err.code, primaryErrorDetail := err.detail }
  (s.sinks.failAll fuel err ref).map fun sinks => (s.finishTrace finish).queue s.pipeline sinks

def deadline (s : System ρ) : TimePoint :=
  match s.cfg.requestTimeout with
  | none => ⊤
  | some timeout => ((s.now + timeout : Nat) : TimePoint)

/-- The trace context of an accepted request is installed in its sink. -/
def setTraceContext (s : System ρ) (ref : SinkRef) (info : TraceInfo) : Sinks (Sink ρ) Message ErrorInfo :=
  if s.cfg.traceHooks.enabled then
    { s.sinks with cells := s.sinks.cells.modify ref fun sink => sink.setTraceContext ⟨s.cfg.traceHooks, info⟩ }
  else s.sinks

/-- `enqueue_impl` behind the start event. -/
def accept (s : System ρ) (req : Request) (ref : SinkRef) (info : TraceInfo) : Option (System ρ) :=
  match refusal s.state with
  | some errc => s.reject fuel ref info (.client errc)
  | none =>
      match s.pipeline.push req ref s.deadline with
      | none => s.reject fuel ref info (.client .queueFull)
      | some pipeline =>
          some { (s.note (.accepted ref s.socket)).queue pipeline (s.setTraceContext ref info) with
            writeWakeup := s.writeWakeup + 1
            controlWakeup := s.controlWakeup + 1 }

def traceInfo (s : System ρ) (req : Request) : TraceInfo :=
  { id := s.nextRequestId, commandCount := req.commandCount, wireBytes := req.wire.length }

/-- The sink of a request is made. A traced one gets the next id, and its start event is emitted. -/
def announce (s : System ρ) (req : Request) (slotFromMessage : Nat → Message → Except ErrorInfo ρ) : System ρ :=
  { s with
    sinks := (s.sinks.alloc (Sink.forRequest slotFromMessage req)).2
    nextRequestId := if s.cfg.traceHooks.enabled then s.nextRequestId + 1 else s.nextRequestId
    trace := if s.cfg.traceHooks.onStart then s.trace ++ [.start (s.traceInfo req)] else s.trace }

def enqueue (s : System ρ) (req : Request) (slotFromMessage : Nat → Message → Except ErrorInfo ρ) :
    Option (System ρ) :=
  (s.announce req slotFromMessage).accept fuel req (s.sinks.alloc (Sink.forRequest slotFromMessage req)).1
    (s.traceInfo req)

end Steps

end System

end Rediscoro.Connection

import Rediscoro.Connection.System
import Rediscoro.Pipeline.Wire
import Rediscoro.Semantics.Transition

/-! The loops of the actor, `do_connect`, and the step function.

Each function continues a coroutine up to its next wait. The loops of the source
are written as the part of the code between two waits: where `write_loop` goes
round, `writeTop` is entered again. `do_reconnect` and the `do_connect` it awaits
run inside `control_loop`, so the end of such an attempt goes on there without a
wait in between.
-/

set_option autoImplicit false

namespace Rediscoro.Connection

open Rediscoro.Semantics Rediscoro.Resp3 Rediscoro.Pipeline

/-- The delay before the next attempt, where the source draws one; for the socket options of a
connected endpoint the error of the first that cannot be set; and for the messages that are
delivered what is found in storage that is gone. -/
structure Oracle where
  delay : Nat := 0
  options : Option IoError := none
  memory : Memory := .zeroed

/-- The result of the operation that a `do_connect` waits for. -/
inductive Completion where
  | resolved (result : Except IoError Nat)
  | connected (result : Except IoError Unit)
  | wrote (result : Except IoError Nat)
  | read (result : Except IoError Bytes)

/-- What wakes a coroutine that waits for an event. -/
inductive Cause where
  | wakeup | timer | cancelled
  deriving DecidableEq

namespace System

variable {ρ : Type} [FloatChars] (fuel : Nat)

/-! `write_loop`. -/

/-- `next_write_buffer` and `async_write_some`. -/
def nextWrite (s : System ρ) : Option WriteCall :=
  s.pipeline.pendingWrite.head?.map fun front =>
    { sink := front.sink, size := front.unwritten.length, op := s.issue }

/-- The top of `write_loop`, and of the loop in `do_write` when it is entered. -/
def writeTop (s : System ρ) (token : Token) : System ρ :=
  if s.stopRequested token || s.state = .closed then { s with writer := .exited }
  else if s.state = .opened then
    match s.nextWrite with
    | none => { s with writer := .waiting }
    | some call => { s.note (.written call.sink s.socket) with writer := .busy call }
  else { s with writer := .waiting }

/-- `do_write` behind its `async_write_some`. -/
def writerResume (s : System ρ) (token : Token) : Option (System ρ) :=
  match s.writer with
  | .busy { op := .ready (.ok n), .. } =>
      match s.pipeline.onWriteDone n with
      | none => none
      | some pipeline =>
          some ({ s with
            writer := .running
            pipeline := pipeline
            readWakeup := if pipeline.hasPendingRead then s.readWakeup + 1 else s.readWakeup }.writeTop token)
  | .busy { op := .ready (.error err), .. } =>
      let s := { s with writer := .running }
      if err = .operationAborted ∧ (s.state = .closing ∨ s.state = .closed) then some (s.writeTop token)
      else (s.handleError fuel (.client .writeError)).map fun s => s.writeTop token
  | _ => none

def writerRun (s : System ρ) (token : Token) (cause : Cause) : Option (System ρ) :=
  match s.writer, cause with
  | .running, .wakeup => some (s.writeTop token)
  | .waiting, .wakeup =>
      if 0 < s.writeWakeup then some ({ s with writeWakeup := s.writeWakeup - 1 }.writeTop token) else none
  | .waiting, .cancelled => if s.stopRequested token then some (s.writeTop token) else none
  | _, _ => none

/-! `read_loop`. -/

/-- `prepare` and `async_read_some`. -/
def nextRead (s : System ρ) : Parser Buffer View × ReadCall :=
  let parser := { s.parser with input := s.parser.input.prepare 4096 }
  (parser, { room := parser.input.available, resets := s.resets, op := s.issue })

/-- The top of `read_loop`. -/
def readTop (s : System ρ) (token : Token) : System ρ :=
  if s.stopRequested token || s.state = .closed then { s with reader := .exited }
  else if s.state = .opened then { s with parser := s.nextRead.1, reader := .busy s.nextRead.2 }
  else { s with reader := .waiting }

/-- The octets are in the buffer and the loop over `parse_one` runs. -/
def consume (s : System ρ) (memory : Memory) (octets : Bytes)
    (enough : Sinks (Sink ρ) Message ErrorInfo → Bool) : Outcome × Exchange (Sink ρ) :=
  Exchange.dispatch fuel memory enough
    { parser := { s.parser with input := (s.parser.input.write octets).commit octets.length }
      pipeline := s.pipeline
      sinks := s.sinks }

/-- The connection behind that loop. -/
def consumed (s : System ρ) (x : Exchange (Sink ρ)) : System ρ :=
  { s with parser := x.parser }.delivered x.pipeline x.sinks (s.pipeline.awaitingRead.map AwaitingItem.sink)

/-- What `do_read` leaves in the parser. -/
def leave (s : System ρ) (issued : Nat) : System ρ :=
  { s with leftover := if s.parser.tree.nodes = [] then none else some issued }

/-- `do_read` with some octets, from `commit` on. -/
def readChunk (s : System ρ) (memory : Memory) (octets : Bytes) (issued : Nat) : Option (System ρ) :=
  let (outcome, x) := s.consume fuel memory octets fun _ => false
  let read := (({ s with reader := .running }.note (.committed issued s.resets)).consumed x).leave issued
  match outcome with
  | .faulty => none
  | .invalid errc => read.handleError fuel { code := .protocol errc }
  | .unsolicited => read.handleError fuel (.client .unsolicitedMessage)
  | .starved | .complete => some read

/-- `do_read` behind its `async_read_some`. -/
def readerResume (s : System ρ) (token : Token) (memory : Memory) : Option (System ρ) :=
  match s.reader with
  | .busy { op := .ready (.ok octets), resets := issued, .. } =>
      (if octets = [] then { s with reader := .running }.handleError fuel (.client .connectionReset)
        else s.readChunk fuel memory octets issued).map fun s => s.readTop token
  | .busy { op := .ready (.error err), .. } =>
      let s := { s with reader := .running }
      if err = .operationAborted ∧ (s.state = .closing ∨ s.state = .closed) then some (s.readTop token)
      else (s.handleError fuel (.client .connectionLost)).map fun s => s.readTop token
  | _ => none

def readerRun (s : System ρ) (token : Token) (cause : Cause) : Option (System ρ) :=
  match s.reader, cause with
  | .running, .wakeup => some (s.readTop token)
  | .waiting, .wakeup =>
      if 0 < s.readWakeup then some ({ s with readWakeup := s.readWakeup - 1 }.readTop token) else none
  | .waiting, .cancelled => if s.stopRequested token then some (s.readTop token) else none
  | _, _ => none

/-! `do_connect` up to its first wait, and `control_loop` with `do_reconnect`. -/

/-- A `do_read` may still bring octets. -/
def readPromising (s : System ρ) : Bool :=
  match s.reader with
  | .busy call => call.promising
  | _ => false

/-- `parser_.reset()` in a `do_connect`. -/
def resetParser (s : System ρ) : System ρ :=
  { s.note (.reset s.readPromising) with parser := s.parser.reset, resets := s.resets + 1, leftover := none }

/-- `do_connect` from behind its first check to the wait for the resolver. -/
def beginResolve (s : System ρ) (i : Nat) : System ρ :=
  s.resetParser.setAttempt i fun a => { a with stage := .resolving .pending, reset := s.resets + 1 }

/-- `do_reconnect` behind the backoff: RECONNECTING, and `do_connect` is entered. Its own
check of the stop token repeats the one just made. -/
def beginReconnect (s : System ρ) (token : Token) : System ρ :=
  let s := s.setState .reconnecting
  beginResolve { s with attempts := s.attempts ++ [{ owner := .control, token := token }], control := .connecting }
    s.attempts.length

/-- The loop of `do_reconnect` in a state that is FAILED, with its token not stopped. -/
def reconnectTop (s : System ρ) (token : Token) (delay : Nat) : System ρ :=
  if s.reconnectCount < s.cfg.immediateAttempts ∨ delay = 0 then s.beginReconnect token
  else { s with control := .backoff (s.now + delay) }

/-- `control_loop` in FAILED. Without reconnection it is left: the stop request or CLOSING ends it. -/
def controlFailed (s : System ρ) (token : Token) (delay : Nat) : System ρ :=
  if s.cfg.reconnectEnabled then s.reconnectTop token delay
  else
    let s := s.setClosing.requestStop
    { s with writeWakeup := s.writeWakeup + 1, readWakeup := s.readWakeup + 1, control := .exited }

/-- The rest of a round of `control_loop`. -/
def controlIdle (s : System ρ) : System ρ :=
  if s.state = .opened ∧ s.cfg.requestTimeout.isSome ∧ s.pipeline.nextDeadline ≠ ⊤ then
    { s with control := .timer s.pipeline.nextDeadline }
  else if s.state = .closing then { s with control := .exited }
  else { s with control := .waiting }

/-- The top of `control_loop`. A request that is overdue fails the connection, and the
next round finds it FAILED. -/
def controlTop (s : System ρ) (token : Token) (delay : Nat) : Option (System ρ) :=
  if s.stopRequested token || s.state = .closed then some { s with control := .exited }
  else if s.state = .failed then some (s.controlFailed token delay)
  else if s.state = .opened ∧ s.cfg.requestTimeout.isSome ∧ s.pipeline.hasExpired s.now then
    (s.handleError fuel (.client .requestTimeout)).map fun s => s.controlFailed token delay
  else some s.controlIdle

/-- The backoff loop of `do_reconnect`, woken up. Where it is cancelled, `control_loop` is left too. -/
def backoffTop (s : System ρ) (token : Token) (deadline : Nat) : System ρ :=
  if s.stopRequested token || s.state = .closing then { s with control := .exited }
  else if deadline ≤ s.now then s.beginReconnect token
  else { s with control := .backoff deadline }

/-- A wake-up of `control_wakeup_` is consumed, a timer has expired, or the wait was cancelled. -/
def controlWoken (s : System ρ) (token : Token) (expiry : Option TimePoint) : Cause → Option (System ρ)
  | .wakeup => if 0 < s.controlWakeup then some { s with controlWakeup := s.controlWakeup - 1 } else none
  | .cancelled => if s.stopRequested token then some s else none
  | .timer =>
      match expiry with
      | none => none
      | some deadline => if deadline ≤ (s.now : TimePoint) then some s else none

def controlRun (s : System ρ) (token : Token) (cause : Cause) (delay : Nat) : Option (System ρ) :=
  match s.control with
  | .running => s.controlTop fuel token delay
  | .waiting => (s.controlWoken token none cause).bind fun s => s.controlTop fuel token delay
  | .timer deadline => (s.controlWoken token (some deadline) cause).bind fun s => s.controlTop fuel token delay
  | .backoff deadline =>
      (s.controlWoken token (some (deadline : TimePoint)) cause).map fun s => s.backoffTop token deadline
  | .connecting | .exited => none

/-! `do_connect` behind its waits. -/

/-- A step of one of the loops, with the token of the actor. -/
def inActor (s : System ρ) (body : Token → Option (System ρ)) : Option (System ρ) :=
  match s.actor with
  | .running token => body token
  | _ => none

/-- FAILED again, with one more attempt counted. -/
def failReconnect (s : System ρ) : System ρ :=
  { s.setState .failed with reconnectCount := s.reconnectCount + 1, control := .running }

/-- `do_reconnect` behind a `do_connect` that has failed. -/
def reconnectFailed (s : System ρ) (token : Token) (delay : Nat) : System ρ :=
  if s.failReconnect.stopRequested token then { s.failReconnect with control := .exited }
  else s.failReconnect.reconnectTop token delay

/-- `do_reconnect` is left for `control_loop`. -/
def endReconnect (s : System ρ) : System ρ := { s with reconnectCount := 0, control := .running }

/-- `do_reconnect` behind a `do_connect` that has succeeded. -/
def reconnectSucceeded (s : System ρ) (token : Token) (delay : Nat) : Option (System ρ) :=
  s.endReconnect.wakeLoops.controlTop fuel token delay

/-- `do_connect` returns an error, to the spawned coroutine of `connect()` or into `do_reconnect`. -/
def fail (s : System ρ) (i : Nat) (a : Attempt) (delay : Nat) (err : ErrorInfo) : Option (System ρ) :=
  match a.owner with
  | .caller => some (s.setStage i (.finished (.error err)))
  | .control => s.inActor fun token => some ((s.setStage i .gone).reconnectFailed token delay)

/-- `do_connect` returns without an error. -/
def succeed (s : System ρ) (i : Nat) (a : Attempt) (delay : Nat) : Option (System ρ) :=
  match a.owner with
  | .caller => some (s.setStage i (.finished (.ok ())))
  | .control => s.inActor fun token => (s.setStage i .gone).reconnectSucceeded fuel token delay

/-- `async_connect` to the next endpoint, with so many behind it. -/
def connectNext (s : System ρ) (i left : Nat) : System ρ :=
  let s := s.closeSocket
  { s with socketOpen := true, socket := s.socket + 1 }.setStage i (.connecting left .pending)

def connectError : IoError → ErrorInfo
  | .timedOut => .client .connectTimeout
  | .operationAborted => .client .operationAborted
  | .other message => { code := .client .connectFailed, detail := message }

def resolveError : IoError → ErrorInfo
  | .timedOut => .client .resolveTimeout
  | .operationAborted => .client .operationAborted
  | .other _ => .client .resolveFailed

/-- The endpoint has failed; it was the last one, or the next is tried. -/
def connectFailed (s : System ρ) (i : Nat) (a : Attempt) (delay left : Nat) (err : IoError) : Option (System ρ) :=
  match left with
  | 0 => s.fail i a delay (connectError err)
  | left + 1 => some (s.connectNext i left)

def handshakeCommands (cfg : Config) : List Command :=
  [.variadic (text "HELLO") [.text (text "3")]] ++
  (if cfg.password = [] then []
    else if cfg.username = [] then [.variadic (text "AUTH") [.text cfg.password]]
    else [.variadic (text "AUTH") [.text cfg.username, .text cfg.password]]) ++
  (if cfg.database = 0 then [] else [.variadic (text "SELECT") [.integer cfg.database]]) ++
  (if cfg.clientName = [] then [] else [.variadic (text "CLIENT") [.text (text "SETNAME"), .text cfg.clientName]])

section Handshake

variable [Inhabited ρ]

/-- The replies of the handshake are ignored unless they are errors. -/
def handshakeSlot (_ : Nat) (msg : Message) : Except ErrorInfo ρ := slotFromMessage (fun _ => .ok default) msg

/-- How `do_connect` reports the error that ended a handshake. -/
def handshakeError : HandshakeError → ErrorInfo
  | .io .timedOut => .client .handshakeTimeout
  | .io .operationAborted => .client .operationAborted
  | .io (.other message) => { code := .client .handshakeFailed, detail := message }
  | .code (.protocol errc) => { code := .protocol errc }
  | .code (.client errc) => .client errc
  | .code code => { code := .client .handshakeFailed, detail := text code.message }

/-- How a failed operation ends the handshake. -/
def handshakeIo : IoError → HandshakeError
  | .operationAborted => .code (.client .operationAborted)
  | _ => .code (.client .handshakeFailed)

/-- `clear_all` and the return of `do_connect` with the error it was called with. -/
def failHandshake (s : System ρ) (i : Nat) (a : Attempt) (delay : Nat) (err : ErrorInfo) : Option (System ρ) :=
  (s.clearAll fuel err).bind fun s => s.fail i a delay err

/-- `do_connect` with the result of the handshake. -/
def afterHandshake (s : System ρ) (i : Nat) (a : Attempt) (delay : Nat) (slot : SinkRef) :
    Except HandshakeError Unit → Option (System ρ)
  | .error err => s.failHandshake fuel i a delay (handshakeError err)
  | .ok _ =>
      if s.sinks.isComplete slot then some (s.setStage i (.waitingSlot slot))
      else s.failHandshake fuel i a delay
        { code := .client .handshakeFailed, detail := text "handshake slot incomplete" }

/-- `do_handshake` returns, through `with_timeout` if a timeout is set. -/
def endHandshake (s : System ρ) (i : Nat) (a : Attempt) (delay : Nat) (slot : SinkRef)
    (result : Except HandshakeError Unit) : Option (System ρ) :=
  if s.cfg.requestTimeout.isSome ∨ s.cfg.connectTimeout.isSome then some (s.setStage i (.joining slot result))
  else s.afterHandshake fuel i a delay slot result

/-- The loop of the second phase, and the stop check behind it. -/
def handshakeRead (s : System ρ) (i : Nat) (a : Attempt) (delay : Nat) (slot : SinkRef) : Option (System ρ) :=
  if s.stopRequested a.token then
    s.endHandshake fuel i a delay slot (.error (.code (.client .operationAborted)))
  else if s.sinks.isComplete slot then s.endHandshake fuel i a delay slot (.ok ())
  else some ({ s with parser := s.nextRead.1 }.setStage i (.reading slot s.nextRead.2))

/-- The loop of the first phase. -/
def handshakeWrite (s : System ρ) (i : Nat) (a : Attempt) (delay : Nat) (slot : SinkRef) : Option (System ρ) :=
  if s.stopRequested a.token then s.handshakeRead fuel i a delay slot
  else
    match s.nextWrite with
    | some call => some ((s.note (.written call.sink s.socket)).setStage i (.writing slot call))
    | none => s.handshakeRead fuel i a delay slot

/-- `do_connect` with a connected socket: the handshake is queued and its first octets are written. -/
def beginHandshake (s : System ρ) (i : Nat) (a : Attempt) (delay : Nat) : Option (System ρ) :=
  if s.stopRequested a.token then s.fail i a delay (.client .operationAborted)
  else
    let req := Request.ofCommands (handshakeCommands s.cfg)
    let (slot, sinks) := s.sinks.alloc (Sink.forRequest handshakeSlot req)
    match s.pipeline.push req slot ⊤ with
    | none => (s.queue s.pipeline sinks).fail i a delay (.client .queueFull)
    | some pipeline =>
        ((s.queue pipeline sinks).setStage i (.handshaking slot)).handshakeWrite fuel i a delay slot

/-- A tree is left in the parser by a `do_read` whose octets were read before the reset of the attempt. -/
def staleFor (s : System ρ) (a : Attempt) : Bool :=
  match s.leftover with
  | none => false
  | some issued => issued < a.reset

/-- `do_handshake` with some octets, from `commit` on. -/
def handshakeChunk (s : System ρ) (i : Nat) (a : Attempt) (delay : Nat) (memory : Memory) (slot : SinkRef)
    (octets : Bytes) : Option (System ρ) :=
  let (outcome, x) := s.consume fuel memory octets fun sinks => sinks.isComplete slot
  let read := ((s.note (.parsed (s.staleFor a))).consumed x).setStage i (.handshaking slot)
  match outcome with
  | .faulty => none
  | .invalid errc => read.endHandshake fuel i a delay slot (.error (.code (.protocol errc)))
  | .unsolicited => read.endHandshake fuel i a delay slot (.error (.code (.client .unsolicitedMessage)))
  | .starved | .complete => read.handshakeRead fuel i a delay slot

/-- OPEN, and the parser is reset once more. -/
def setOpen (s : System ρ) : System ρ :=
  let opened := { (s.note (.opened s.pipeline.pendingCount)).setState .opened with
    reconnectCount := 0, generation := s.generation + 1 }
  (opened.emit .connected .handshake s.state .opened none).resetParser

/-- `do_connect` with the replies of the handshake; the first error among them decides. -/
def concludeHandshake (s : System ρ) (i : Nat) (a : Attempt) (delay : Nat) (slot : SinkRef) : Option (System ρ) :=
  match ((s.sinks.cells[slot]?).bind fun sink => sink.response.result).map Sink.firstError with
  | none => none
  | some none => s.setOpen.succeed fuel i a delay
  | some (some err) =>
      match err.code with
      | .server _ => s.fail i a delay err
      | _ => s.failHandshake fuel i a delay { code := .client .handshakeFailed, detail := err.toString }

def attemptStart (s : System ρ) (i : Nat) : Option (System ρ) :=
  match s.attempts[i]? with
  | some { owner := .caller, stage := .spawned, token := token, .. } =>
      if s.stopRequested token then some (s.setStage i (.finished (.error (.client .operationAborted))))
      else some (s.beginResolve i)
  | _ => none

/-- `do_connect` behind the wait it is in. -/
def attemptResume (s : System ρ) (i : Nat) (oracle : Oracle) : Option (System ρ) :=
  match s.attempts[i]? with
  | none => none
  | some a =>
      match a.stage with
      | .resolving (.ready (.error err)) => s.fail i a oracle.delay (resolveError err)
      | .resolving (.ready (.ok 0)) => s.fail i a oracle.delay (.client .resolveFailed)
      | .resolving (.ready (.ok (left + 1))) =>
          if s.stopRequested a.token then s.fail i a oracle.delay (.client .operationAborted)
          else some (s.connectNext i left)
      | .connecting left (.ready (.error err)) => s.connectFailed i a oracle.delay left err
      | .connecting left (.ready (.ok _)) =>
          match oracle.options, s.socketOpen with
          | none, true => s.beginHandshake fuel i a oracle.delay
          | none, false => none
          | some err, _ => s.closeSocket.connectFailed i a oracle.delay left err
      | .writing slot { op := .ready (.ok n), .. } =>
          match s.pipeline.onWriteDone n with
          | none => none
          | some pipeline =>
              ({ s with pipeline := pipeline }.setStage i (.handshaking slot)).handshakeWrite fuel i a oracle.delay slot
      | .writing slot { op := .ready (.error err), .. } =>
          s.endHandshake fuel i a oracle.delay slot (.error (handshakeIo err))
      | .reading slot { op := .ready (.error err), .. } =>
          s.endHandshake fuel i a oracle.delay slot (.error (handshakeIo err))
      | .reading slot { op := .ready (.ok octets), .. } =>
          if octets = [] then
            s.endHandshake fuel i a oracle.delay slot (.error (.code (.client .connectionReset)))
          else s.handshakeChunk fuel i a oracle.delay oracle.memory slot octets
      | .joining slot result =>
          s.afterHandshake fuel i a oracle.delay slot (if a.timedOut then .error (.io .timedOut) else result)
      | .waitingSlot slot => s.concludeHandshake fuel i a oracle.delay slot
      | _ => none

end Handshake

/-! Operations complete. -/

/-- The runtime reports a time-out only where one is configured. -/
def admits (timeout : Option Nat) {α : Type} : Except IoError α → Bool
  | .error .timedOut => timeout.isSome
  | _ => true

def writerComplete (s : System ρ) (result : Except IoError Nat) : Option (System ρ) :=
  match s.writer with
  | .busy call => (call.complete result).map fun call => { s with writer := .busy call }
  | _ => none

def readerComplete (s : System ρ) (result : Except IoError Bytes) : Option (System ρ) :=
  match s.reader with
  | .busy call => (call.complete result).map fun call => { s with reader := .busy call }
  | _ => none

def attemptComplete (s : System ρ) (i : Nat) (completion : Completion) : Option (System ρ) :=
  match s.attempts[i]? with
  | none => none
  | some a =>
      match a.stage, completion with
      | .resolving .pending, .resolved result =>
          if admits s.cfg.resolveTimeout result then some (s.setStage i (.resolving (.ready result))) else none
      | .connecting left .pending, .connected result =>
          if admits s.cfg.connectTimeout result then some (s.setStage i (.connecting left (.ready result))) else none
      | .writing slot call, .wrote result =>
          (call.complete result).map fun call => s.setStage i (.writing slot call)
      | .reading slot call, .read result =>
          (call.complete result).map fun call => s.setStage i (.reading slot call)
      | _, _ => none

/-- The timer of `with_timeout` fires first: the handshake is cancelled and waited for. -/
def attemptTimeout (s : System ρ) (i : Nat) : Option (System ρ) :=
  match s.attempts[i]? with
  | some { stage := .writing .., timedOut := false, .. } | some { stage := .reading .., timedOut := false, .. } =>
      if s.cfg.requestTimeout.isSome ∨ s.cfg.connectTimeout.isSome then
        some (s.setAttempt i fun a => { a.abort with timedOut := true })
      else none
  | _ => none

end System

/-! Steps. -/

inductive Act (ρ : Type) where
  | tick (elapsed : Nat)
  | connect
  | connectResume (i : Nat)
  | connectClose (i : Nat)
  | close
  | closeResume
  | enqueue (req : Request) (slotFromMessage : Nat → Message → Except ErrorInfo ρ)
  | actorStart
  | actorEnd
  | actorHandler
  | writerRun (cause : Cause)
  | writerComplete (result : Except IoError Nat)
  | writerResume
  | readerRun (cause : Cause)
  | readerComplete (result : Except IoError Bytes)
  | readerResume (memory : Memory := .zeroed)
  | controlRun (cause : Cause) (delay : Nat)
  | attemptStart (i : Nat)
  | attemptComplete (i : Nat) (completion : Completion)
  | attemptTimeout (i : Nat)
  | attemptResume (i : Nat) (oracle : Oracle)

namespace System

variable {ρ : Type} [FloatChars] [Inhabited ρ] (fuel : Nat)

def step (s : System ρ) : Act ρ → Option (System ρ)
  | .tick elapsed => some { s with now := s.now + elapsed }
  | .connect => s.connect
  | .connectResume i => s.connectResume i
  | .connectClose i => s.connectClose fuel i
  | .close => s.close fuel
  | .closeResume => s.closeResume
  | .enqueue req slotFromMessage => s.enqueue fuel req slotFromMessage
  | .actorStart => s.actorStart
  | .actorEnd => s.actorEnd fuel
  | .actorHandler => s.actorHandler fuel
  | .writerRun cause => s.inActor fun token => s.writerRun token cause
  | .writerComplete result => s.writerComplete result
  | .writerResume => s.inActor fun token => s.writerResume fuel token
  | .readerRun cause => s.inActor fun token => s.readerRun token cause
  | .readerComplete result => s.readerComplete result
  | .readerResume memory => s.inActor fun token => s.readerResume fuel token memory
  | .controlRun cause delay => s.inActor fun token => s.controlRun fuel token cause delay
  | .attemptStart i => s.attemptStart i
  | .attemptComplete i completion => s.attemptComplete i completion
  | .attemptTimeout i => s.attemptTimeout i
  | .attemptResume i oracle => s.attemptResume fuel i oracle

/-- The connection after a run from its construction. -/
def Reached (cfg : Config) (s : System ρ) : Prop :=
  ∃ actions, runFrom (step fuel) (start cfg) actions = some s

end System

end Rediscoro.Connection

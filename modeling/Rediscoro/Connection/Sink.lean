import Rediscoro.Connection.Errors
import Rediscoro.Pipeline.PendingResponse

/-! The sinks behind the pipeline of a connection.

Every call of `enqueue` makes a sink with adapters of its own, so what a message
becomes in a slot is a field here. A sink of a traced request also holds the
context that was installed when the request was accepted, and once it is complete
the finish event that its completion emitted.
-/

set_option autoImplicit false

namespace Rediscoro.Connection

open Rediscoro.Semantics Rediscoro.Resp3 Rediscoro.Pipeline

inductive RequestKind where
  | user | handshake
  deriving DecidableEq, Repr

/-- `request_trace_info`. -/
structure TraceInfo where
  id : Nat
  kind : RequestKind := .user
  commandCount : Nat
  wireBytes : Nat
  deriving DecidableEq, Repr

/-- `request_trace_finish`, but for the time it took. -/
structure TraceFinish where
  info : TraceInfo
  okCount : Nat
  errorCount : Nat
  primaryError : Option ErrorCode
  primaryErrorDetail : Bytes
  deriving DecidableEq, Repr

/-- Which of the two hooks are set. -/
structure TraceHooks where
  onStart : Bool := false
  onFinish : Bool := false
  deriving DecidableEq, Repr

def TraceHooks.enabled (hooks : TraceHooks) : Bool := hooks.onStart || hooks.onFinish

structure TraceContext where
  hooks : TraceHooks
  info : TraceInfo
  deriving DecidableEq, Repr

variable {ρ : Type}

structure Sink (ρ : Type) where
  slotFromMessage : Nat → Message → Except ErrorInfo ρ
  response : PendingResponse slotFromMessage
  context : Option TraceContext := none
  /-- `trace_finished_`, with the event that was emitted when it was set. -/
  finish : Option TraceFinish := none

namespace Sink

/-- The sink of a request, before anything is delivered. -/
def forRequest (slotFromMessage : Nat → Message → Except ErrorInfo ρ) (req : Request) : Sink ρ :=
  { slotFromMessage := slotFromMessage, response := .forRequest req }

def setTraceContext (sink : Sink ρ) (context : TraceContext) : Sink ρ :=
  { sink with context := some context, finish := none }

def isOk : Except ErrorInfo ρ → Bool
  | .ok _ => true
  | .error _ => false

def firstError : List (Except ErrorInfo ρ) → Option ErrorInfo
  | [] => none
  | .ok _ :: rest => firstError rest
  | .error e :: _ => some e

/-- The finish event of a request whose slots are all filled. -/
def summarize (info : TraceInfo) (results : List (Except ErrorInfo ρ)) : TraceFinish :=
  { info := info
    okCount := results.countP isOk
    errorCount := results.countP fun slot => !isOk slot
    primaryError := (firstError results).map ErrorInfo.code
    primaryErrorDetail := ((firstError results).map ErrorInfo.detail).getD [] }

def emitTraceFinish (sink : Sink ρ) (results : List (Except ErrorInfo ρ)) : Sink ρ :=
  match sink.context with
  | none => sink
  | some context =>
      if context.hooks.enabled ∧ context.hooks.onFinish ∧ sink.finish = none then
        { sink with finish := some (summarize context.info results) }
      else sink

/-- One more slot; the one that completes the sink emits its finish event. -/
def accept (sink : Sink ρ) (slot : Except ErrorInfo ρ) : Sink ρ :=
  if sink.response.result.isSome then sink
  else
    match (sink.response.accept slot).result with
    | none => { sink with response := sink.response.accept slot }
    | some results => { sink with response := sink.response.accept slot }.emitTraceFinish results

instance : ResponseSink (Sink ρ) Message ErrorInfo where
  expectedReplies sink := sink.response.expected
  isComplete sink := sink.response.result.isSome
  doDeliver sink msg := sink.accept (sink.slotFromMessage sink.response.slots.length msg)
  doDeliverError sink err := sink.accept (.error err)

end Sink

/-- `slot_from_message<T>`, given how a message that is no error is adapted. -/
def slotFromMessage (adapt : Message → Except ErrorInfo ρ) (msg : Message) : Except ErrorInfo ρ :=
  match msg with
  | .scalar (.simpleError detail) _ => .error { code := .server .redisError, detail := detail }
  | .scalar (.bulkError detail) _ => .error { code := .server .redisError, detail := detail }
  | _ => adapt msg

end Rediscoro.Connection

import Mathlib.Order.Lattice.Nat
import Mathlib.Order.WithBot
import Rediscoro.Pipeline.Sink
import Rediscoro.Resp3.Kind
import Rediscoro.Semantics.Octets

/-! The request pipeline: two queues between the callers and the socket.

A request waits in the first queue until its octets are written and then in the
second until its replies have arrived. `Option` results say where the source
answers `false` (a full queue) or where one of its assertions would fail.
-/

set_option autoImplicit false

namespace Rediscoro.Pipeline

open Rediscoro.Semantics Rediscoro.Resp3

/-- `request`: the wire octets of its commands and how many there are. -/
structure Request where
  wire : Bytes := []
  commandCount : Nat := 0
  deriving DecidableEq, Repr

namespace Request

def replyCount (req : Request) : Nat := req.commandCount

def appendCommandHeader (wire : Bytes) (argc : Nat) : Bytes := wire ++ (kindToPrefix .array :: decimal argc ++ crlf)

def appendBulkString (wire argument : Bytes) : Bytes :=
  wire ++ (kindToPrefix .bulkString :: decimal argument.length ++ crlf ++ argument ++ crlf)

/-- One more command; the source's overloads differ only in how they get its arguments. -/
def push (req : Request) (argv : List Bytes) : Request :=
  { wire := argv.foldl appendBulkString (appendCommandHeader req.wire argv.length)
    commandCount := req.commandCount + 1 }

end Request

/-- A deadline; `time_point::max()` is the top element. -/
abbrev TimePoint := WithTop Nat

structure PendingItem where
  req : Request
  sink : SinkRef
  written : Nat
  deadline : TimePoint
  written_le : written ≤ req.wire.length
  deriving DecidableEq

/-- A request as it is queued, before any of its octets is written. -/
def PendingItem.unsent (req : Request) (sink : SinkRef) (deadline : TimePoint) : PendingItem :=
  ⟨req, sink, 0, deadline, Nat.zero_le _⟩

structure AwaitingItem where
  sink : SinkRef
  deadline : TimePoint
  deriving DecidableEq

structure Limits where
  maxRequests : Nat := 16384
  maxPendingWriteBytes : Nat := 64 * 1024 * 1024

end Rediscoro.Pipeline

namespace Rediscoro

open Rediscoro.Semantics Rediscoro.Pipeline

structure Pipeline where
  pendingWrite : List PendingItem := []
  awaitingRead : List AwaitingItem := []
  limits : Pipeline.Limits := {}
  pendingWriteBytes : Nat := 0

namespace Pipeline

def pendingCount (p : Pipeline) : Nat := p.pendingWrite.length + p.awaitingRead.length

def hasPendingWrite (p : Pipeline) : Bool := !p.pendingWrite.isEmpty

def hasPendingRead (p : Pipeline) : Bool := !p.awaitingRead.isEmpty

/-- `none` where the source returns false: nothing is queued then. -/
def push (p : Pipeline) (req : Request) (sink : SinkRef) (deadline : TimePoint) : Option Pipeline :=
  if p.limits.maxRequests ≤ p.pendingCount then none
  else if p.limits.maxPendingWriteBytes < req.wire.length ∨
      p.limits.maxPendingWriteBytes - req.wire.length < p.pendingWriteBytes then none
  else
    some { p with
      pendingWriteBytes := p.pendingWriteBytes + req.wire.length
      pendingWrite := p.pendingWrite ++ [.unsent req sink deadline] }

/-- A request is refused exactly when it would exceed a limit. -/
theorem push_eq_none_iff {p : Pipeline} {req : Request} {sink : SinkRef} {deadline : TimePoint} :
    p.push req sink deadline = none ↔
      p.limits.maxRequests < p.pendingCount + 1 ∨
        p.limits.maxPendingWriteBytes < p.pendingWriteBytes + req.wire.length := by
  unfold push
  split
  · simp only [true_iff]
    omega
  · split
    · simp only [true_iff]
      omega
    · simp only [reduceCtorEq, false_iff]
      omega

theorem push_eq_some {p q : Pipeline} {req : Request} {sink : SinkRef} {deadline : TimePoint}
    (pushed : p.push req sink deadline = some q) :
    q = { p with
      pendingWriteBytes := p.pendingWriteBytes + req.wire.length
      pendingWrite := p.pendingWrite ++ [.unsent req sink deadline] } := by
  unfold push at pushed
  split at pushed
  · cases pushed
  · split at pushed
    · cases pushed
    · exact (Option.some.inj pushed).symm

def PendingItem.unwritten (item : PendingItem) : Bytes := item.req.wire.drop item.written

/-- `none` where the source asserts that a write is pending. -/
def nextWriteBuffer (p : Pipeline) : Option Bytes := p.pendingWrite.head?.map PendingItem.unwritten

/-- `none` where one of the source's assertions fails. -/
def onWriteDone (p : Pipeline) (n : Nat) : Option Pipeline :=
  match p.pendingWrite with
  | [] => none
  | front :: rest =>
      if fits : n ≤ front.req.wire.length - front.written ∧ n ≤ p.pendingWriteBytes then
        if front.written + n = front.req.wire.length then
          some { p with
            pendingWriteBytes := p.pendingWriteBytes - n
            awaitingRead := p.awaitingRead ++ [⟨front.sink, front.deadline⟩]
            pendingWrite := rest }
        else
          some { p with
            pendingWriteBytes := p.pendingWriteBytes - n
            pendingWrite :=
              { front with
                written := front.written + n
                written_le := by have := front.written_le; have := fits.1; omega } :: rest }
      else none

def nextDeadline (p : Pipeline) : TimePoint :=
  min ((p.pendingWrite.head?.map PendingItem.deadline).getD ⊤) ((p.awaitingRead.head?.map AwaitingItem.deadline).getD ⊤)

def hasExpired (p : Pipeline) (now : Nat) : Bool := p.nextDeadline ≠ ⊤ && p.nextDeadline ≤ (now : TimePoint)

section Replies

variable {σ μ ε : Type} [ResponseSink σ μ ε]

/-- `on_message` and `on_error` differ in what they deliver only; `none` where
the source asserts that a reply is awaited. -/
def dispatch (p : Pipeline) (delivery : Delivery μ ε) (sinks : Sinks σ μ ε) : Option (Pipeline × Sinks σ μ ε) :=
  match p.awaitingRead with
  | [] => none
  | front :: rest =>
      let sinks := sinks.deliver front.sink delivery
      some (if sinks.isComplete front.sink then { p with awaitingRead := rest } else p, sinks)

def onMessage (p : Pipeline) (msg : μ) (sinks : Sinks σ μ ε) : Option (Pipeline × Sinks σ μ ε) :=
  p.dispatch (.message msg) sinks

def onError (p : Pipeline) (err : ε) (sinks : Sinks σ μ ε) : Option (Pipeline × Sinks σ μ ε) :=
  p.dispatch (.error err) sinks

/-- `none` when some `fail_all` is still running after `fuel` rounds. -/
def clearAll (fuel : Nat) (p : Pipeline) (err : ε) (sinks : Sinks σ μ ε) : Option (Pipeline × Sinks σ μ ε) :=
  match sinks.failEach fuel err (p.pendingWrite.map PendingItem.sink) with
  | none => none
  | some sinks =>
      match sinks.failEach fuel err (p.awaitingRead.map AwaitingItem.sink) with
      | none => none
      | some sinks => some ({ p with pendingWrite := [], pendingWriteBytes := 0, awaitingRead := [] }, sinks)

end Replies

end Pipeline

end Rediscoro

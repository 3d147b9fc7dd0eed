import Rediscoro.Connection.Errors
import Rediscoro.Pipeline.Queue
import Rediscoro.Resp3.Builder
import Rediscoro.Resp3.ZeroCopy

/-! The loop that turns committed octets into deliveries.

`do_read` and the handshake run the same loop over the parser and the pipeline.
They differ in when they have enough: `do_read` parses until the parser wants
more octets, the handshake stops as soon as its sink is complete.

A message is delivered while its views are still those of the parser's tree. Where
a read has moved the buffer under a message that was unfinished, the views point
into storage that is gone; `build_message` copies them all the same and the sink is
given the message. What is found through them, by the assertion on a verbatim
string or by the sink, is the argument `memory`.
-/

set_option autoImplicit false

namespace Rediscoro.Connection

open Rediscoro.Semantics Rediscoro.Resp3 Rediscoro.Pipeline

/-- What the loop works on. -/
structure Exchange (σ : Type) where
  parser : Parser Buffer View
  pipeline : Pipeline
  sinks : Sinks σ Message ErrorInfo

inductive Outcome where
  | starved
  | complete
  | unsolicited
  | invalid (errc : ProtocolErrc)
  /-- A failed assertion or an exception. Of the texts only a verbatim string has an assertion. -/
  | faulty
  deriving DecidableEq, Repr

namespace Exchange

variable {σ : Type} [ResponseSink σ Message ErrorInfo]

/-- A parser error goes to the request in front, if there is one. -/
def onError (x : Exchange σ) (errc : ProtocolErrc) : Exchange σ :=
  if x.pipeline.hasPendingRead then
    match x.pipeline.onError { code := .protocol errc } x.sinks with
    | none => x
    | some (pipeline, sinks) => { x with pipeline := pipeline, sinks := sinks }
  else x

variable [FloatChars] (fuel : Nat) (memory : Memory) (enough : Sinks σ Message ErrorInfo → Bool)

/-- A complete value: build its message, deliver it, and reclaim the tree. -/
def deliver (x : Exchange σ) (root : Nat) : Pass (Exchange σ) (Outcome × Exchange σ) :=
  match build fuel (x.parser.contents memory) root with
  | some (.ok msg) =>
      match x.pipeline.onMessage msg x.sinks with
      | none => .leave (.faulty, x)
      | some (pipeline, sinks) =>
          let x := { parser := x.parser.reclaim, pipeline := pipeline, sinks := sinks }
          if enough sinks then .leave (.complete, x) else .again x
  | _ => .leave (.faulty, x)

def dispatchPass (x : Exchange σ) : Pass (Exchange σ) (Outcome × Exchange σ) :=
  match x.parser.parseOne with
  | (.error (.protocol errc), parser) => .leave (.invalid errc, onError { x with parser := parser } errc)
  | (.error _, parser) => .leave (.faulty, { x with parser := parser })
  | (.ok none, parser) => .leave (.starved, { x with parser := parser })
  | (.ok (some root), parser) =>
      if x.pipeline.hasPendingRead then deliver fuel memory enough { x with parser := parser } root
      else .leave (.unsolicited, { x with parser := parser })

omit [FloatChars] in
theorem deliver_again {x next : Exchange σ} {root : Nat} (again : deliver fuel memory enough x root = .again next) :
    next.parser = x.parser.reclaim := by
  unfold deliver at again
  split at again
  · split at again
    · cases again
    · split at again
      · cases again
      · cases again
        rfl
  · cases again

/-- Every value uses up some octets. -/
theorem dispatchPass_decreases :
    Decreases (dispatchPass (σ := σ) fuel memory enough) fun x => x.parser.data.length := by
  intro x next again
  unfold dispatchPass at again
  split at again
  · cases again
  · cases again
  · cases again
  · rename_i root parser parsed
    split at again
    · simp only [deliver_again fuel memory enough again, Parser.data_reclaim]
      exact Parser.parseOne_root parsed
    · cases again

def dispatch (x : Exchange σ) : Outcome × Exchange σ := run (dispatchPass_decreases fuel memory enough) x

end Exchange

end Rediscoro.Connection

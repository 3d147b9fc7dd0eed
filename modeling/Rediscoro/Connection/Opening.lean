import Rediscoro.Connection.Link
import Rediscoro.Connection.Open
import Rediscoro.Connection.Resets
import Rediscoro.Connection.Writes

/-! A connection that was just opened.

`do_connect` sets OPEN when the replies of its handshake are complete. By then nothing is left in the
pipeline, nothing counts as unwritten, and the parser has just been reset. What is left of the operations
of an earlier connection has failed, unless it completed in the same instant as that connection was cleared.
-/

set_option autoImplicit false

namespace Rediscoro.Pipeline

open Rediscoro.Semantics

/-- `pending_write_bytes_` counts what is still to be written. -/
def Weighed (p : Pipeline) : Prop := p.pendingWriteBytes = unwrittenBytes p.pendingWrite

variable {p q : Pipeline}

theorem Weighed.push (weighed : p.Weighed) {req : Request} {ref : SinkRef} {deadline : TimePoint}
    (pushed : p.push req ref deadline = some q) : q.Weighed := by
  have total : p.pendingWriteBytes = (p.pendingWrite.map fun item => item.req.wire.length - item.written).sum := weighed
  rw [push_eq_some pushed]
  simp [Weighed, unwrittenBytes, PendingItem.unsent, total]

theorem Weighed.onWriteDone (weighed : p.Weighed) {n : Nat} (done : p.onWriteDone n = some q) : q.Weighed := by
  unfold Pipeline.onWriteDone at done
  split at done
  · cases done
  · rename_i front rest queue
    have total : p.pendingWriteBytes = (front.req.wire.length - front.written) + unwrittenBytes rest := by
      rw [weighed, queue, unwrittenBytes, List.map_cons, List.sum_cons]
      rfl
    split at done
    · split at done
      · cases done
        simp only [Weighed]
        omega
      · cases done
        simp only [Weighed, unwrittenBytes, List.map_cons, List.sum_cons] at total ⊢
        omega
    · cases done

/-- A pipeline without requests is as it was made. -/
theorem Weighed.empty (weighed : p.Weighed) (none : p.refs = []) : p = { limits := p.limits } := by
  obtain ⟨pending, awaiting⟩ := List.append_eq_nil_iff.mp none
  rw [List.map_eq_nil_iff] at pending awaiting
  rw [Weighed, pending] at weighed
  cases p
  cases pending
  cases awaiting
  cases weighed
  rfl

section Replies

variable {σ μ ε : Type} [ResponseSink σ μ ε] {sinks after : Sinks σ μ ε}

theorem Weighed.dispatch (weighed : p.Weighed) {delivery : Delivery μ ε}
    (dispatched : p.dispatch delivery sinks = some (q, after)) : q.Weighed := by
  unfold Pipeline.dispatch at dispatched
  split at dispatched
  · cases dispatched
  · obtain ⟨rfl, -⟩ := Prod.mk.inj (Option.some.inj dispatched)
    split <;> exact weighed

theorem clearAll_weighed {fuel : Nat} {err : ε} (cleared : p.clearAll fuel err sinks = some (q, after)) :
    q.Weighed := by
  unfold clearAll at cleared
  split at cleared
  · cases cleared
  · split at cleared
    · cases cleared
    · cases cleared
      rfl

end Replies

end Rediscoro.Pipeline

namespace Rediscoro.Connection

open Rediscoro.Semantics Rediscoro.Resp3 Rediscoro.Pipeline

def Stage.isWaitingSlot : Stage → Bool
  | .waitingSlot _ => true
  | _ => false

namespace System

variable {ρ : Type} {s next : System ρ} {fuel : Nat} {err : ErrorInfo}

/-- The `do_connect` is about to look at the replies of its handshake. -/
def concludes (s : System ρ) (i : Nat) : Bool := (s.attempts[i]?).any fun a => a.stage.isWaitingSlot

/-- Nothing has happened to the connection since it was opened, and what is left of earlier operations has failed. -/
structure Untouched (s : System ρ) : Prop where
  opened : s.state = .opened
  pipeline : s.pipeline = { limits := s.pipeline.limits }
  parser : s.parser = s.parser.reset
  writer : ∀ call, s.writer = .busy call → call.live = false
  reader : ∀ call, s.reader = .busy call → call.promising = false

theorem clearAll_weighs (clears : s.clearAll fuel err = some next) : next.pipeline.Weighed := by
  obtain ⟨pipeline, sinks, cleared, rfl⟩ := clearAll_eq clears
  exact Pipeline.clearAll_weighed cleared

theorem pipeline_closeSocket (s : System ρ) : s.closeSocket.pipeline = s.pipeline := by
  unfold closeSocket
  split <;> rfl

theorem transitionToClosed_weighs (closes : s.transitionToClosed fuel = some next) : next.pipeline.Weighed := by
  obtain ⟨cleared, clears, rfl⟩ := Option.map_eq_some_iff.mp closes
  have same : (cleared.closeSocket.emit .closed .close s.state .closed none).pipeline = cleared.pipeline :=
    pipeline_closeSocket cleared
  rw [same]
  exact clearAll_weighs clears

theorem pipeline_awaitActor (s : System ρ) : s.awaitActor.pipeline = s.pipeline := by
  unfold awaitActor
  split <;> rfl

section Moves

variable [FloatChars]

theorem consume_weighed {memory : Memory} {octets : Bytes} {enough : Sinks (Sink ρ) Message ErrorInfo → Bool}
    {outcome : Outcome} {x : Exchange (Sink ρ)} (weighed : s.pipeline.Weighed)
    (parsed : s.consume fuel memory octets enough = (outcome, x)) :
    x.pipeline.Weighed := by
  have kept := Exchange.dispatch_invariant (fun y : Exchange (Sink ρ) => y.pipeline.Weighed) (fun _ held => held)
    (fun _ held => held) (fun _ _ _ _ held dispatched => held.dispatch dispatched) fuel memory enough
    (x := ⟨{ s.parser with input := (s.parser.input.write octets).commit octets.length }, s.pipeline, s.sinks⟩) weighed
  rw [consume] at parsed
  rwa [parsed] at kept

variable [Inhabited ρ]

theorem Move.weighed (move : Move fuel s next) (weighed : s.pipeline.Weighed) : next.pipeline.Weighed := by
  cases move with
  | @fail cleared err opened clears =>
    have same : cleared.closeSocket.wakeLoops.pipeline = cleared.pipeline := pipeline_closeSocket cleared
    rw [same]
    exact clearAll_weighs clears
  | @close cleared unclosed clears =>
    have same : cleared.closeSocket.wakeLoops.pipeline = cleared.pipeline := pipeline_closeSocket cleared
    rw [pipeline_awaitActor, same]
    exact clearAll_weighs clears
  | closeResume resumed =>
    unfold System.closeResume at resumed
    split at resumed
    · cases resumed
      exact weighed
    · cases resumed
  | actorEnd runs writer reader control closes => exact transitionToClosed_weighs closes
  | actorCloses ended unclosed closes =>
    have kept := transitionToClosed_weighs closes
    exact kept
  | enqueue queued =>
    cases enqueue_cases queued with
    | rejected refused same failed => exact weighed
    | queued opened pushed => exact weighed.push pushed
  | writerDone runs busy done applied => exact weighed.onWriteDone applied
  | readerChunk runs busy arrived nonempty parsed => exact consume_weighed weighed parsed
  | push found unfinished before pushed => exact weighed.push pushed
  | wrote found here done applied => exact weighed.onWriteDone applied
  | read found here arrived parsed => exact consume_weighed weighed parsed
  | clear found ends clears => exact clearAll_weighs clears
  | @connectNext i a left found unfinished before =>
    have same : (s.connectNext i left).pipeline = s.closeSocket.pipeline := rfl
    rw [same, pipeline_closeSocket]
    exact weighed
  | closeSocket found unfinished before =>
    rw [pipeline_closeSocket]
    exact weighed
  -- no other move touches the pipeline
  | _ => exact weighed

variable {cfg : Config}

theorem Reached.weighed (reached : Reached fuel cfg s) : s.pipeline.Weighed := by
  have moves := reached.moves
  clear reached
  induction moves with
  | refl => rfl
  | tail _ move ih => exact move.weighed ih

end Moves

section Opening

variable [FloatChars] {i : Nat} {a : Attempt} {delay : Nat}

omit [FloatChars] in
theorem fail_unopened (unopened : s.state ≠ .opened) (failed : s.fail i a delay err = some next) :
    next.state ≠ .opened := by
  unfold fail at failed
  split at failed
  · cases failed
    exact unopened
  · obtain ⟨token, -, went⟩ := inActor_runs failed
    cases went
    unfold reconnectFailed reconnectTop
    split
    · simp [failReconnect, setState, record]
    · split
      · simp [beginReconnect, beginResolve, resetParser, setState, setAttempt, record, note]
      · simp [failReconnect, setState, record]

omit [FloatChars] in
theorem failHandshake_unopened (unopened : s.state ≠ .opened)
    (failed : s.failHandshake fuel i a delay err = some next) :
    next.state ≠ .opened := by
  obtain ⟨cleared, clears, failed⟩ := Option.bind_eq_some_iff.mp failed
  apply fail_unopened _ failed
  rw [clearAll_state clears]
  exact unopened

omit [FloatChars] in
/-- What a handshake that was answered leaves behind when OPEN is set. -/
theorem succeed_opened (opened : next.state = .opened) (went : s.setOpen.succeed fuel i a delay = some next) :
    s.setOpen.Same next ∧ next.notes = s.setOpen.notes := by
  unfold succeed at went
  split at went
  · cases went
    exact ⟨⟨rfl, rfl, rfl, rfl, rfl⟩, rfl⟩
  · obtain ⟨token, -, went⟩ := inActor_runs went
    have stays := controlTop_stays (s := (s.setOpen.setStage i .gone).endReconnect.wakeLoops) rfl went opened
    exact ⟨⟨stays.1.pipeline, stays.1.sinks, stays.1.parser, stays.1.writer, stays.1.reader⟩, stays.2⟩

omit [FloatChars] in
theorem concludes_stage (concludes : s.concludes i = true) :
    ∃ a slot, s.attempts[i]? = some a ∧ a.stage = .waitingSlot slot := by
  obtain ⟨a, found, waiting⟩ := (Option.any_eq_true _ _).mp concludes
  cases here : a.stage with
  | waitingSlot slot => exact ⟨a, slot, found, here⟩
  | _ =>
    rw [here] at waiting
    cases waiting

variable [Inhabited ρ] {cfg : Config} {oracle : Oracle}

theorem opened_untouched (reached : Reached fuel cfg s) (concludes : s.concludes i = true)
    (stepped : s.step fuel (.attemptResume i oracle) = some next) (opened : next.state = .opened)
    (solo : ∀ entry ∈ next.log, entry.solo = true)
    (calm : ∀ note ∈ next.notes, note.calm = true ∧ note.unhurried = true) : next.Untouched := by
  obtain ⟨a, slot, found, here⟩ := concludes_stage concludes
  have extended := step_extends stepped
  have before : ∀ entry ∈ s.log, entry.solo = true := fun entry member => solo entry (extended.1.subset member)
  have exclusive := (reached.exclusive before).1
  have unfinished : a.unfinished = true := by simp [Attempt.unfinished, here]
  have unopened := Tenancy.unopened exclusive found unfinished
  simp only [step, attemptResume, found, here, concludeHandshake] at stepped
  split at stepped
  · cases stepped
  · rename_i result
    -- the handshake is complete, so it has left the pipeline
    have complete : s.sinks.isComplete slot = true := by
      obtain ⟨results, got, -⟩ := Option.map_eq_some_iff.mp result
      obtain ⟨sink, cell, set⟩ := Option.bind_eq_some_iff.mp got
      rw [Sinks.isComplete, cell]
      exact Option.isSome_of_eq_some set
    have empty := (reached.tenancy before).vacant exclusive found here complete
    obtain ⟨same, notes⟩ := succeed_opened opened stepped
    have writing := reached.writing before fun note member => (calm note (extended.2.subset member)).2
    exact
      { opened := opened
        pipeline := by
          rw [same.pipeline]
          exact reached.weighed.empty empty
        parser := by
          rw [same.parser]
          rfl
        writer := by
          intro call busy
          rw [same.writer] at busy
          -- a write that could still be applied would belong to a connection that is open already
          by_contra live
          exact unopened (writing.writer call busy (Bool.not_eq_false _ ▸ live)).1
        reader := by
          intro call busy
          rw [same.reader] at busy
          have noted : .reset s.readPromising ∈ next.notes := by
            rw [notes]
            exact List.mem_append_right _ (List.mem_singleton.mpr rfl)
          have quiet := (calm _ noted).1
          have reads : s.reader = .busy call := busy
          simpa [Note.calm, readPromising, reads] using quiet }
  · split at stepped
    · exact absurd opened (fail_unopened unopened stepped)
    · exact absurd opened (failHandshake_unopened unopened stepped)

end Opening

end System

end Rediscoro.Connection

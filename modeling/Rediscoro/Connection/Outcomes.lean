import Rediscoro.Connection.Hearing
import Rediscoro.Connection.Settlement

/-! What an accepted request ends with.

The slots of an accepted request are filled in order: first with what the values become that
`parse_one` returns while the request is in front of the queue, and then, if the connection is
lost or closed or the request is overdue, with one and the same error. The loop of `do_read`
delivers an error of its own only where the octets are no RESP3, and `handle_error` is called
with that error next.
-/

set_option autoImplicit false

namespace Rediscoro.Connection

open Rediscoro.Semantics Rediscoro.Resp3 Rediscoro.Pipeline

variable {ρ : Type} {slotFromMessage : Nat → Message → Except ErrorInfo ρ} {n : Nat}

namespace Sink

/-- A sink for `n` replies that has got these and no error. -/
def Plain (slotFromMessage : Nat → Message → Except ErrorInfo ρ) (n : Nat) (msgs : List Message) (sink : Sink ρ) :
    Prop :=
  sink.slotFromMessage = slotFromMessage ∧ sink.response.expected = n ∧
    sink.response.slots = msgs.mapIdx slotFromMessage

/-- A sink for `n` replies that has got these and behind them the error. -/
def EndedBy (slotFromMessage : Nat → Message → Except ErrorInfo ρ) (n : Nat) (msgs : List Message) (err : ErrorInfo)
    (sink : Sink ρ) : Prop :=
  sink.slotFromMessage = slotFromMessage ∧ sink.response.expected = n ∧
    ∃ k, sink.response.slots = msgs.mapIdx slotFromMessage ++ List.replicate k (.error err)

variable {sink : Sink ρ} {err : ErrorInfo} {msgs : List Message}

theorem Plain.endedBy (plain : sink.Plain slotFromMessage n msgs) (err : ErrorInfo) :
    sink.EndedBy slotFromMessage n msgs err := by
  obtain ⟨adapter, expected, slots⟩ := plain
  exact ⟨adapter, expected, 0, by simpa using slots⟩

theorem slotFromMessage_accept (unset : sink.response.result = none) (slot : Except ErrorInfo ρ) :
    (sink.accept slot).slotFromMessage = sink.slotFromMessage := by
  obtain ⟨finish, same⟩ := accept_eq unset slot
  rw [same]

theorem Plain.message (plain : sink.Plain slotFromMessage n msgs) (incomplete : ResponseSink.isComplete sink = false)
    (msg : Message) : (receive sink (.message msg)).Plain slotFromMessage n (msgs ++ [msg]) := by
  have unset : sink.response.result = none := by simpa [ResponseSink.isComplete] using incomplete
  obtain ⟨adapter, expects, held⟩ := plain
  let slot := sink.slotFromMessage sink.response.slots.length msg
  obtain ⟨expected, slots, -⟩ := slots_accept unset slot
  refine ⟨(slotFromMessage_accept unset slot).trans adapter, expected.trans expects, ?_⟩
  have position : sink.response.slots.length = msgs.length := by rw [held, List.length_mapIdx]
  have last : slot = slotFromMessage msgs.length msg := by rw [← adapter, ← position]
  rw [List.mapIdx_concat, ← held, ← last]
  exact slots

theorem EndedBy.error (ended : sink.EndedBy slotFromMessage n msgs err)
    (incomplete : ResponseSink.isComplete sink = false) :
    (receive sink (.error err)).EndedBy slotFromMessage n msgs err := by
  have unset : sink.response.result = none := by simpa [ResponseSink.isComplete] using incomplete
  obtain ⟨adapter, expects, k, held⟩ := ended
  obtain ⟨expected, slots, -⟩ := slots_accept unset (.error err)
  refine ⟨(slotFromMessage_accept unset _).trans adapter, expected.trans expects, k + 1, ?_⟩
  rw [List.replicate_succ', ← List.append_assoc, ← held]
  exact slots

end Sink

/-! One sink of a store. -/

/-- What holds of the sink behind a reference. -/
def At (sinks : Sinks (Sink ρ) Message ErrorInfo) (ref : SinkRef) (holds : Sink ρ → Prop) : Prop :=
  ∀ sink, sinks.cells[ref]? = some sink → holds sink

section Store

variable {sinks after : Sinks (Sink ρ) Message ErrorInfo} {ref : SinkRef} {holds later : Sink ρ → Prop}
  {err : ErrorInfo} {msgs : List Message}

theorem At.imp (at_ : At sinks ref holds) (weaker : ∀ sink, holds sink → later sink) : At sinks ref later :=
  fun sink found => weaker sink (at_ sink found)

theorem At.deliver {delivery : Delivery Message ErrorInfo} (at_ : At sinks ref holds)
    (received : ∀ sink, holds sink → ResponseSink.isComplete sink = false → later (receive sink delivery))
    (weaker : ∀ sink, holds sink → later sink) (other : SinkRef) : At (sinks.deliver other delivery) ref later := by
  intro sink found
  by_cases same : ref = other
  · subst same
    cases before : sinks.cells[ref]? with
    | none => simp [Sinks.deliver, before] at found
    | some old =>
      cases complete : ResponseSink.isComplete old with
      | true =>
        have unchanged : sinks.deliver ref delivery = sinks := by simp only [Sinks.deliver, before, complete, if_true]
        rw [unchanged] at found
        exact weaker sink (at_ sink found)
      | false =>
        rw [Sinks.cells_deliver_open before (by simp [complete])] at found
        cases found
        exact received old (at_ old before) complete
  · rw [Sinks.cells_deliver_of_ne same] at found
    exact weaker sink (at_ sink found)

theorem At.failAll {fuel : Nat} {other : SinkRef} (at_ : At sinks ref (Sink.EndedBy slotFromMessage n msgs err))
    (ended : sinks.failAll fuel err other = some after) : At after ref (Sink.EndedBy slotFromMessage n msgs err) := by
  induction fuel generalizing sinks with
  | zero => cases ended
  | succ fuel ih =>
    by_cases complete : sinks.isComplete other = true
    · have done : Sinks.failPass err other sinks = .leave sinks := by rw [Sinks.failPass, if_pos complete]
      rw [Sinks.failAll, iterate_leave done] at ended
      cases ended
      exact at_
    · have goes : Sinks.failPass err other sinks = .again (sinks.deliver other (.error err)) := by
        rw [Sinks.failPass, if_neg complete]
      rw [Sinks.failAll, iterate_again goes] at ended
      exact ih (at_.deliver (fun _ held open_ => held.error open_) (fun _ held => held) other) ended

theorem At.failEach {fuel : Nat} {refs : List SinkRef} (at_ : At sinks ref (Sink.EndedBy slotFromMessage n msgs err))
    (ended : sinks.failEach fuel err refs = some after) : At after ref (Sink.EndedBy slotFromMessage n msgs err) := by
  induction refs generalizing sinks with
  | nil =>
    cases ended
    exact at_
  | cons other rest ih =>
    rw [Sinks.failEach] at ended
    split at ended
    · cases ended
    · rename_i middle first
      exact ih (at_.failAll first) ended

theorem At.clearAll {fuel : Nat} {p q : Pipeline} (at_ : At sinks ref (Sink.EndedBy slotFromMessage n msgs err))
    (cleared : p.clearAll fuel err sinks = some (q, after)) :
    At after ref (Sink.EndedBy slotFromMessage n msgs err) := by
  unfold Pipeline.clearAll at cleared
  split at cleared
  · cases cleared
  · rename_i middle written
    split at cleared
    · cases cleared
    · rename_i last awaited
      cases cleared
      exact (at_.failEach written).failEach awaited

theorem At.dispatch {p q : Pipeline} {delivery : Delivery Message ErrorInfo} (at_ : At sinks ref holds)
    (received : ∀ sink, holds sink → ResponseSink.isComplete sink = false → later (receive sink delivery))
    (weaker : ∀ sink, holds sink → later sink) (dispatched : p.dispatch delivery sinks = some (q, after)) :
    At after ref later := by
  unfold Pipeline.dispatch at dispatched
  split at dispatched
  · cases dispatched
  · cases dispatched
    exact at_.deliver received weaker _

end Store

/-! The loop of `do_read`. -/

/-- The messages for a request that `do_read` builds of the values which `parse_one` returns: those that come while
the request is in front. The loop stops where none can be built or nobody waits. -/
def repliesFor {σ : Type} [ResponseSink σ Message ErrorInfo] (fuel : Nat) (memory : Memory) (ref : SinkRef) :
    List (Root Buffer View) → Pipeline → Sinks σ Message ErrorInfo → List Message
  | [], _, _ => []
  | root :: rest, pipeline, sinks =>
      match build fuel (root.parser.contents memory) root.index with
      | some (.ok msg) =>
          match pipeline.onMessage msg sinks with
          | none => []
          | some (next, after) =>
              (if pipeline.awaitingRead.head?.map AwaitingItem.sink = some ref then [msg] else []) ++
                repliesFor fuel memory ref rest next after
      | _ => []

theorem repliesFor_absent {σ : Type} [ResponseSink σ Message ErrorInfo] {ref : SinkRef} {pipeline : Pipeline}
    (absent : ref ∉ pipeline.refs) (fuel : Nat) (memory : Memory) (roots : List (Root Buffer View))
    (sinks : Sinks σ Message ErrorInfo) : repliesFor fuel memory ref roots pipeline sinks = [] := by
  induction roots generalizing pipeline sinks with
  | nil => rfl
  | cons root rest ih =>
    unfold repliesFor
    split
    · split
      · rfl
      · rename_i next after delivered
        have answered := Pipeline.dispatch_answered delivered
        have later : ref ∉ next.refs := by
          rw [Pipeline.refs, List.mem_append, answered.pendingWrite]
          rw [Pipeline.refs, List.mem_append] at absent
          exact fun member => absent (member.imp_right fun there => (answered.awaitingRead.map _).subset there)
        have other : pipeline.awaitingRead.head?.map AwaitingItem.sink ≠ some ref := by
          intro front
          obtain ⟨item, head, rfl⟩ := Option.map_eq_some_iff.mp front
          exact absent (List.mem_append_right _ (List.mem_map_of_mem (List.mem_of_mem_head? head)))
        rw [if_neg other, ih later, List.append_nil]
    · rfl

section Reading

variable {ref : SinkRef} {msgs : List Message} {pipeline : Pipeline} {sinks : Sinks (Sink ρ) Message ErrorInfo}

theorem onError_ended {x : Exchange (Sink ρ)} (plain : At x.sinks ref (Sink.Plain slotFromMessage n msgs))
    (errc : ProtocolErrc) :
    At (x.onError errc).sinks ref (Sink.EndedBy slotFromMessage n msgs { code := .protocol errc }) := by
  have ended : At x.sinks ref (Sink.EndedBy slotFromMessage n msgs { code := .protocol errc }) :=
    plain.imp fun _ held => held.endedBy _
  unfold Exchange.onError
  split
  · split
    · exact ended
    · rename_i pipeline sinks answered
      exact ended.dispatch (fun _ held open_ => held.error open_) (fun _ held => held) answered
  · exact ended

/-- A message goes to the request in front. -/
theorem onMessage_plain {next : Pipeline} {after : Sinks (Sink ρ) Message ErrorInfo} {msg : Message}
    (stocked : pipeline.Stocked sinks) (plain : At sinks ref (Sink.Plain slotFromMessage n msgs))
    (delivered : pipeline.onMessage msg sinks = some (next, after)) :
    At after ref (Sink.Plain slotFromMessage n
      (msgs ++ if pipeline.awaitingRead.head?.map AwaitingItem.sink = some ref then [msg] else [])) := by
  unfold Pipeline.onMessage Pipeline.dispatch at delivered
  split at delivered
  · cases delivered
  · rename_i front rest queue
    cases delivered
    rw [queue, List.head?_cons, Option.map_some]
    intro sink there
    by_cases own : ref = front.sink
    · subst own
      obtain ⟨old, found, incomplete⟩ := stocked.held front.sink (by simp [Pipeline.refs, queue])
      rw [Sinks.cells_deliver_open found (by simp [incomplete])] at there
      cases there
      rw [if_pos rfl]
      exact (plain old found).message incomplete msg
    · rw [Sinks.cells_deliver_of_ne own] at there
      rw [if_neg fun same => own (Option.some.inj same).symm, List.append_nil]
      exact plain sink there

/-- What a loop with this outcome leaves in the sink of a request: these replies, and behind them the parser's error
if there was one. -/
def LeftBy (slotFromMessage : Nat → Message → Except ErrorInfo ρ) (n : Nat) (ref : SinkRef) (msgs : List Message)
    (outcome : Outcome) (sinks : Sinks (Sink ρ) Message ErrorInfo) : Prop :=
  (∀ errc, outcome = .invalid errc → At sinks ref (Sink.EndedBy slotFromMessage n msgs { code := .protocol errc })) ∧
    ((∀ errc, outcome ≠ .invalid errc) → At sinks ref (Sink.Plain slotFromMessage n msgs))

theorem At.leftBy {outcome : Outcome} (plain : At sinks ref (Sink.Plain slotFromMessage n msgs))
    (valid : ∀ errc, outcome ≠ .invalid errc) : LeftBy slotFromMessage n ref msgs outcome sinks :=
  ⟨fun errc invalid => absurd invalid (valid errc), fun _ => plain⟩

variable [FloatChars]

/-- The loop leaves in the sink of a request the replies for it. -/
theorem dispatch_leftBy (fuel : Nat) (memory : Memory) (p : Parser Buffer View) (stocked : pipeline.Stocked sinks)
    (plain : At sinks ref (Sink.Plain slotFromMessage n msgs)) {outcome : Outcome} {x : Exchange (Sink ρ)}
    (loop : Exchange.dispatch fuel memory (fun _ => false) ⟨p, pipeline, sinks⟩ = (outcome, x)) :
    LeftBy slotFromMessage n ref (msgs ++ repliesFor fuel memory ref p.drain.roots pipeline sinks) outcome x.sinks := by
  induction p using Parser.drain_induction generalizing pipeline sinks msgs with
  | root p q root parsed ih =>
    rw [Parser.drain_root parsed, repliesFor]
    -- where the loop stops here, nobody has got anything
    have stops (last : Outcome) (valid : ∀ errc, last ≠ .invalid errc)
        (pass : Exchange.dispatchPass fuel memory (fun _ => false) ⟨p, pipeline, sinks⟩ =
          .leave (last, ⟨q, pipeline, sinks⟩)) :
        LeftBy slotFromMessage n ref (msgs ++ []) outcome x.sinks := by
      rw [Exchange.dispatch, run_leave _ pass] at loop
      cases loop
      rw [List.append_nil]
      exact plain.leftBy valid
    dsimp only
    split
    · rename_i msg built
      cases delivered : pipeline.onMessage msg sinks with
      | none => exact stops _ (by simp) (Exchange.dispatchPass_unsolicited parsed delivered)
      | some answered =>
        obtain ⟨next, after⟩ := answered
        have pass : Exchange.dispatchPass fuel memory (fun _ => false) ⟨p, pipeline, sinks⟩ = _ :=
          Exchange.dispatchPass_delivered parsed built delivered
        rw [if_neg (by simp)] at pass
        rw [Exchange.dispatch, run_again _ pass] at loop
        have later := ih ((Pipeline.dispatch_answered delivered).stocked stocked)
          (onMessage_plain stocked plain delivered) loop
        rw [List.append_assoc] at later
        exact later
    · rename_i unbuilt
      by_cases pending : pipeline.hasPendingRead = true
      · refine stops .faulty (by simp) ?_
        simp only [Exchange.dispatchPass, parsed, pending, if_true, Exchange.deliver]
      · refine stops .unsolicited (by simp) ?_
        simp [Exchange.dispatchPass, parsed, pending]
  | last p q answer parsed last =>
    rw [Parser.drain_end parsed last, repliesFor, List.append_nil]
    rw [Exchange.dispatch, run_leave _ (Exchange.dispatchPass_ended parsed last)] at loop
    unfold Exchange.ended at loop
    split at loop
    · rename_i errc
      cases loop
      refine ⟨fun other same => ?_, fun valid => absurd rfl (valid errc)⟩
      cases same
      exact onError_ended (x := ⟨q, pipeline, sinks⟩) plain errc
    · cases loop
      exact plain.leftBy (by simp)
    · cases loop
      exact plain.leftBy (by simp)

end Reading

namespace System

variable {s next : System ρ} {fuel : Nat} {ref : SinkRef} {token : Token} {err : ErrorInfo} {msgs : List Message}

/-- What a step leaves in the sink of a request that was pending: replies only, or an error behind them,
and then the connection is no longer open. -/
def Leaves (slotFromMessage : Nat → Message → Except ErrorInfo ρ) (n : Nat) (ref : SinkRef) (msgs : List Message)
    (next : System ρ) : Prop :=
  At next.sinks ref (Sink.Plain slotFromMessage n msgs) ∨
    (∃ err, At next.sinks ref (Sink.EndedBy slotFromMessage n msgs err)) ∧ next.state ≠ .opened

theorem clearAll_ended (ended : At s.sinks ref (Sink.EndedBy slotFromMessage n msgs err))
    (cleared : s.clearAll fuel err = some next) : At next.sinks ref (Sink.EndedBy slotFromMessage n msgs err) := by
  obtain ⟨pipeline, sinks, result, rfl⟩ := clearAll_eq cleared
  exact ended.clearAll result

theorem sinks_closeSocket (s : System ρ) :
    s.closeSocket.sinks = s.sinks := congrArg Traffic.sinks (traffic_closeSocket s)

/-- `handle_error` in OPEN, with the error that the sink has got already, if any. -/
theorem handleError_leaves (opened : s.state = .opened)
    (ended : At s.sinks ref (Sink.EndedBy slotFromMessage n msgs err))
    (handled : s.handleError fuel err = some next) : Leaves slotFromMessage n ref msgs next ∧ next.state = .failed := by
  have failed := (handleError_failed opened handled).1
  refine ⟨.inr ⟨⟨err, ?_⟩, by simp [failed]⟩, failed⟩
  simp only [handleError, opened] at handled
  obtain ⟨cleared, clears, rfl⟩ := Option.map_eq_some_iff.mp handled
  have same : cleared.closeSocket.wakeLoops.sinks = cleared.sinks := sinks_closeSocket cleared
  rw [same]
  apply clearAll_ended _ clears
  exact ended

theorem Leaves.frame {last : System ρ} (leaves : Leaves slotFromMessage n ref msgs next)
    (same : last.sinks = next.sinks ∧ last.state = next.state) : Leaves slotFromMessage n ref msgs last := by
  rw [Leaves, same.1, same.2]
  exact leaves

theorem writeTop_same (s : System ρ) (token : Token) :
    (s.writeTop token).sinks = s.sinks ∧ (s.writeTop token).state = s.state := by
  unfold writeTop
  split
  · exact ⟨rfl, rfl⟩
  · split
    · split
      · exact ⟨rfl, rfl⟩
      · exact ⟨rfl, rfl⟩
    · exact ⟨rfl, rfl⟩

theorem readTop_same (s : System ρ) (token : Token) :
    (s.readTop token).sinks = s.sinks ∧ (s.readTop token).state = s.state := by
  unfold readTop
  split
  · exact ⟨rfl, rfl⟩
  · split
    · exact ⟨rfl, rfl⟩
    · exact ⟨rfl, rfl⟩

theorem writerRun_leaves {cause : Cause} (plain : At s.sinks ref (Sink.Plain slotFromMessage n msgs))
    (woken : s.writerRun token cause = some next) : Leaves slotFromMessage n ref msgs next := by
  unfold writerRun at woken
  split at woken
  · cases woken
    exact Leaves.frame (.inl plain) (writeTop_same _ _)
  · split at woken
    · cases woken
      exact Leaves.frame (.inl plain) (writeTop_same _ _)
    · cases woken
  · split at woken
    · cases woken
      exact Leaves.frame (.inl plain) (writeTop_same _ _)
    · cases woken
  · cases woken

theorem writerResume_leaves (plain : At s.sinks ref (Sink.Plain slotFromMessage n msgs)) (opened : s.state = .opened)
    (resumed : s.writerResume fuel token = some next) : Leaves slotFromMessage n ref msgs next := by
  unfold writerResume at resumed
  split at resumed
  · split at resumed
    · cases resumed
    · cases resumed
      exact Leaves.frame (.inl plain) (writeTop_same _ _)
  · dsimp only at resumed
    split at resumed
    · cases resumed
      exact Leaves.frame (.inl plain) (writeTop_same _ _)
    · obtain ⟨middle, handled, rfl⟩ := Option.map_eq_some_iff.mp resumed
      have ended := plain.imp fun _ held => held.endedBy (.client .writeError)
      exact (handleError_leaves (s := { s with writer := .running }) opened ended handled).1.frame (writeTop_same _ _)
  · cases resumed

theorem readerRun_leaves {cause : Cause} (plain : At s.sinks ref (Sink.Plain slotFromMessage n msgs))
    (woken : s.readerRun token cause = some next) : Leaves slotFromMessage n ref msgs next := by
  unfold readerRun at woken
  split at woken
  · cases woken
    exact Leaves.frame (.inl plain) (readTop_same _ _)
  · split at woken
    · cases woken
      exact Leaves.frame (.inl plain) (readTop_same _ _)
    · cases woken
  · split at woken
    · cases woken
      exact Leaves.frame (.inl plain) (readTop_same _ _)
    · cases woken
  · cases woken

theorem controlFailed_unopened (failed : s.state = .failed) (token : Token) (delay : Nat) :
    (s.controlFailed token delay).state ≠ .opened := by
  rcases controlFailed_takenUp failed token delay with state | ⟨state, -⟩ | ⟨state, -⟩
  · simp [state]
  · simp [state]
  · simp [state]

theorem controlTop_leaves {delay : Nat} (plain : At s.sinks ref (Sink.Plain slotFromMessage n msgs))
    (went : s.controlTop fuel token delay = some next) : Leaves slotFromMessage n ref msgs next := by
  unfold controlTop at went
  split at went
  · cases went
    exact .inl plain
  · split at went
    · cases went
      exact .inl ((traffic_controlFailed s token delay).2 ▸ plain)
    · split at went
      · rename_i overdue
        obtain ⟨middle, handled, rfl⟩ := Option.map_eq_some_iff.mp went
        obtain ⟨leaves, failed⟩ :=
          handleError_leaves overdue.1 (plain.imp fun _ held => held.endedBy (.client .requestTimeout)) handled
        rcases leaves with still | ⟨ended, -⟩
        · exact .inl ((traffic_controlFailed middle token delay).2 ▸ still)
        · refine .inr ⟨?_, controlFailed_unopened failed token delay⟩
          rw [(traffic_controlFailed middle token delay).2]
          exact ended
      · cases went
        left
        unfold controlIdle
        split
        · exact plain
        · split
          · exact plain
          · exact plain

theorem controlWoken_sinks {expiry : Option TimePoint} {cause : Cause}
    (woken : s.controlWoken token expiry cause = some next) : next.sinks = s.sinks := by
  cases cause with
  | wakeup =>
    simp only [controlWoken] at woken
    split at woken
    · cases woken
      rfl
    · cases woken
  | cancelled =>
    simp only [controlWoken] at woken
    split at woken
    · cases woken
      rfl
    · cases woken
  | timer =>
    simp only [controlWoken] at woken
    split at woken
    · cases woken
    · split at woken
      · cases woken
        rfl
      · cases woken

theorem controlRun_leaves {cause : Cause} {delay : Nat} (plain : At s.sinks ref (Sink.Plain slotFromMessage n msgs))
    (ran : s.controlRun fuel token cause delay = some next) : Leaves slotFromMessage n ref msgs next := by
  unfold controlRun at ran
  split at ran
  · exact controlTop_leaves plain ran
  · obtain ⟨middle, woken, went⟩ := Option.bind_eq_some_iff.mp ran
    exact controlTop_leaves (controlWoken_sinks woken ▸ plain) went
  · obtain ⟨middle, woken, went⟩ := Option.bind_eq_some_iff.mp ran
    exact controlTop_leaves (controlWoken_sinks woken ▸ plain) went
  · obtain ⟨middle, woken, rfl⟩ := Option.map_eq_some_iff.mp ran
    left
    unfold backoffTop
    split
    · exact controlWoken_sinks woken ▸ plain
    · split
      · exact controlWoken_sinks woken ▸ plain
      · exact controlWoken_sinks woken ▸ plain
  · cases ran
  · cases ran

theorem close_leaves (plain : At s.sinks ref (Sink.Plain slotFromMessage n msgs)) (closed : s.close fuel = some next) :
    Leaves slotFromMessage n ref msgs next := by
  refine .inr ⟨?_, (close_away closed).1⟩
  have ended := plain.imp fun _ held => held.endedBy (.client .connectionClosed)
  unfold close at closed
  split at closed
  · cases closed
    exact ⟨_, ended⟩
  · obtain ⟨cleared, clears, rfl⟩ := Option.map_eq_some_iff.mp closed
    refine ⟨.client .connectionClosed, ?_⟩
    have same : cleared.closeSocket.wakeLoops.awaitActor.sinks = cleared.sinks := by
      unfold awaitActor
      split
      · exact sinks_closeSocket cleared
      · exact sinks_closeSocket cleared
    rw [same]
    apply clearAll_ended _ clears
    exact ended

theorem transitionToClosed_leaves (plain : At s.sinks ref (Sink.Plain slotFromMessage n msgs))
    (closes : s.transitionToClosed fuel = some next) : Leaves slotFromMessage n ref msgs next := by
  refine .inr ⟨⟨.client .connectionClosed, ?_⟩, (transitionToClosed_away closes).1⟩
  obtain ⟨cleared, clears, rfl⟩ := Option.map_eq_some_iff.mp closes
  have ended := plain.imp fun _ held => held.endedBy (.client .connectionClosed)
  have same : (cleared.closeSocket.emit .closed .close s.state .closed none).sinks = cleared.sinks :=
    sinks_closeSocket cleared
  rw [same]
  apply clearAll_ended _ clears
  exact ended

theorem enqueue_leaves {req : Request} {adapter : Nat → Message → Except ErrorInfo ρ}
    (plain : At s.sinks ref (Sink.Plain slotFromMessage n msgs)) (inside : ref < s.sinks.cells.length)
    (enqueued : s.enqueue fuel req adapter = some next) : Leaves slotFromMessage n ref msgs next := by
  left
  intro sink found
  apply plain sink
  rw [← found]
  have made : (s.announce req adapter).sinks.cells[ref]? = s.sinks.cells[ref]? := List.getElem?_append_left inside
  cases enqueue_cases enqueued with
  | rejected refused same failed =>
    exact (((Sinks.failAll_refused failed).others ref (Nat.ne_of_lt inside)).trans made).symm
  | queued opened pushed =>
    change _ = ((s.announce req adapter).setTraceContext s.sinks.cells.length (s.traceInfo req)).cells[ref]?
    unfold setTraceContext
    split
    · rw [← made]
      exact (List.getElem?_modify_ne _ _ (Nat.ne_of_gt inside)).symm
    · exact made.symm

variable [FloatChars]

/-- The parser of a read that has brought octets. -/
def committed (s : System ρ) (octets : Bytes) : Parser Buffer View :=
  { s.parser with input := (s.parser.input.write octets).commit octets.length }

/-- The messages for a request that a step builds of what has been read. -/
def heard (fuel : Nat) (ref : SinkRef) (s : System ρ) : Act ρ → List Message
  | .readerResume memory =>
      match s.reader with
      | .busy { op := .ready (.ok octets), .. } =>
          if octets = [] then [] else repliesFor fuel memory ref (s.committed octets).drain.roots s.pipeline s.sinks
      | _ => []
  | _ => []

theorem readChunk_leaves {memory : Memory} {octets : Bytes} {issued : Nat} (stocked : s.pipeline.Stocked s.sinks)
    (plain : At s.sinks ref (Sink.Plain slotFromMessage n msgs)) (opened : s.state = .opened)
    (read : s.readChunk fuel memory octets issued = some next) :
    Leaves slotFromMessage n ref
      (msgs ++ repliesFor fuel memory ref (s.committed octets).drain.roots s.pipeline s.sinks) next := by
  cases parsed : s.consume fuel memory octets (fun _ => false) with
  | mk outcome x =>
    have result := dispatch_leftBy fuel memory (s.committed octets) stocked plain parsed
    simp only [readChunk, parsed] at read
    cases outcome with
    | faulty => cases read
    | invalid errc =>
      have ended := result.1 errc rfl
      refine (handleError_leaves ?_ ?_ read).1
      · exact opened
      · exact ended
    | unsolicited =>
      have still := result.2 (by simp)
      refine (handleError_leaves ?_ ?_ read).1
      · exact opened
      · exact still.imp fun _ held => held.endedBy _
    | starved | complete =>
      cases read
      exact .inl (result.2 (by simp))

theorem readerResume_leaves {memory : Memory} (stocked : s.pipeline.Stocked s.sinks)
    (plain : At s.sinks ref (Sink.Plain slotFromMessage n msgs)) (opened : s.state = .opened)
    (resumed : s.readerResume fuel token memory = some next) :
    Leaves slotFromMessage n ref (msgs ++ s.heard fuel ref (.readerResume memory)) next := by
  unfold readerResume at resumed
  split at resumed
  · rename_i busy
    obtain ⟨middle, read, rfl⟩ := Option.map_eq_some_iff.mp resumed
    simp only [heard, busy]
    split at read
    · rename_i none
      have ended := plain.imp fun _ held => held.endedBy (.client .connectionReset)
      rw [if_pos none, List.append_nil]
      exact (handleError_leaves (s := { s with reader := .running }) opened ended read).1.frame (readTop_same _ _)
    · rename_i some
      rw [if_neg some]
      exact (readChunk_leaves stocked plain opened read).frame (readTop_same _ _)
  · rename_i busy
    simp only [heard, busy, List.append_nil]
    dsimp only at resumed
    split at resumed
    · cases resumed
      exact Leaves.frame (.inl plain) (readTop_same _ _)
    · obtain ⟨middle, handled, rfl⟩ := Option.map_eq_some_iff.mp resumed
      have ended := plain.imp fun _ held => held.endedBy (.client .connectionLost)
      exact (handleError_leaves (s := { s with reader := .running }) opened ended handled).1.frame (readTop_same _ _)
  · cases resumed

variable [Inhabited ρ] {cfg : Config}

/-- A step that an open connection takes. -/
theorem step_leaves {act : Act ρ} (stocked : s.pipeline.Stocked s.sinks)
    (plain : At s.sinks ref (Sink.Plain slotFromMessage n msgs)) (inside : ref < s.sinks.cells.length)
    (opened : s.state = .opened) (exclusive : s.life.Exclusive) (stepped : s.step fuel act = some next) :
    Leaves slotFromMessage n ref (msgs ++ s.heard fuel ref act) next := by
  -- only `do_read` builds messages, and an open connection has no `do_connect` to go on
  have silent (none : s.heard fuel ref act = []) (leaves : Leaves slotFromMessage n ref msgs next) :
      Leaves slotFromMessage n ref (msgs ++ s.heard fuel ref act) next := by
    rwa [none, List.append_nil]
  have idle {j : Nat} (busy : ∃ a, s.attempts[j]? = some a ∧ a.unfinished = true) : False := by
    obtain ⟨a, found, unfinished⟩ := busy
    exact exclusive.free (.inl opened) j a.member ⟨crew_found found, Attempt.busy_of_unfinished unfinished⟩
  cases act with
  | tick elapsed =>
    cases stepped
    exact silent rfl (.inl plain)
  | connect =>
    simp only [step, connect, opened] at stepped
    cases stepped
    exact silent rfl (.inl plain)
  | connectResume j =>
    simp only [step, connectResume] at stepped
    split at stepped
    · cases stepped
      exact silent rfl (.inl plain)
    · cases stepped
      exact silent rfl (.inl plain)
    · cases stepped
  | connectClose j =>
    simp only [step, connectClose] at stepped
    split at stepped
    · exact silent rfl (close_leaves (s := s.setStage j .gone) plain stepped)
    · cases stepped
  | close => exact silent rfl (close_leaves plain stepped)
  | closeResume =>
    simp only [step, closeResume] at stepped
    split at stepped
    · cases stepped
      exact silent rfl (.inl plain)
    · cases stepped
  | enqueue req slotFromMessage => exact silent rfl (enqueue_leaves plain inside stepped)
  | actorStart =>
    simp only [step, actorStart] at stepped
    split at stepped
    · cases stepped
      exact silent rfl (.inl plain)
    · cases stepped
  | actorEnd =>
    simp only [step, actorEnd] at stepped
    split at stepped
    · exact silent rfl (transitionToClosed_leaves (s := { s with actor := .ended }) plain stepped)
    · cases stepped
  | actorHandler =>
    simp only [step, actorHandler] at stepped
    split at stepped
    · obtain ⟨closed, closes, rfl⟩ := Option.map_eq_some_iff.mp stepped
      split at closes
      · cases closes
        exact silent rfl (.inl plain)
      · have left := transitionToClosed_leaves (s := { s with actor := .none, actorRunning := false }) plain closes
        exact silent rfl (left.frame ⟨rfl, rfl⟩)
    · cases stepped
  | writerRun cause =>
    obtain ⟨token, -, woken⟩ := inActor_runs stepped
    exact silent rfl (writerRun_leaves plain woken)
  | writerComplete result =>
    simp only [step, writerComplete] at stepped
    split at stepped
    · obtain ⟨call, -, rfl⟩ := Option.map_eq_some_iff.mp stepped
      exact silent rfl (.inl plain)
    · cases stepped
  | writerResume =>
    obtain ⟨token, -, resumed⟩ := inActor_runs stepped
    exact silent rfl (writerResume_leaves plain opened resumed)
  | readerRun cause =>
    obtain ⟨token, -, woken⟩ := inActor_runs stepped
    exact silent rfl (readerRun_leaves plain woken)
  | readerComplete result =>
    simp only [step, readerComplete] at stepped
    split at stepped
    · obtain ⟨call, -, rfl⟩ := Option.map_eq_some_iff.mp stepped
      exact silent rfl (.inl plain)
    · cases stepped
  | readerResume memory =>
    obtain ⟨token, -, resumed⟩ := inActor_runs stepped
    exact readerResume_leaves stocked plain opened resumed
  | controlRun cause delay =>
    obtain ⟨token, -, ran⟩ := inActor_runs stepped
    exact silent rfl (controlRun_leaves plain ran)
  | attemptStart j => exact (idle (attemptStart_keeps stepped).2).elim
  | attemptComplete j completion => exact (idle (attemptComplete_keeps stepped).2).elim
  | attemptTimeout j => exact (idle (attemptTimeout_keeps stepped).2).elim
  | attemptResume j oracle => exact (idle (attemptResume_unfinished stepped)).elim

end System

/-- A sink that is complete stays as it is. -/
theorem Traffic.Moves.kept {first last : Traffic ρ} {ref : SinkRef} {sink : Sink ρ} (moves : Moves first last)
    (found : first.sinks.cells[ref]? = some sink) (complete : ResponseSink.isComplete sink = true) :
    last.sinks.cells[ref]? = some sink := by
  induction moves with
  | refl => exact found
  | @tail middle last _ move ih =>
    have inside : ref < middle.sinks.cells.length := (List.getElem?_eq_some_iff.mp ih).1
    have made (sink' : Sink ρ) : (middle.sinks.alloc sink').2.cells[ref]? = some sink :=
      (List.getElem?_append_left inside).trans ih
    cases move with
    | reject refused => exact refused.later.kept (made _) complete
    | @queue req slotFromMessage deadline pipeline accepted pushed one =>
      obtain ⟨context, -, cells⟩ := cells_install middle req slotFromMessage
      change
        ((middle.announce req slotFromMessage).install middle.sinks.cells.length (middle.traceInfo req)).cells[ref]? = _
      rw [cells]
      exact (List.getElem?_append_left inside).trans ih
    | write applied => exact ih
    | answer answered => exact answered.later.kept ih complete
    | clear cleared => exact cleared.later.kept ih complete
    | alloc => exact made _
    | push => exact made _

namespace System

variable {s next queued last : System ρ} {fuel : Nat} {ref : SinkRef} {msgs : List Message} [FloatChars] [Inhabited ρ]
  {cfg : Config}

/-- What is known of a request that was accepted and got these messages. -/
structure Follows (slotFromMessage : Nat → Message → Except ErrorInfo ρ) (n : Nat) (ref : SinkRef) (msgs : List Message)
    (s : System ρ) : Prop where
  accepted : ∃ socket, .accepted ref socket ∈ s.notes
  ends : ∃ err, At s.sinks ref (Sink.EndedBy slotFromMessage n msgs err)
  pending : ref ∈ s.pipeline.refs → At s.sinks ref (Sink.Plain slotFromMessage n msgs)

omit [Inhabited ρ] in
theorem heard_absent (absent : ref ∉ s.pipeline.refs) (fuel : Nat) (act : Act ρ) : s.heard fuel ref act = [] := by
  unfold heard
  split
  · split
    · split
      · rfl
      · exact repliesFor_absent absent ..
    · rfl
  · rfl

theorem Follows.step {act : Act ρ} (follows : Follows slotFromMessage n ref msgs s) (reached : Reached fuel cfg s)
    (stepped : s.step fuel act = some next) (solo : ∀ entry ∈ next.log, entry.solo = true) :
    Follows slotFromMessage n ref (msgs ++ s.heard fuel ref act) next := by
  have before : ∀ entry ∈ s.log, entry.solo = true := fun entry member =>
    solo entry ((step_extends stepped).1.subset member)
  have tenancy := reached.tenancy before
  have later := (reached.step stepped).tenancy solo
  obtain ⟨socket, noted⟩ := follows.accepted
  have still : ∃ socket, .accepted ref socket ∈ next.notes := ⟨socket, (step_extends stepped).2.subset noted⟩
  have inside := tenancy.kept.bound ref (accepted_mem noted)
  by_cases pending : ref ∈ s.pipeline.refs
  · -- accepted requests are pending in OPEN only
    have opened : s.state = .opened := by
      by_contra unopened
      exact (tenancy.guests unopened ref pending).2 socket noted
    rcases step_leaves tenancy.kept.stocked (follows.pending pending) inside opened (reached.exclusive before).1 stepped
      with plain | ⟨ended, unopened⟩
    · exact ⟨still, ⟨.client .connectionClosed, plain.imp fun _ held => held.endedBy _⟩, fun _ => plain⟩
    · obtain ⟨socket, accepted⟩ := still
      exact ⟨⟨socket, accepted⟩, ended, fun member => absurd accepted ((later.guests unopened ref member).2 socket)⟩
  · -- a request that has left the pipeline is complete, and nothing changes in it
    rw [heard_absent pending, List.append_nil]
    have inside : ref < s.sinks.cells.length := inside
    have found := List.getElem?_eq_getElem inside
    have complete : s.sinks.isComplete ref = true := (tenancy.kept.served ref (accepted_mem noted)).resolve_left pending
    have moves : Traffic.Moves s.traffic next.traffic :=
      (step_moves fuel s act next stepped).lift' System.traffic fun _ _ move => move.traffic
    rw [Sinks.isComplete, found] at complete
    have same : next.sinks.cells[ref]? = some s.sinks.cells[ref] := moves.kept found complete
    obtain ⟨err, ended⟩ := follows.ends
    refine ⟨still, ⟨err, fun sink there => ?_⟩, fun member => ?_⟩
    · cases same.symm.trans there
      exact ended _ found
    · have incomplete := later.kept.stocked.incomplete member
      rw [show next.traffic.sinks.isComplete ref = next.sinks.isComplete ref from rfl, Sinks.isComplete,
        same] at incomplete
      cases complete.symm.trans incomplete

omit [FloatChars] [Inhabited ρ] in
theorem Follows.accept {req : Request} (stocked : s.pipeline.Stocked s.sinks)
    (enqueued : s.enqueue fuel req slotFromMessage = some queued)
    (accepted : s.sinks.cells.length ∈ queued.pipeline.refs) :
    Follows slotFromMessage req.replyCount s.sinks.cells.length [] queued := by
  cases enqueue_cases enqueued with
  | rejected refused same failed => exact absurd (stocked.bound accepted) (Nat.lt_irrefl _)
  | queued opened pushed =>
    obtain ⟨context, -, cells⟩ := Traffic.cells_install s.traffic req slotFromMessage
    have plain : At ((s.announce req slotFromMessage).setTraceContext s.sinks.cells.length (s.traceInfo req))
        s.sinks.cells.length (Sink.Plain slotFromMessage req.replyCount []) := by
      intro sink found
      have made : ((s.announce req slotFromMessage).setTraceContext s.sinks.cells.length (s.traceInfo req)).cells =
          s.sinks.cells ++ [{ Sink.forRequest slotFromMessage req with context := context }] := cells
      rw [made, List.getElem?_concat_length] at found
      cases found
      exact ⟨rfl, rfl, rfl⟩
    exact ⟨⟨s.socket, by simp [queue, note]⟩, ⟨.client .connectionClosed, plain.imp fun _ held => held.endedBy _⟩,
      fun _ => plain⟩

/-- An accepted request ends with what the values become that the parser returned for it, each in its slot, and one
and the same error in all slots behind them: while it is pending it has replies only, and when it has left the pipeline
every slot is filled. -/
theorem accepted_outcome {req : Request} {actions : List (Act ρ)} (reached : Reached fuel cfg s)
    (enqueued : s.step fuel (.enqueue req slotFromMessage) = some queued)
    (accepted : s.sinks.cells.length ∈ queued.pipeline.refs) (run : runFrom (step fuel) queued actions = some last)
    (solo : ∀ entry ∈ last.log, entry.solo = true) :
    ∃ (sink : Sink ρ) (err : ErrorInfo) (k : Nat), last.sinks.cells[s.sinks.cells.length]? = some sink ∧
      sink.response.slots =
        (along (step fuel) (heard fuel s.sinks.cells.length) queued actions).mapIdx slotFromMessage ++
          List.replicate k (.error err) ∧
      (s.sinks.cells.length ∈ last.pipeline.refs → k = 0) ∧
      (s.sinks.cells.length ∉ last.pipeline.refs → sink.response.result = some sink.response.slots ∧
        (along (step fuel) (heard fuel s.sinks.cells.length) queued actions).length + k = req.replyCount) := by
  -- Induction along the run, with the messages that were built so far.
  let invariant (s' : System ρ) (msgs : List Message) : Prop := Reached fuel cfg s' ∧
    ((∀ entry ∈ s'.log, entry.solo = true) → Follows slotFromMessage req.replyCount s.sinks.cells.length msgs s')
  have kept (s' : System ρ) (act : Act ρ) (next : System ρ) (msgs : List Message) (holds : invariant s' msgs)
      (stepped : s'.step fuel act = some next) : invariant next (msgs ++ s'.heard fuel s.sinks.cells.length act) := by
    refine ⟨holds.1.step stepped, fun solo => ?_⟩
    exact (holds.2 fun entry member => solo entry ((step_extends stepped).1.subset member)).step holds.1 stepped solo
  have begins : invariant queued [] := by
    refine ⟨reached.step enqueued, fun solo => ?_⟩
    have before : ∀ entry ∈ s.log, entry.solo = true := fun entry member =>
      solo entry ((step_extends enqueued).1.subset member)
    exact .accept (reached.tenancy before).kept.stocked enqueued accepted
  obtain ⟨still, follows⟩ := runFrom_along invariant kept begins run
  obtain ⟨⟨socket, noted⟩, ⟨err, ends⟩, pending⟩ := follows solo
  rw [List.nil_append] at ends pending
  have tenancy := still.tenancy solo
  have inside : s.sinks.cells.length < last.sinks.cells.length := tenancy.kept.bound _ (accepted_mem noted)
  have found := List.getElem?_eq_getElem inside
  by_cases waits : s.sinks.cells.length ∈ last.pipeline.refs
  · obtain ⟨-, -, slots⟩ := pending waits _ found
    exact ⟨_, err, 0, found, by simpa using slots, fun _ => rfl, fun left => absurd waits left⟩
  · obtain ⟨-, expected, k, slots⟩ := ends _ found
    have complete : last.sinks.isComplete s.sinks.cells.length = true :=
      (tenancy.kept.served _ (accepted_mem noted)).resolve_left waits
    rw [Sinks.isComplete, found] at complete
    obtain ⟨results, set⟩ := Option.isSome_iff_exists.mp complete
    obtain ⟨same, full⟩ := (still.sane _ _ found).full results set
    refine ⟨_, err, k, found, slots, fun there => absurd there waits, fun _ => ⟨same ▸ set, ?_⟩⟩
    rw [slots, expected] at full
    simpa using full

/-- The number that was answered. -/
def number (_ : Nat) : Message → Except ErrorInfo Int
  | .scalar (.integer value) _ => .ok value
  | _ => .error (.client .internalError)

omit [FloatChars] [Inhabited ρ] in
/-- Two commands are written, one is answered in two pieces, and then the connection is lost. -/
theorem accepted_outcome_lost : letI := FloatChars.none
    ∃ (last : System Int) (sink : Sink Int) (err : ErrorInfo),
      (last.sinks.cells.length = 2 ∧ 1 ∉ last.pipeline.refs) ∧ last.sinks.cells[1]? = some sink ∧
        sink.response.result = some [.ok 7, .error err] := by
  let := FloatChars.none
  let act : Act Int :=
    .enqueue (Request.ofCommands [.variadic (text "INCR") [], .variadic (text "INCR") []]) number
  let lost : List (Act Int) :=
    [.writerRun .wakeup, .writerComplete (.ok 28), .writerResume, .readerComplete (.ok (text ":7")), .readerResume,
      .readerComplete (.ok (text "\r\n")), .readerResume, .readerComplete (.error (.other [])), .readerResume]
  have runs :
      (runFrom (step 8) (start {}) (opening ++ [.controlRun .wakeup 0, .writerRun .wakeup, .readerRun .wakeup])).any
      (fun s => (s.step 8 act).any fun queued => (runFrom (step 8) queued lost).any fun last =>
        decide (s.sinks.cells.length = 1 ∧ 1 ∈ queued.pipeline.refs ∧ last.sinks.cells.length = 2 ∧
          1 ∉ last.pipeline.refs ∧ (∀ entry ∈ last.log, entry.solo = true) ∧
          (along (step 8) (heard 8 1) queued lost).mapIdx number = [.ok 7])) = true := by decide +kernel
  obtain ⟨s, reached, runs⟩ := Option.any_eq_true _ _ |>.mp runs
  obtain ⟨queued, enqueued, runs⟩ := Option.any_eq_true _ _ |>.mp runs
  obtain ⟨last, run, facts⟩ := Option.any_eq_true _ _ |>.mp runs
  obtain ⟨size, accepted, sinks, left, solo, heard⟩ := of_decide_eq_true facts
  obtain ⟨sink, err, k, found, slots, -, ended⟩ :=
    accepted_outcome ⟨_, reached⟩ enqueued (size ▸ accepted) run solo
  rw [size] at found ended slots
  obtain ⟨result, all⟩ := ended left
  have one := congrArg List.length heard
  rw [List.length_mapIdx] at one
  have rest : k = 1 := by
    rw [one] at all
    exact Nat.add_left_cancel all
  rw [heard, rest] at slots
  exact ⟨last, sink, err, ⟨sinks, left⟩, found, by rw [result, slots]; rfl⟩

end System

end Rediscoro.Connection

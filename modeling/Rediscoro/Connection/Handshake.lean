import Rediscoro.Connection.Hearing
import Rediscoro.Connection.Moves
import Rediscoro.Connection.Sound
import Rediscoro.Resp3.Listening

/-! The handshake of a `do_connect`, from its connected socket to its return.

The attempt is taken alone: it writes its request, reads what the server sends, and
returns. Each reply goes to the slot of its command. The handshake ends when the last
slot is filled, at the end of the stream, or at an octet that is no RESP3. So OPEN is
set exactly when the stream begins with as many values as there are commands and none of
them is an error, as long as no verbatim string fails its assertion. Of a reply nothing is
looked at but its value at the top, which no read can move.
-/

set_option autoImplicit false

namespace Rediscoro.Connection

open Rediscoro.Semantics Rediscoro.Resp3 Rediscoro.Pipeline

/-! The sink of the handshake. -/

namespace Sink

variable {ρ : Type} {slotFromMessage : Nat → Message → Except ErrorInfo ρ}

/-- A sink without trace context after some deliveries. -/
def filled (slotFromMessage : Nat → Message → Except ErrorInfo ρ) (n : Nat)
    (deliveries : List (Delivery Message ErrorInfo)) : Sink ρ :=
  { slotFromMessage := slotFromMessage, response := .filled slotFromMessage n deliveries }

theorem isComplete_filled (n : Nat) (deliveries : List (Delivery Message ErrorInfo)) :
    ResponseSink.isComplete (filled slotFromMessage n deliveries) = true ↔ deliveries.length = n :=
  PendingResponse.isComplete_filled n deliveries

theorem receive_filled {n : Nat} {deliveries : List (Delivery Message ErrorInfo)} (missing : deliveries.length < n)
    (delivery : Delivery Message ErrorInfo) :
    receive (filled slotFromMessage n deliveries) delivery = filled slotFromMessage n (deliveries ++ [delivery]) := by
  have unfilled : (PendingResponse.filled slotFromMessage n deliveries).result.isSome = false :=
    Bool.eq_false_iff.mpr fun complete =>
      absurd ((PendingResponse.isComplete_filled n deliveries).mp complete) (Nat.ne_of_lt missing)
  have next : receive (PendingResponse.filled slotFromMessage n deliveries) delivery = _ :=
    PendingResponse.receive_filled missing delivery
  rw [PendingResponse.receive_eq] at next
  have accepted : receive (filled slotFromMessage n deliveries) delivery =
      (filled slotFromMessage n deliveries).accept (PendingResponse.slotOf slotFromMessage
        (PendingResponse.filled slotFromMessage n deliveries).slots.length delivery) := by
    cases delivery <;> rfl
  rw [accepted, accept, if_neg (by rw [filled, unfilled]; exact Bool.false_ne_true)]
  simp only [filled, next]
  split
  · rfl
  · rfl

/-- It is complete after exactly the missing deliveries. -/
theorem counts_filled {n : Nat} {deliveries : List (Delivery Message ErrorInfo)} (within : deliveries.length ≤ n) :
    Counts (filled slotFromMessage n deliveries) (n - deliveries.length) := by
  induction left : n - deliveries.length generalizing deliveries with
  | zero => exact Counts.zero ((isComplete_filled n deliveries).mpr (by omega))
  | succ left ih =>
    have missing : deliveries.length < n := by omega
    refine Counts.succ ?_ fun delivery => ?_
    · exact Bool.eq_false_iff.mpr fun complete => absurd ((isComplete_filled n deliveries).mp complete) (by omega)
    · rw [receive_filled missing]
      have longer : (deliveries ++ [delivery]).length = deliveries.length + 1 := List.length_append
      exact ih (by omega) (by omega)

end Sink

/-! Messages for one sink that waits alone. -/

section Alone

variable {ρ : Type} {slotFromMessage : Nat → Message → Except ErrorInfo ρ} {slot : SinkRef} {k : Nat}
  {pipeline : Pipeline} {sinks : Sinks (Sink ρ) Message ErrorInfo} {got : List Message}

/-- The sink of the slot holds these messages. -/
def Holds (slotFromMessage : Nat → Message → Except ErrorInfo ρ) (k : Nat) (slot : SinkRef) (got : List Message)
    (sinks : Sinks (Sink ρ) Message ErrorInfo) : Prop :=
  sinks.cells[slot]? = some (.filled slotFromMessage k (got.map .message))

theorem Holds.isComplete (holds : Holds slotFromMessage k slot got sinks) :
    sinks.isComplete slot = true ↔ got.length = k := by
  rw [Sinks.isComplete, holds]
  dsimp only
  rw [Sink.isComplete_filled, List.length_map]

theorem Holds.needs (holds : Holds slotFromMessage k slot got sinks) (within : got.length ≤ k) :
    sinks.Needs slot (k - got.length) := by
  have within' : (got.map (Delivery.message (ε := ErrorInfo))).length ≤ k := by
    rw [List.length_map]
    exact within
  refine ⟨_, holds, ?_⟩
  rw [← List.length_map (f := Delivery.message (ε := ErrorInfo))]
  exact Sink.counts_filled within'

theorem Holds.deliver (holds : Holds slotFromMessage k slot got sinks) (missing : got.length < k) (msg : Message) :
    Holds slotFromMessage k slot (got ++ [msg]) (sinks.deliver slot (.message msg)) := by
  have missing' : (got.map (Delivery.message (ε := ErrorInfo))).length < k := by
    rw [List.length_map]
    exact missing
  have unfinished : ¬ ResponseSink.isComplete (Sink.filled slotFromMessage k (got.map .message)) = true := by
    rw [Sink.isComplete_filled]
    exact Nat.ne_of_lt missing'
  rw [Holds, Sinks.cells_deliver_open holds unfinished, Sink.receive_filled missing', List.map_append]
  rfl

/-- The messages are taken one after another until the sink is full. -/
theorem attend_alone (messages : List Message) {deadline : TimePoint} (holds : Holds slotFromMessage k slot got sinks)
    (missing : got.length < k) (alone : pipeline.awaitingRead = [⟨slot, deadline⟩]) :
    let attended := attend (fun sinks => sinks.isComplete slot) messages pipeline sinks
    Holds slotFromMessage k slot (got ++ messages.take (k - got.length)) attended.sinks ∧
      (got.length + messages.length < k → attended.outcome = none ∧ attended.pipeline = pipeline) ∧
      (k ≤ got.length + messages.length →
        attended.outcome = some .complete ∧ attended.pipeline = { pipeline with awaitingRead := [] }) := by
  -- Induction on the messages: each fills the next slot, and the last slot ends it.
  induction messages generalizing sinks got with
  | nil =>
    refine ⟨?_, fun _ => ⟨rfl, rfl⟩, fun full => ?_⟩
    · rw [List.take_nil, List.append_nil]
      exact holds
    · rw [List.length_nil] at full
      omega
  | cons msg rest ih =>
    have held := holds.deliver missing msg
    have size : (got ++ [msg]).length = got.length + 1 := List.length_append
    have taken : got ++ (msg :: rest).take (k - got.length) =
        (got ++ [msg]) ++ rest.take (k - (got ++ [msg]).length) := by
      rw [show k - got.length = (k - (got ++ [msg]).length) + 1 by omega, List.take_succ_cons, List.append_assoc]
      rfl
    rw [List.length_cons]
    by_cases last : (got ++ [msg]).length = k
    · have complete := held.isComplete.mpr last
      have delivered : pipeline.onMessage msg sinks =
          some ({ pipeline with awaitingRead := [] }, sinks.deliver slot (.message msg)) := by
        simp only [Pipeline.onMessage, Pipeline.dispatch, alone, complete, if_true]
      rw [attend_enough delivered complete, taken, last, Nat.sub_self, List.take_zero, List.append_nil]
      exact ⟨held, fun few => by omega, fun _ => ⟨rfl, rfl⟩⟩
    · have incomplete : ¬ (sinks.deliver slot (.message msg)).isComplete slot = true := fun complete =>
        last (held.isComplete.mp complete)
      have delivered : pipeline.onMessage msg sinks = some (pipeline, sinks.deliver slot (.message msg)) := by
        simp only [Pipeline.onMessage, Pipeline.dispatch, alone, if_neg incomplete]
      obtain ⟨later, few, many⟩ := ih held (by omega)
      rw [attend_again delivered incomplete, taken]
      exact ⟨later, fun less => few (by omega), fun full => many (by omega)⟩

end Alone

/-! Turns of an attempt. -/

/-- What the runtime does for an attempt: it is resumed, or the operation that it waits for succeeds. -/
inductive Turn where
  | resume
  | wrote (n : Nat)
  /-- The octets of a read, and what is found through the views whose storage is gone by then. -/
  | read (octets : Bytes) (memory : Memory)

/-- These chunks are read. -/
def Turn.reads (chunks : List (Bytes × Memory)) : List Turn := chunks.map fun chunk => .read chunk.1 chunk.2

/-- The socket takes these numbers of octets, and these chunks arrive before the stream ends. -/
def Turn.all (writes : List Nat) (chunks : List (Bytes × Memory)) : List Turn :=
  .resume :: (writes.map .wrote ++ (reads chunks ++ [.read [] .zeroed, .resume, .resume]))

/-- What arrives in the chunks. -/
def arriving (chunks : List (Bytes × Memory)) : Bytes := (chunks.map Prod.fst).flatten

namespace System

variable {ρ : Type}

def stageOf (s : System ρ) (i : Nat) : Option Stage := (s.attempts[i]?).map Attempt.stage

section Turns

variable [FloatChars] [Inhabited ρ] (fuel i delay : Nat)

/-- The operation completes and `do_connect` is resumed behind it. -/
def completed (s : System ρ) (memory : Memory) (completion : Completion) : Option (System ρ) :=
  (s.attemptComplete i completion).bind fun s => s.attemptResume fuel i { delay := delay, memory := memory }

/-- A turn that the attempt does not wait for does not take place. -/
def turn (s : System ρ) : Turn → Option (System ρ)
  | .resume =>
      match s.stageOf i with
      | some (.connecting ..) | some (.joining ..) | some (.waitingSlot _) => s.attemptResume fuel i { delay := delay }
      | _ => some s
  | .wrote n =>
      match s.stageOf i with
      | some (.writing ..) => s.completed fuel i delay .zeroed (.wrote (.ok n))
      | _ => some s
  | .read octets memory =>
      match s.stageOf i with
      | some (.reading ..) => s.completed fuel i delay memory (.read (.ok octets))
      | _ => some s

end Turns

/-- The read that the attempt waits for. -/
def readCall (s : System ρ) (i : Nat) : Option ReadCall :=
  match s.stageOf i with
  | some (.reading _ call) => some call
  | _ => none

/-- A read brings no more octets than there is room for, and the colon of every verbatim string of the unfinished
message is found, moved away by preparing that room or not. -/
def Tame (i : Nat) (s : System ρ) : Turn → Prop
  | .read octets memory => ∀ call ∈ s.readCall i, octets.length ≤ call.room ∧ s.parser.Colons memory
  | _ => True

instance (i : Nat) (s : System ρ) (t : Turn) : Decidable (s.Tame i t) :=
  match t with
  | .resume | .wrote _ => inferInstanceAs (Decidable True)
  | .read octets memory =>
      inferInstanceAs (Decidable (∀ call ∈ s.readCall i, octets.length ≤ call.room ∧ s.parser.Colons memory))

def handshakeRequest (cfg : Config) : Request := Request.ofCommands (handshakeCommands cfg)

/-- An attempt with a connected socket, alone with an empty pipeline and a parser that was reset. -/
structure Ready (s : System ρ) (i : Nat) (a : Attempt) : Prop where
  found : s.attempts[i]? = some a
  connected : ∃ left, a.stage = .connecting left (.ready (.ok ()))
  untimed : a.timedOut = false
  unstopped : s.stopRequested a.token = false
  socket : s.socketOpen = true
  parser : ∃ p : Parser Buffer View, s.parser = p.reset
  writes : s.pipeline.pendingWrite = []
  reads : s.pipeline.awaitingRead = []
  admitted : (s.pipeline.push (handshakeRequest s.cfg) s.sinks.cells.length ⊤).isSome = true
  unopened : s.state ≠ .opened
  owned : a.owner = .control → ∃ token, s.actor = .running token

/-- `do_connect` has returned so, to `connect()` or into `do_reconnect`. -/
structure Returned (i : Nat) (a : Attempt) (outcome : Except ErrorInfo Unit) (s : System ρ) : Prop where
  opened : s.state = .opened ↔ outcome = .ok ()
  told : s.stageOf i = some (if a.owner = .caller then .finished outcome else .gone)

/-! The attempt while it runs. -/

/-- The attempt is in this stage, and nothing from outside stands in its way. -/
structure Attends (i : Nat) (a : Attempt) (stage : Stage) (s : System ρ) : Prop where
  found : s.attempts[i]? = some { a with stage := stage }
  unstopped : s.stopRequested a.token = false
  socket : s.socketOpen = true
  unopened : s.state ≠ .opened
  owned : a.owner = .control → ∃ token, s.actor = .running token

section Attends

variable {s t : System ρ} {i : Nat} {a : Attempt} {stage : Stage}

theorem Attends.stageOf (attends : s.Attends i a stage) : s.stageOf i = some stage := by
  rw [System.stageOf, attends.found]
  rfl

theorem Attends.congr (attends : s.Attends i a stage) (attempts : t.attempts = s.attempts)
    (stopped : t.stopped = s.stopped) (socket : t.socketOpen = s.socketOpen) (state : t.state = s.state)
    (actor : t.actor = s.actor) : t.Attends i a stage where
  found := attempts ▸ attends.found
  unstopped := by
    rw [stopRequested, stopped]
    exact attends.unstopped
  socket := socket.trans attends.socket
  unopened := state ▸ attends.unopened
  owned := actor ▸ attends.owned

theorem Attends.setStage (attends : s.Attends i a stage) (next : Stage) : (s.setStage i next).Attends i a next where
  found := by simp [System.setStage, setAttempt, attends.found]
  unstopped := attends.unstopped
  socket := attends.socket
  unopened := attends.unopened
  owned := attends.owned

end Attends

/-! `do_connect` returns. -/

section Returns

variable {fuel i delay : Nat} {s : System ρ} {a b : Attempt} {stage : Stage}

theorem stageOf_setStage (present : (s.stageOf i).isSome = true) (next : Stage) :
    (s.setStage i next).stageOf i = some next := by
  rw [stageOf, Option.isSome_map] at present
  obtain ⟨found, here⟩ := Option.isSome_iff_exists.mp present
  simp [stageOf, setStage, setAttempt, here]

theorem beginReconnect_kept (token : Token) (there : s.stageOf i = some .gone) :
    (s.beginReconnect token).state ≠ .opened ∧ (s.beginReconnect token).stageOf i = some .gone := by
  refine ⟨by simp [beginReconnect, beginResolve, setAttempt, resetParser, note, setState], ?_⟩
  have within : i < s.attempts.length := by
    by_contra out
    rw [stageOf, List.getElem?_eq_none (Nat.le_of_not_lt out)] at there
    cases there
  have apart : s.attempts.length ≠ i := Nat.ne_of_gt within
  rw [← there]
  simp [beginReconnect, beginResolve, setAttempt, resetParser, note, setState, record, stageOf, apart,
    List.getElem?_append_left within]

theorem reconnectFailed_kept (delay : Nat) (token : Token) (there : s.stageOf i = some .gone) :
    (s.reconnectFailed token delay).state ≠ .opened ∧ (s.reconnectFailed token delay).stageOf i = some .gone := by
  have before : s.failReconnect.stageOf i = some .gone := there
  unfold reconnectFailed reconnectTop
  split
  · exact ⟨by simp [failReconnect, setState], there⟩
  · split
    · exact beginReconnect_kept token before
    · exact ⟨by simp [failReconnect, setState], there⟩

/-- An open connection with nothing queued stays open. -/
theorem controlTop_kept [FloatChars] (fuel delay : Nat) (token : Token) (opened : s.state = .opened)
    (writes : s.pipeline.pendingWrite = []) (reads : s.pipeline.awaitingRead = []) :
    ∃ next, s.controlTop fuel token delay = some next ∧ next.state = .opened ∧ next.attempts = s.attempts := by
  have never : s.pipeline.hasExpired s.now = false := by
    simp [Pipeline.hasExpired, Pipeline.nextDeadline, writes, reads]
  unfold controlTop
  split
  · exact ⟨_, rfl, opened, rfl⟩
  · rw [if_neg (by simp [opened]), if_neg (by simp [never])]
    refine ⟨_, rfl, ?_⟩
    unfold controlIdle
    split
    · exact ⟨opened, rfl⟩
    · split
      · exact ⟨opened, rfl⟩
      · exact ⟨opened, rfl⟩

variable (owner : b.owner = a.owner)

include owner

theorem Attends.fails (attends : s.Attends i a stage) (err : ErrorInfo) :
    ∃ next, s.fail i b delay err = some next ∧ next.Returned i a (.error err) := by
  have present : (s.stageOf i).isSome = true := by rw [attends.stageOf]; rfl
  unfold fail
  rw [owner]
  cases mine : a.owner with
  | caller =>
    refine ⟨_, rfl, ⟨?_, ?_⟩⟩
    · exact ⟨fun opened => absurd opened attends.unopened, fun same => by cases same⟩
    · rw [stageOf_setStage present, if_pos mine]
  | control =>
    obtain ⟨token, runs⟩ := attends.owned mine
    have gone := reconnectFailed_kept delay token (stageOf_setStage present .gone)
    refine ⟨(s.setStage i .gone).reconnectFailed token delay, by simp [inActor, runs], ⟨?_, ?_⟩⟩
    · exact ⟨fun opened => absurd opened gone.1, fun same => by cases same⟩
    · rw [gone.2, if_neg (by simp [mine])]

theorem Attends.succeeds [FloatChars] (attends : s.Attends i a stage) (writes : s.pipeline.pendingWrite = [])
    (reads : s.pipeline.awaitingRead = []) :
    ∃ next, s.setOpen.succeed fuel i b delay = some next ∧ next.Returned i a (.ok ()) := by
  have same : s.setOpen.stageOf i = s.stageOf i := rfl
  have present : (s.setOpen.stageOf i).isSome = true := by rw [same, attends.stageOf]; rfl
  unfold succeed
  rw [owner]
  cases mine : a.owner with
  | caller =>
    refine ⟨_, rfl, ⟨?_, ?_⟩⟩
    · exact ⟨fun _ => rfl, fun _ => rfl⟩
    · rw [stageOf_setStage present, if_pos mine]
  | control =>
    obtain ⟨token, runs⟩ := attends.owned mine
    have opened : (s.setOpen.setStage i .gone).endReconnect.wakeLoops.state = .opened := rfl
    obtain ⟨next, ran, state, attempts⟩ := controlTop_kept fuel delay token opened writes reads
    have told : next.stageOf i = (s.setOpen.setStage i .gone).stageOf i :=
      congrArg (fun attempts : List Attempt => (attempts[i]?).map Attempt.stage) attempts
    have runs : s.setOpen.actor = .running token := runs
    refine ⟨next, by simp only [inActor, runs]; exact ran, ⟨by simp [state], ?_⟩⟩
    rw [told, stageOf_setStage present, if_neg (by simp [mine])]

end Returns

/-! The handshake has ended. -/

/-- What `do_connect` returns, given the text of the first error among the replies. -/
def reported : Option Bytes → Except ErrorInfo Unit
  | none => .ok ()
  | some detail => .error { code := .server .redisError, detail := detail }

/-- The result of a `do_connect` with these replies: the first error among them decides. -/
def judge (messages : List Message) : Except ErrorInfo Unit := reported (messages.findSome? Message.failure)

section Ends

variable [Inhabited ρ]

theorem handshakeSlot_eq (index : Nat) (msg : Message) : (handshakeSlot index msg : Except ErrorInfo ρ) =
    match msg.failure with
    | none => .ok default
    | some detail => .error { code := .server .redisError, detail := detail } := by
  cases msg with
  | scalar value attrs => cases value <;> rfl
  | sequence kind elements attrs => rfl
  | map entries attrs => rfl

/-- The first error among the slots is that of the first reply which is one. -/
theorem firstError_slots (messages : List Message) :
    Sink.firstError ((messages.map Delivery.message).mapIdx (PendingResponse.slotOf (handshakeSlot (ρ := ρ)))) =
      (messages.findSome? Message.failure).map fun detail => { code := .server .redisError, detail := detail } := by
  have map : (messages.map Delivery.message).mapIdx (PendingResponse.slotOf (handshakeSlot (ρ := ρ))) =
      messages.map (handshakeSlot 0) := by
    rw [List.mapIdx_eq_iff]
    intro index
    rw [List.getElem?_map, List.getElem?_map, Option.map_map]
    congr 1
  rw [map]
  clear map
  induction messages with
  | nil => rfl
  | cons msg rest ih =>
    rw [List.map_cons, List.findSome?_cons, handshakeSlot_eq]
    cases msg.failure with
    | none => exact ih
    | some detail => rfl

variable (fuel : Nat)

/-- Whatever the error, the requests in the pipeline can be failed with it. -/
def Clearable (s : System ρ) : Prop := ∀ err, (s.pipeline.clearAll fuel err s.sinks).isSome = true

variable {fuel} {i delay : Nat} {s : System ρ} {a b : Attempt} {stage : Stage} {slot : SinkRef}

omit [Inhabited ρ] in
theorem Attends.failsHandshake (attends : s.Attends i a stage) (owner : b.owner = a.owner) (clears : s.Clearable fuel)
    (err : ErrorInfo) : ∃ next, s.failHandshake fuel i b delay err = some next ∧ next.Returned i a (.error err) := by
  obtain ⟨⟨pipeline, sinks⟩, cleared⟩ := Option.isSome_iff_exists.mp (clears err)
  have still (refs : List SinkRef) :
      ((s.note (.cleared s.writeCompleted)).delivered pipeline sinks refs).Attends i a stage :=
    attends.congr rfl rfl rfl rfl rfl
  unfold failHandshake clearAll
  rw [cleared]
  exact (still _).fails owner err

/-- The handshake has ended, and so many resumptions are left until `do_connect` returns. -/
inductive Settling (fuel i : Nat) (a : Attempt) (outcome : Except ErrorInfo Unit) : Nat → System ρ → Prop where
  | failing {s : System ρ} {slot : SinkRef} {err : HandshakeError}
      (attends : s.Attends i a (.joining slot (.error err))) (clears : s.Clearable fuel)
      (same : outcome = .error (handshakeError err)) : Settling fuel i a outcome 1 s
  | joined {s : System ρ} {slot : SinkRef} {messages : List Message} (attends : s.Attends i a (.joining slot (.ok ())))
      (holds : Holds handshakeSlot messages.length slot messages s.sinks) (writes : s.pipeline.pendingWrite = [])
      (reads : s.pipeline.awaitingRead = []) (same : outcome = judge messages) : Settling fuel i a outcome 2 s
  | waiting {s : System ρ} {slot : SinkRef} {messages : List Message} (attends : s.Attends i a (.waitingSlot slot))
      (holds : Holds handshakeSlot messages.length slot messages s.sinks) (writes : s.pipeline.pendingWrite = [])
      (reads : s.pipeline.awaitingRead = []) (same : outcome = judge messages) : Settling fuel i a outcome 1 s
  | returned {s : System ρ} (returned : s.Returned i a outcome) : Settling fuel i a outcome 0 s

omit [Inhabited ρ] in
theorem Returned.stageOf {outcome : Except ErrorInfo Unit} (returned : s.Returned i a outcome) :
    s.stageOf i = some (.finished outcome) ∨ s.stageOf i = some .gone := by
  have told := returned.told
  split at told
  · exact .inl told
  · exact .inr told

/-! `do_handshake` returns. -/

variable {err : HandshakeError}

theorem Attends.endsFailed (attends : s.Attends i a stage) (owner : b.owner = a.owner)
    (clears : s.Clearable fuel) : ∃ next rank, s.endHandshake fuel i b delay slot (.error err) = some next ∧ rank ≤ 2 ∧
      Settling fuel i a (.error (handshakeError err)) rank next := by
  unfold endHandshake
  split
  · exact ⟨_, 1, rfl, by omega, .failing (attends.setStage _) clears rfl⟩
  · obtain ⟨next, failed, returned⟩ := attends.failsHandshake owner clears (handshakeError err)
    exact ⟨next, 0, failed, by omega, .returned returned⟩

theorem Attends.endsFilled {messages : List Message} (attends : s.Attends i a stage)
    (holds : Holds handshakeSlot messages.length slot messages s.sinks) (writes : s.pipeline.pendingWrite = [])
    (reads : s.pipeline.awaitingRead = []) :
    ∃ next rank, s.endHandshake fuel i b delay slot (.ok ()) = some next ∧ rank ≤ 2 ∧
      Settling fuel i a (judge messages) rank next := by
  unfold endHandshake
  split
  · exact ⟨_, 2, rfl, by omega, .joined (attends.setStage _) holds writes reads rfl⟩
  · refine ⟨s.setStage i (.waitingSlot slot), 1, ?_, by omega, .waiting (attends.setStage _) holds writes reads rfl⟩
    rw [afterHandshake, if_pos (holds.isComplete.mpr rfl)]

variable [FloatChars]

/-- The replies are looked at, and OPEN is set if there is no error among them. -/
theorem Attends.concludes {messages : List Message} (attends : s.Attends i a stage) (owner : b.owner = a.owner)
    (holds : Holds handshakeSlot messages.length slot messages s.sinks) (writes : s.pipeline.pendingWrite = [])
    (reads : s.pipeline.awaitingRead = []) :
    ∃ next, s.concludeHandshake fuel i b delay slot = some next ∧ next.Returned i a (judge messages) := by
  have full : (messages.map (Delivery.message (ε := ErrorInfo))).length = messages.length := List.length_map _
  have results : ((s.sinks.cells[slot]?).bind fun sink => sink.response.result).map Sink.firstError =
      some ((messages.findSome? Message.failure).map fun detail =>
        ({ code := .server .redisError, detail := detail } : ErrorInfo)) := by
    rw [holds]
    simp only [Option.bind_some, Sink.filled, PendingResponse.filled, if_pos full, Option.map_some]
    exact congrArg some (firstError_slots messages)
  unfold concludeHandshake judge
  rw [results]
  cases messages.findSome? Message.failure with
  | none => exact attends.succeeds owner writes reads
  | some detail => exact attends.fails owner _

namespace Settling

variable {outcome : Except ErrorInfo Unit} {rank : Nat}

/-- Nothing more is read. -/
theorem read (settling : Settling fuel i a outcome rank s) (octets : Bytes) (memory : Memory) :
    s.turn fuel i delay (.read octets memory) = some s := by
  unfold turn
  cases settling with
  | failing attends clears same => rw [attends.stageOf]
  | joined attends holds writes reads same => rw [attends.stageOf]
  | waiting attends holds writes reads same => rw [attends.stageOf]
  | returned returned =>
    rcases returned.stageOf with told | told
    · rw [told]
    · rw [told]

theorem resume (settling : Settling fuel i a outcome rank s) (delay : Nat) (untimed : a.timedOut = false) :
    ∃ next, s.turn fuel i delay .resume = some next ∧ Settling fuel i a outcome (rank - 1) next := by
  unfold turn
  cases settling with
  | failing attends clears same =>
    obtain ⟨next, failed, returned⟩ := attends.failsHandshake (b := { a with stage := _ }) rfl clears _
    refine ⟨next, ?_, .returned (same ▸ returned)⟩
    rw [attends.stageOf]
    simp only [attemptResume, attends.found, untimed, Bool.false_eq_true, if_false]
    exact failed
  | @joined _ slot messages attends holds writes reads same =>
    refine ⟨s.setStage i (.waitingSlot slot), ?_, .waiting (attends.setStage _) holds writes reads same⟩
    rw [attends.stageOf]
    simp only [attemptResume, attends.found, untimed, Bool.false_eq_true, if_false, afterHandshake]
    rw [if_pos (holds.isComplete.mpr rfl)]
  | waiting attends holds writes reads same =>
    obtain ⟨next, concluded, returned⟩ := attends.concludes (b := { a with stage := _ }) rfl holds writes reads
    refine ⟨next, ?_, .returned (same ▸ returned)⟩
    rw [attends.stageOf]
    simp only [attemptResume, attends.found]
    exact concluded
  | returned returned =>
    refine ⟨s, ?_, .returned returned⟩
    rcases returned.stageOf with told | told
    · rw [told]
    · rw [told]

end Settling

end Ends

/-! The replies arrive. -/

/-- A pipeline with one request that misses replies, or with none, can be cleared. -/
theorem clearAll_alone {fuel : Nat} {pipeline : Pipeline} {sinks : Sinks (Sink ρ) Message ErrorInfo}
    (writes : pipeline.pendingWrite = [])
    (reads : pipeline.awaitingRead = [] ∨
      ∃ item left, pipeline.awaitingRead = [item] ∧ left < fuel ∧ sinks.Needs item.sink left) (err : ErrorInfo) :
    (pipeline.clearAll fuel err sinks).isSome = true := by
  unfold Pipeline.clearAll
  rw [writes]
  rcases reads with none | ⟨item, left, one, enough, needs⟩
  · rw [none]
    rfl
  · obtain ⟨after, failed, -⟩ := Sinks.failAll_needs err needs enough
    simp [one, Sinks.failEach, failed]

/-- The error of the parser goes to the request, and the others of its replies can still be made up. -/
theorem clearAll_onError {fuel left : Nat} {x : Exchange (Sink ρ)} {slot : SinkRef} {deadline : TimePoint}
    (writes : x.pipeline.pendingWrite = []) (reads : x.pipeline.awaitingRead = [⟨slot, deadline⟩])
    (needs : x.sinks.Needs slot (left + 1)) (enough : left < fuel) (errc : ProtocolErrc) (err : ErrorInfo) :
    ((x.onError errc).pipeline.clearAll fuel err (x.onError errc).sinks).isSome = true := by
  have pending : x.pipeline.hasPendingRead = true := by rw [Pipeline.hasPendingRead, reads]; rfl
  have less := (needs.deliver (.error { code := .protocol errc })).1
  unfold Exchange.onError
  rw [if_pos pending]
  cases complete : (x.sinks.deliver slot (.error { code := .protocol errc })).isComplete slot with
  | true =>
    have answered : x.pipeline.onError { code := .protocol errc } x.sinks =
        some ({ x.pipeline with awaitingRead := [] }, x.sinks.deliver slot (.error { code := .protocol errc })) := by
      simp only [Pipeline.onError, Pipeline.dispatch, reads, complete, if_true]
    rw [answered]
    apply clearAll_alone
    · exact writes
    · exact .inl rfl
  | false =>
    have answered : x.pipeline.onError { code := .protocol errc } x.sinks =
        some (x.pipeline, x.sinks.deliver slot (.error { code := .protocol errc })) := by
      simp only [Pipeline.onError, Pipeline.dispatch, reads, complete, Bool.false_eq_true, if_false]
    rw [answered]
    exact clearAll_alone writes (.inr ⟨_, left, reads, enough, less⟩) err

section Hears

variable [FloatChars] [Inhabited ρ]

/-- The messages have these values at the top. -/
def Shows (messages : List Message) (values : List Sentence) : Prop :=
  messages.map Message.bare = values.map fun value => value.meaning.bare

/-- The handshake waits for octets, with the first `n` values of the stream delivered. -/
structure Hearing (i : Nat) (a : Attempt) (k : Nat) (slot : SinkRef) (first : Parser Bytes Text)
    (values : List Sentence) (octets : Bytes) (n : Nat) (s : System ρ) : Prop where
  call : ∃ call : ReadCall, s.Attends i a (.reading slot call) ∧ call.op = .pending ∧
    call.room = s.parser.input.available
  parser : ∃ p : Parser Buffer View, s.parser = { p with input := p.input.prepare 4096 } ∧
    Parser.Listens first values octets n p
  writes : s.pipeline.pendingWrite = []
  reads : s.pipeline.awaitingRead = [⟨slot, ⊤⟩]
  holds : ∃ got, Holds handshakeSlot k slot got s.sinks ∧ Shows got (values.take n)
  few : n < k

/-- The text of the first error among the values. -/
def firstFailure (values : List Sentence) : Option Bytes := values.findSome? fun value => value.meaning.failure

/-- What has to become of the handshake. -/
structure Verdict (k : Nat) (values : List Sentence) (outcome : Except ErrorInfo Unit) : Prop where
  full : k ≤ values.length → outcome = reported (firstFailure (values.take k))
  short : values.length < k → ∃ err, outcome = .error err

variable {fuel i delay k n : Nat} {s : System ρ} {a b : Attempt} {stage : Stage} {slot : SinkRef}
  {first : Parser Bytes Text} {values : List Sentence} {stream octets chunk rest : Bytes} {memory : Memory}
  {got : List Message}

omit [FloatChars] [Inhabited ρ] in
theorem Shows.length (shows : Shows got values) : got.length = values.length := by
  have size := congrArg List.length shows
  rwa [List.length_map, List.length_map] at size

omit [FloatChars] [Inhabited ρ] in
/-- The value at the top decides whether a reply is an error. -/
theorem Shows.judge (shows : Shows got values) : judge got = reported (firstFailure values) := by
  have same : got.findSome? Message.failure = firstFailure values := by
    have bare (messages : List Message) :
        messages.findSome? Message.failure = (messages.map Message.bare).findSome? Message.failure := by
      rw [List.findSome?_map]
      exact congrArg messages.findSome? (funext fun message => (Message.failure_bare message).symm)
    rw [bare, shows, List.findSome?_map, firstFailure]
    exact congrArg values.findSome? (funext fun value => Message.failure_bare value.meaning)
  rw [System.judge, same]

/-- The next read is issued as long as replies are missing. -/
theorem Attends.hears (attends : s.Attends i a stage) (fuel delay : Nat) (token : b.token = a.token)
    (listens : Parser.Listens first values octets n s.parser) (writes : s.pipeline.pendingWrite = [])
    (reads : s.pipeline.awaitingRead = [⟨slot, ⊤⟩]) (holds : Holds handshakeSlot k slot got s.sinks)
    (shows : Shows got (values.take n)) (few : n < k) :
    ∃ next, s.handshakeRead fuel i b delay slot = some next ∧ next.Hearing i a k slot first values octets n := by
  have count : got.length = n := by rw [shows.length, List.length_take, Nat.min_eq_left listens.count]
  have missing : ¬ s.sinks.isComplete slot = true := fun complete => by
    have := holds.isComplete.mp complete
    omega
  have prepared : ({ s with parser := s.nextRead.1 } : System ρ).Attends i a stage := attends.congr rfl rfl rfl rfl rfl
  have issued : s.nextRead.2.op = .pending := by simp [nextRead, issue, attends.socket]
  refine ⟨{ s with parser := s.nextRead.1 }.setStage i (.reading slot s.nextRead.2), ?_, ?_⟩
  · unfold handshakeRead
    rw [token, attends.unstopped, if_neg Bool.false_ne_true, if_neg missing]
  · exact ⟨⟨_, prepared.setStage _, issued, rfl⟩, ⟨s.parser, rfl, listens⟩, writes, reads, ⟨got, holds, shows⟩, few⟩

omit [FloatChars] in
/-- No read is issued once all replies are there. -/
theorem Attends.filled {messages : List Message} (attends : s.Attends i a stage) (token : b.token = a.token)
    (holds : Holds handshakeSlot messages.length slot messages s.sinks) (writes : s.pipeline.pendingWrite = [])
    (reads : s.pipeline.awaitingRead = []) :
    ∃ next rank, s.handshakeRead fuel i b delay slot = some next ∧ rank ≤ 2 ∧
      Settling fuel i a (judge messages) rank next := by
  unfold handshakeRead
  rw [token, attends.unstopped, if_neg Bool.false_ne_true, if_pos (holds.isComplete.mpr rfl)]
  exact attends.endsFilled holds writes reads

/-- The read completes. -/
theorem Hearing.arrived (hearing : s.Hearing i a k slot first values octets n) (fuel delay : Nat)
    (tame : s.Tame i (.read chunk memory)) : ∃ call : ReadCall,
    (s.setStage i (.reading slot { call with op := .ready (.ok chunk) })).Attends i a
      (.reading slot { call with op := .ready (.ok chunk) }) ∧
    s.turn fuel i delay (.read chunk memory) =
      (s.setStage i (.reading slot { call with op := .ready (.ok chunk) })).attemptResume fuel i
        { delay := delay, memory := memory } ∧
    chunk.length ≤ s.parser.input.available ∧ s.parser.Colons memory := by
  obtain ⟨call, attends, pending, room⟩ := hearing.call
  obtain ⟨fits, colons⟩ := tame call (by simp [readCall, attends.stageOf])
  refine ⟨call, attends.setStage _, ?_, room ▸ fits, colons⟩
  unfold turn completed attemptComplete
  rw [attends.stageOf, attends.found]
  simp [ReadCall.complete, pending, fits]

variable (spelling : Parser.Spelling first stream values)
  (built : ∀ value ∈ values, value.builtIn fuel = true) (enough : k < fuel)
  (hearing : s.Hearing i a k slot first values octets n)

include hearing in
theorem Hearing.count (shows : Shows got (values.take n)) : got.length = n := by
  obtain ⟨p, -, listens⟩ := hearing.parser
  rw [shows.length, List.length_take, Nat.min_eq_left listens.count]

include spelling enough hearing in
/-- The stream ends too early. -/
theorem Hearing.ends (all : octets = stream) (tame : s.Tame i (.read [] memory)) :
    ∃ next outcome rank, s.turn fuel i delay (.read [] memory) = some next ∧ rank ≤ 2 ∧
      Settling fuel i a outcome rank next ∧ Verdict k values outcome := by
  obtain ⟨call, attends, turned, -⟩ := hearing.arrived fuel delay tame
  obtain ⟨p, -, listens⟩ := hearing.parser
  obtain ⟨got, holds, shows⟩ := hearing.holds
  -- all that the stream holds has been returned, and that is too little
  have short : values.length < k := listens.complete spelling all ▸ hearing.few
  have needs := holds.needs (by rw [hearing.count shows]; exact Nat.le_of_lt hearing.few)
  have clears : (s.setStage i (.reading slot { call with op := .ready (.ok []) })).Clearable fuel :=
    clearAll_alone hearing.writes (.inr ⟨_, _, hearing.reads, Nat.lt_of_le_of_lt (Nat.sub_le _ _) enough, needs⟩)
  obtain ⟨next, rank, ended, small, settling⟩ := attends.endsFailed (b := { a with stage := _ }) rfl clears
  refine ⟨next, _, rank, ?_, small, settling, ⟨fun full => by omega, fun _ => ⟨_, rfl⟩⟩⟩
  rw [turned]
  simp only [attemptResume, attends.found, if_true]
  exact ended

include spelling built hearing in
/-- What the loop over `parse_one` delivers are messages with the next values, until the slots are filled. -/
theorem Hearing.attended {p : Parser Buffer View} (parser : s.parser = { p with input := p.input.prepare 4096 })
    (listens : Parser.Listens first values octets n p) (holds : Holds handshakeSlot k slot got s.sinks)
    (shows : Shows got (values.take n)) (arrives : octets ++ (chunk ++ rest) = stream)
    (fits : chunk.length ≤ (p.input.prepare 4096).available) (colons : (p.feed 4096 chunk).Colons memory) :
    ∃ last got', ∃ attended : Attended (Sink ρ),
      s.consume fuel memory chunk (fun sinks => sinks.isComplete slot) =
        Exchange.conclude attended last (p.feed 4096 chunk).drain ∧
      Holds handshakeSlot k slot got' attended.sinks ∧
      Shows got' (values.take (min k (n + (p.feed 4096 chunk).drain.roots.length))) ∧
      (n + (p.feed 4096 chunk).drain.roots.length < k →
        attended.outcome = none ∧ attended.pipeline = s.pipeline) ∧
      (k ≤ n + (p.feed 4096 chunk).drain.roots.length →
        attended.outcome = some .complete ∧ attended.pipeline = { s.pipeline with awaitingRead := [] }) := by
  obtain ⟨messages, builds, bare⟩ := listens.rendered spelling arrives fits built colons
  have size := congrArg List.length builds
  rw [List.length_map, List.length_map] at size
  have count := hearing.count shows
  have few := hearing.few
  obtain ⟨last, dispatched⟩ := @Exchange.dispatch_attend (Sink ρ) _ fuel memory (fun sinks => sinks.isComplete slot) _
    (p.feed 4096 chunk) s.pipeline s.sinks messages builds
  obtain ⟨held, less, more⟩ := attend_alone messages holds (by omega) hearing.reads
  rw [count, ← size] at less more
  refine ⟨last, _, _, ?_, held, ?_, less, more⟩
  · rw [← dispatched]
    unfold consume
    rw [parser]
    rfl
  · have taken : values.take (min k (n + (p.feed 4096 chunk).drain.roots.length)) =
        values.take n ++ ((values.drop n).take (p.feed 4096 chunk).drain.roots.length).take (k - n) := by
      rw [List.take_take, ← List.take_add]
      congr 1
      omega
    have next := congrArg (List.take (k - n)) bare
    rw [← List.map_take, ← List.map_take] at next
    rw [count, Shows, taken, List.map_append, List.map_append, shows, next]

include spelling built enough hearing in
/-- A chunk fills some slots: the handshake goes on, or it has ended. -/
theorem Hearing.hears (arrives : octets ++ (chunk ++ rest) = stream) (nonempty : chunk ≠ [])
    (tame : s.Tame i (.read chunk memory)) :
    ∃ next, s.turn fuel i delay (.read chunk memory) = some next ∧
      ((∃ n', next.Hearing i a k slot first values (octets ++ chunk) n') ∨
        ∃ outcome rank, rank ≤ 2 ∧ Settling fuel i a outcome rank next ∧ Verdict k values outcome) := by
  obtain ⟨call, attends, turned, fits, colons⟩ := hearing.arrived fuel delay tame
  obtain ⟨p, parser, listens⟩ := hearing.parser
  obtain ⟨got, holds, shows⟩ := hearing.holds
  rw [parser] at fits colons
  have within := listens.count_piece spelling arrives fits
  have read := listens.read spelling arrives fits rfl
  have few := hearing.few
  obtain ⟨last, got', attended, consumed, held, shown, less, more⟩ :=
    hearing.attended spelling built parser listens holds shows arrives fits colons
  have length := shown.length
  generalize (p.feed 4096 chunk).drain = drained at within read consumed shown less more length
  rw [List.length_take] at length
  have consumed : (s.setStage i (.reading slot { call with op := .ready (.ok chunk) })).consume fuel memory chunk
      (fun sinks => sinks.isComplete slot) = Exchange.conclude attended last drained := consumed
  have behind (x : Exchange (Sink ρ)) (note : Note) :
      ((((s.setStage i (.reading slot { call with op := .ready (.ok chunk) })).note note).consumed x).setStage i
        (.handshaking slot)).Attends i a (.handshaking slot) := by
    have still : (((s.setStage i (.reading slot { call with op := .ready (.ok chunk) })).note note).consumed x).Attends
        i a (.reading slot { call with op := .ready (.ok chunk) }) := attends.congr rfl rfl rfl rfl rfl
    exact still.setStage _
  rw [turned]
  simp only [attemptResume, attends.found, if_neg nonempty]
  unfold handshakeChunk
  rw [consumed]
  -- the last slot is filled, or the parser asks for more, or it has met an octet that is no RESP3
  by_cases full : k ≤ n + drained.roots.length
  · obtain ⟨outcome, pipeline⟩ := more full
    rw [Nat.min_eq_left full] at shown length
    have whole : got'.length = k := by omega
    rw [← whole] at held
    have writes : attended.pipeline.pendingWrite = [] := by rw [pipeline]; exact hearing.writes
    have reads : attended.pipeline.awaitingRead = [] := by rw [pipeline]
    simp only [Exchange.conclude, outcome]
    obtain ⟨next, rank, ended, small, settling⟩ := (behind ⟨last, attended.pipeline, attended.sinks⟩ _).filled
      (b := { a with stage := _ }) rfl held writes reads
    exact ⟨next, ended, .inr ⟨_, rank, small, settling, ⟨fun _ => shown.judge, fun short => by omega⟩⟩⟩
  · obtain ⟨outcome, pipeline⟩ := less (by omega)
    rw [Nat.min_eq_right (Nat.le_of_not_le full)] at shown length
    have writes : attended.pipeline.pendingWrite = [] := by rw [pipeline]; exact hearing.writes
    have reads : attended.pipeline.awaitingRead = [⟨slot, ⊤⟩] := by rw [pipeline]; exact hearing.reads
    simp only [Exchange.conclude, outcome]
    rcases read with ⟨answer, listens⟩ | ⟨⟨errc, answer⟩, spoilt⟩
    · simp only [Exchange.ended, answer]
      obtain ⟨next, issued, hearing⟩ := (behind ⟨drained.parser, attended.pipeline, attended.sinks⟩ _).hears
        (b := { a with stage := _ }) fuel delay rfl listens writes reads held shown (by omega)
      exact ⟨next, issued, .inl ⟨_, hearing⟩⟩
    · simp only [Exchange.ended, answer]
      have needs := held.needs (by omega)
      rw [show k - got'.length = (k - (n + drained.roots.length) - 1) + 1 by omega] at needs
      have clears : ((((s.setStage i (.reading slot { call with op := .ready (.ok chunk) })).note
          (.parsed ((s.setStage i (.reading slot { call with op := .ready (.ok chunk) })).staleFor
            { a with stage := .reading slot { call with op := .ready (.ok chunk) } }))).consumed
          (Exchange.onError ⟨drained.parser, attended.pipeline, attended.sinks⟩ errc)).setStage i
            (.handshaking slot)).Clearable fuel := clearAll_onError writes reads needs (by omega) errc
      obtain ⟨next, rank, ended, small, settling⟩ := (behind _ _).endsFailed (b := { a with stage := _ }) rfl clears
      exact ⟨next, ended, .inr ⟨_, rank, small, settling, ⟨fun _ => by omega, fun _ => ⟨_, rfl⟩⟩⟩⟩

end Hears

section Run

variable [FloatChars] [Inhabited ρ] {fuel i delay k n : Nat} {s : System ρ} {a : Attempt} {slot : SinkRef}
  {first : Parser Bytes Text} {values : List Sentence} {stream octets : Bytes} {chunks : List (Bytes × Memory)}

/-- Once the handshake has ended, nothing of what still arrives is read. -/
theorem Settling.reads {outcome : Except ErrorInfo Unit} {rank : Nat} (settling : Settling fuel i a outcome rank s)
    (chunks : List (Bytes × Memory)) (memory : Memory) :
    runFrom (turn fuel i delay) s (Turn.reads chunks ++ [.read [] memory]) = some s := by
  induction chunks with
  | nil =>
    rw [Turn.reads, List.map_nil, List.nil_append, runFrom, settling.read]
    rfl
  | cons chunk rest ih =>
    rw [Turn.reads, List.map_cons, List.cons_append, runFrom, settling.read]
    exact ih

/-- The whole stream is offered, and the handshake ends. -/
theorem Hearing.run {memory : Memory} {later : List Turn} (spelling : Parser.Spelling first stream values)
    (built : ∀ value ∈ values, value.builtIn fuel = true) (enough : k < fuel)
    (hearing : s.Hearing i a k slot first values octets n) (arrives : octets ++ arriving chunks = stream)
    (nonempty : ∀ chunk ∈ chunks, chunk.1 ≠ [])
    (tame : Guarded (turn fuel i delay) (Tame i) s (Turn.reads chunks ++ (.read [] memory :: later))) :
    ∃ last outcome rank, runFrom (turn fuel i delay) s (Turn.reads chunks ++ [.read [] memory]) = some last ∧
      rank ≤ 2 ∧ Settling fuel i a outcome rank last ∧ Verdict k values outcome := by
  -- Induction on the chunks: each leaves a handshake that reads on, or one that has ended.
  induction chunks generalizing s octets n with
  | nil =>
    rw [arriving, List.map_nil, List.flatten_nil, List.append_nil] at arrives
    obtain ⟨next, outcome, rank, turned, small, settling, verdict⟩ := hearing.ends spelling enough arrives tame.1
    refine ⟨next, outcome, rank, ?_, small, settling, verdict⟩
    rw [Turn.reads, List.map_nil, List.nil_append, runFrom, turned]
    rfl
  | cons chunk rest ih =>
    rw [arriving, List.map_cons, List.flatten_cons] at arrives
    rw [List.forall_mem_cons] at nonempty
    obtain ⟨next, turned, onward⟩ := hearing.hears spelling built enough arrives nonempty.1 tame.1
    rw [Turn.reads, List.map_cons, List.cons_append, runFrom, turned]
    rcases onward with ⟨n', hearing⟩ | ⟨outcome, rank, small, settling, verdict⟩
    · exact ih hearing (by rw [List.append_assoc]; exact arrives) nonempty.2 (tame.tail turned)
    · exact ⟨next, outcome, rank, settling.reads rest memory, small, settling, verdict⟩

/-- Two more resumptions are enough for `do_connect` to return. -/
theorem Settling.returns {outcome : Except ErrorInfo Unit} {rank : Nat} (settling : Settling fuel i a outcome rank s)
    (delay : Nat) (untimed : a.timedOut = false) (small : rank ≤ 2) :
    ∃ last, runFrom (turn fuel i delay) s [.resume, .resume] = some last ∧ last.Returned i a outcome := by
  obtain ⟨middle, one, settling⟩ := settling.resume delay untimed
  obtain ⟨last, two, settling⟩ := settling.resume delay untimed
  have none : rank - 1 - 1 = 0 := by omega
  rw [none] at settling
  refine ⟨last, by simp only [runFrom, one, two], ?_⟩
  cases settling with
  | returned returned => exact returned

/-! The request is written. -/

/-- The handshake waits for the socket to take the last `left` octets of its request. -/
structure Sending (i : Nat) (a : Attempt) (k : Nat) (slot : SinkRef) (left : Nat) (parser : Parser Buffer View)
    (s : System ρ) : Prop where
  call : ∃ call : WriteCall, s.Attends i a (.writing slot call) ∧ call.op = .pending ∧ call.size = left
  queue : ∃ item : PendingItem, s.pipeline.pendingWrite = [item] ∧ item.sink = slot ∧ item.deadline = ⊤ ∧
    item.unwritten.length = left
  bytes : left ≤ s.pipeline.pendingWriteBytes
  positive : 0 < left
  reads : s.pipeline.awaitingRead = []
  holds : Holds handshakeSlot k slot [] s.sinks
  commands : 0 < k
  parser : s.parser = parser

variable {b : Attempt} {stage : Stage} {left : Nat} {parser : Parser Buffer View}

omit [FloatChars] in
/-- The next write is issued as long as octets of the request are left. -/
theorem Attends.sends {item : PendingItem} (attends : s.Attends i a stage) (fuel delay : Nat)
    (token : b.token = a.token) (queue : s.pipeline.pendingWrite = [item]) (sink : item.sink = slot)
    (deadline : item.deadline = ⊤)
    (bytes : item.unwritten.length ≤ s.pipeline.pendingWriteBytes) (positive : 0 < item.unwritten.length)
    (reads : s.pipeline.awaitingRead = []) (holds : Holds handshakeSlot k slot [] s.sinks) (commands : 0 < k) :
    ∃ next, s.handshakeWrite fuel i b delay slot = some next ∧
      next.Sending i a k slot item.unwritten.length s.parser := by
  have issued : s.nextWrite = some { sink := item.sink, size := item.unwritten.length, op := .pending } := by
    simp [nextWrite, queue, issue, attends.socket]
  have noted (note : Note) : (s.note note).Attends i a stage := attends.congr rfl rfl rfl rfl rfl
  refine ⟨(s.note (.written item.sink s.socket)).setStage i
    (.writing slot ⟨item.sink, item.unwritten.length, .pending⟩), ?_, ?_⟩
  · unfold handshakeWrite
    rw [token, attends.unstopped, if_neg Bool.false_ne_true, issued]
  · exact ⟨⟨_, (noted _).setStage _, rfl, rfl⟩, ⟨item, queue, sink, deadline, rfl⟩, bytes, positive, reads, holds,
      commands, rfl⟩

omit [FloatChars] [Inhabited ρ] in
/-- With nothing left to write the replies are waited for. -/
theorem Attends.sent (attends : s.Attends i a stage) (token : b.token = a.token)
    (written : s.pipeline.pendingWrite = []) :
    s.handshakeWrite fuel i b delay slot = s.handshakeRead fuel i b delay slot := by
  have none : s.nextWrite = none := by simp [nextWrite, written]
  unfold handshakeWrite
  rw [token, attends.unstopped, if_neg Bool.false_ne_true, none]

/-- The write completes, and the octets are taken off the request. -/
theorem Attends.applied {call : WriteCall} {pipeline : Pipeline} (attends : s.Attends i a (.writing slot call))
    (fuel delay : Nat) (pending : call.op = .pending) (fits : n ≤ call.size)
    (done : s.pipeline.onWriteDone n = some pipeline) :
    ∃ (moved : System ρ) (b : Attempt), moved.Attends i a (.handshaking slot) ∧ b.token = a.token ∧
      moved.pipeline = pipeline ∧ moved.sinks = s.sinks ∧ moved.parser = s.parser ∧
      s.turn fuel i delay (.wrote n) = moved.handshakeWrite fuel i b delay slot := by
  have completed := attends.setStage (.writing slot { call with op := .ready (.ok n) })
  have applied : ({ s.setStage i (.writing slot { call with op := .ready (.ok n) }) with pipeline := pipeline } :
      System ρ).Attends i a (.writing slot { call with op := .ready (.ok n) }) := completed.congr rfl rfl rfl rfl rfl
  refine ⟨_, { a with stage := .writing slot { call with op := .ready (.ok n) } }, applied.setStage _, rfl, rfl, rfl,
    rfl, ?_⟩
  have turned : s.turn fuel i delay (.wrote n) =
      (s.setStage i (.writing slot { call with op := .ready (.ok n) })).attemptResume fuel i { delay := delay } := by
    unfold turn System.completed attemptComplete
    rw [attends.stageOf, attends.found]
    simp [WriteCall.complete, pending, fits]
  have done : (s.setStage i (.writing slot { call with op := .ready (.ok n) })).pipeline.onWriteDone n =
      some pipeline := done
  rw [turned]
  simp only [attemptResume, completed.found, done]

/-- The socket takes some octets. When it has them all, the replies are waited for. -/
theorem Sending.wrote (sending : s.Sending i a k slot left parser) (fuel delay : Nat)
    (listens : Parser.Listens first values [] 0 parser) (fits : n ≤ left) :
    ∃ next, s.turn fuel i delay (.wrote n) = some next ∧
      (n < left → next.Sending i a k slot (left - n) parser) ∧
      (n = left → next.Hearing i a k slot first values [] 0) := by
  obtain ⟨call, attends, pending, size⟩ := sending.call
  obtain ⟨item, queue, sink, deadline, unwritten⟩ := sending.queue
  have within := item.written_le
  have bytes := sending.bytes
  have whole : left = item.req.wire.length - item.written := by
    rw [← unwritten, PendingItem.unwritten, List.length_drop]
  by_cases last : n = left
  · have done : s.pipeline.onWriteDone n = some { s.pipeline with
        pendingWriteBytes := s.pipeline.pendingWriteBytes - n
        awaitingRead := s.pipeline.awaitingRead ++ [⟨item.sink, item.deadline⟩]
        pendingWrite := [] } := by
      simp only [Pipeline.onWriteDone, queue]
      rw [dif_pos ⟨by omega, by omega⟩, if_pos (by omega)]
    obtain ⟨moved, b, attends, token, pipeline, sinks, same, turned⟩ :=
      attends.applied fuel delay pending (size ▸ fits) done
    have written : moved.pipeline.pendingWrite = [] := by rw [pipeline]
    have reads : moved.pipeline.awaitingRead = [⟨slot, ⊤⟩] := by
      rw [pipeline, ← sink, ← deadline]
      simp [sending.reads]
    have listens : Parser.Listens first values [] 0 moved.parser := by
      rw [same, sending.parser]
      exact listens
    rw [turned, attends.sent token written]
    have nothing : Shows [] (values.take 0) := rfl
    obtain ⟨next, issued, hearing⟩ := attends.hears fuel delay token listens written reads
      (sinks ▸ sending.holds) nothing sending.commands
    exact ⟨next, issued, fun less => absurd less (by omega), fun _ => hearing⟩
  · have done : s.pipeline.onWriteDone n = some { s.pipeline with
        pendingWriteBytes := s.pipeline.pendingWriteBytes - n
        pendingWrite := [{ item with written := item.written + n, written_le := by omega }] } := by
      simp only [Pipeline.onWriteDone, queue]
      rw [dif_pos ⟨by omega, by omega⟩, if_neg (by omega)]
    obtain ⟨moved, b, attends, token, pipeline, sinks, same, turned⟩ :=
      attends.applied fuel delay pending (size ▸ fits) done
    have rest : ({ item with written := item.written + n, written_le := by omega } : PendingItem).unwritten.length =
        left - n := by
      rw [PendingItem.unwritten, List.length_drop]
      dsimp only
      omega
    have reads : moved.pipeline.awaitingRead = [] := by rw [pipeline]; exact sending.reads
    have counted : moved.pipeline.pendingWriteBytes = s.pipeline.pendingWriteBytes - n := by rw [pipeline]
    have queue : moved.pipeline.pendingWrite =
        [{ item with written := item.written + n, written_le := by omega }] := by rw [pipeline]
    obtain ⟨next, issued, sending'⟩ := attends.sends fuel delay token queue sink deadline
      (by rw [rest, counted]; omega) (by rw [rest]; omega) reads (sinks ▸ sending.holds) sending.commands
    rw [rest, same, sending.parser] at sending'
    exact ⟨next, turned.trans issued, fun _ => sending', fun all => absurd all last⟩

/-- While the replies are waited for, the socket is not written to. -/
theorem Hearing.wrote (hearing : s.Hearing i a k slot first values octets n) (fuel delay : Nat) (writes : List Nat) :
    runFrom (turn fuel i delay) s (writes.map .wrote) = some s := by
  obtain ⟨call, attends, -⟩ := hearing.call
  induction writes with
  | nil => rfl
  | cons n rest ih =>
    have idle : s.turn fuel i delay (.wrote n) = some s := by
      unfold turn
      rw [attends.stageOf]
    rw [List.map_cons, runFrom, idle]
    exact ih

/-- The whole request is written, in any portions. -/
theorem Sending.run (sending : s.Sending i a k slot left parser) (fuel delay : Nat)
    (listens : Parser.Listens first values [] 0 parser) {writes : List Nat} (sum : writes.sum = left) :
    ∃ next, runFrom (turn fuel i delay) s (writes.map .wrote) = some next ∧
      next.Hearing i a k slot first values [] 0 := by
  induction writes generalizing s left with
  | nil =>
    have positive := sending.positive
    rw [List.sum_nil] at sum
    omega
  | cons n rest ih =>
    rw [List.sum_cons] at sum
    obtain ⟨next, turned, more, all⟩ := sending.wrote (n := n) fuel delay listens (by omega)
    rw [List.map_cons, runFrom, turned]
    by_cases last : n = left
    · exact ⟨next, (all last).wrote fuel delay rest, all last⟩
    · exact ih (more (by omega)) (by omega)

end Run

/-! The whole attempt. -/

section Judged

variable [FloatChars]

/-- The stream begins with these values, one for each command of the handshake. -/
structure Begins (s : System ρ) (stream : Bytes) (values : List Sentence) : Prop where
  count : values.length = (handshakeRequest s.cfg).replyCount
  formed : ∀ value ∈ values, value.WellFormed s.parser.limits
  front : Sentence.encodeAll values <+: stream

/-- So many passes are enough for every `build_message` and for `fail_all`. -/
def Suffices (s : System ρ) (stream : Bytes) (fuel : Nat) : Prop :=
  (handshakeRequest s.cfg).replyCount < fuel ∧
    ∀ tree ∈ ((s.parser.copy .zeroed).append stream).drain.trees,
      (match build fuel tree.2 tree.1 with
        | some (.ok _) => true
        | _ => false) = true

instance (s : System ρ) (stream : Bytes) (fuel : Nat) : Decidable (s.Suffices stream fuel) :=
  inferInstanceAs (Decidable (_ ∧ _))

variable {s : System ρ} {stream : Bytes} {values others : List Sentence}

omit [FloatChars] in
theorem handshake_commands (cfg : Config) : 0 < (handshakeRequest cfg).replyCount := by
  rw [handshakeRequest, Request.replyCount, Request.ofCommands_commandCount, handshakeCommands]
  simp

omit [FloatChars] in
theorem handshake_wire (cfg : Config) : 0 < (handshakeRequest cfg).wire.length := by
  have hello : 0 < (Command.message (Command.variadic (text "HELLO") [.text (text "3")]).words).encode.length := by
    decide +kernel
  rw [handshakeRequest, Request.ofCommands_wire, handshakeCommands]
  simp only [List.append_assoc, List.map_append, List.flatten_append, List.length_append, List.map_cons, List.map_nil,
    List.flatten_cons, List.flatten_nil, List.append_nil]
  omega

/-- Two lists of values in front of one stream have the same first error. -/
theorem firstFailure_roots {limits : Resp3.Limits} (formed : ∀ value ∈ values, value.WellFormed limits)
    (formed' : ∀ value ∈ others, value.WellFormed limits) (small : ∀ value ∈ values, value.encode.length < 2 ^ 32)
    (small' : ∀ value ∈ others, value.encode.length < 2 ^ 32)
    (same : values.map Sentence.root = others.map Sentence.root) : firstFailure values = firstFailure others := by
  induction values generalizing others with
  | nil =>
    obtain rfl : others = [] := List.map_eq_nil_iff.mp same.symm
    rfl
  | cons value rest ih =>
    obtain ⟨other, rest', rfl, head, tail⟩ := List.map_eq_cons_iff.mp same.symm
    rw [List.forall_mem_cons] at formed formed' small small'
    have here := Sentence.failure_root formed.1 formed'.1 small.1 small'.1 head.symm
    have later := ih formed.2 formed'.2 small.2 small'.2 tail.symm
    rw [firstFailure, firstFailure] at later ⊢
    rw [List.findSome?_cons, List.findSome?_cons, here, later]

variable [Inhabited ρ] {i : Nat} {a : Attempt}

/-- The request is queued, and its octets are offered to the socket. -/
theorem Ready.starts (ready : s.Ready i a) (fuel delay : Nat) :
    ∃ next slot, s.turn fuel i delay .resume = some next ∧
      next.Sending i a (handshakeRequest s.cfg).replyCount slot (handshakeRequest s.cfg).wire.length s.parser := by
  obtain ⟨left, stage⟩ := ready.connected
  obtain ⟨pipeline, pushed⟩ := Option.isSome_iff_exists.mp ready.admitted
  have queued := push_eq_some pushed
  have attends : s.Attends i a a.stage := ⟨ready.found, ready.unstopped, ready.socket, ready.unopened, ready.owned⟩
  have accepted : (s.queue pipeline
      (s.sinks.alloc (Sink.forRequest handshakeSlot (handshakeRequest s.cfg))).2).Attends i a a.stage :=
    attends.congr rfl rfl rfl rfl rfl
  have holds : Holds (ρ := ρ) handshakeSlot (handshakeRequest s.cfg).replyCount s.sinks.cells.length []
      (s.sinks.alloc (Sink.forRequest handshakeSlot (handshakeRequest s.cfg))).2 := by
    rw [Holds, Sink.filled, List.map_nil, PendingResponse.filled_nil (handshake_commands s.cfg)]
    exact List.getElem?_concat_length
  have unsent : (PendingItem.unsent (handshakeRequest s.cfg) s.sinks.cells.length ⊤).unwritten.length =
      (handshakeRequest s.cfg).wire.length := rfl
  have moved := accepted.setStage (.handshaking s.sinks.cells.length)
  have queue : pipeline.pendingWrite = [.unsent (handshakeRequest s.cfg) s.sinks.cells.length ⊤] := by
    rw [queued, ready.writes]
    rfl
  have bytes : (handshakeRequest s.cfg).wire.length ≤ pipeline.pendingWriteBytes := by
    rw [queued]
    exact Nat.le_add_left ..
  have reads : pipeline.awaitingRead = [] := by
    rw [queued]
    exact ready.reads
  obtain ⟨next, issued, sending⟩ := moved.sends (b := a) fuel delay rfl queue rfl rfl bytes
    (handshake_wire s.cfg) reads holds (handshake_commands s.cfg)
  refine ⟨next, s.sinks.cells.length, ?_, sending⟩
  unfold turn
  rw [attends.stageOf, stage]
  simp only [attemptResume, ready.found, stage, ready.socket]
  unfold beginHandshake
  rw [ready.unstopped, if_neg Bool.false_ne_true]
  dsimp only
  rw [show s.pipeline.push (Request.ofCommands (handshakeCommands s.cfg)) (s.sinks.alloc _).1 ⊤ = _ from pushed]
  exact issued

omit [Inhabited ρ] in
/-- The verdict speaks of the values in front of the stream, whichever way these are read. -/
theorem Verdict.judged {first : Parser Bytes Text} {outcome : Except ErrorInfo Unit}
    (spelling : Parser.Spelling first stream values) (limits : first.limits = s.parser.limits)
    (verdict : Verdict (handshakeRequest s.cfg).replyCount values outcome) :
    (outcome = .ok () ↔ ∃ values, s.Begins stream values ∧ firstFailure values = none) ∧
      ∀ values detail, s.Begins stream values → firstFailure values = some detail →
        outcome = .error { code := .server .redisError, detail := detail } := by
  -- Values that the stream begins with have the trees of the first values that the parser returns.
  have front {others : List Sentence} (begins : s.Begins stream others) :
      (handshakeRequest s.cfg).replyCount ≤ values.length ∧
        firstFailure others = firstFailure (values.take (handshakeRequest s.cfg).replyCount) := by
    have formed : ∀ other ∈ others, other.WellFormed first.limits := limits ▸ begins.formed
    have roots := spelling.starts formed begins.front
    have size := roots.length_le
    rw [List.length_map, List.length_map, begins.count] at size
    rw [List.prefix_iff_eq_take, List.length_map, begins.count, ← List.map_take] at roots
    refine ⟨size, firstFailure_roots formed (fun value member => spelling.formed value (List.mem_of_mem_take member)) ?_
      (fun value member => spelling.value_small (List.mem_of_mem_take member)) roots⟩
    intro other member
    exact Nat.lt_of_le_of_lt
      (Nat.le_trans (Sentence.length_encode_le member) begins.front.length_le) spelling.small
  by_cases full : (handshakeRequest s.cfg).replyCount ≤ values.length
  · have begins : s.Begins stream (values.take (handshakeRequest s.cfg).replyCount) :=
      ⟨by rw [List.length_take, Nat.min_eq_left full],
        fun value member => limits ▸ spelling.formed value (List.mem_of_mem_take member),
        (Sentence.encodeAll_take_isPrefix values _).trans spelling.front⟩
    have told := verdict.full full
    refine ⟨⟨fun succeeded => ⟨_, begins, ?_⟩, ?_⟩, ?_⟩
    · cases failed : firstFailure (values.take (handshakeRequest s.cfg).replyCount) with
      | none => rfl
      | some detail =>
        rw [told, failed] at succeeded
        cases succeeded
    · rintro ⟨others, begins, clean⟩
      rw [told, ← (front begins).2, clean]
      rfl
    · intro others detail begins failed
      rw [told, ← (front begins).2, failed]
      rfl
  · obtain ⟨err, rfl⟩ := verdict.short (Nat.lt_of_not_le full)
    refine ⟨⟨fun succeeded => (by cases succeeded), ?_⟩, ?_⟩
    · rintro ⟨others, begins, -⟩
      exact absurd (front begins).1 full
    · intro others detail begins
      exact absurd (front begins).1 full

end Judged

/-! One attempt and two replies. -/

/-- `connect()` up to the connected socket. -/
def dialling : List (Act Unit) :=
  [.connect, .attemptStart 0, .attemptComplete 0 (.resolved (.ok 1)), .attemptResume 0 {},
    .attemptComplete 0 (.connected (.ok ()))]

def dialled [FloatChars] : System Unit := (runFrom (step 16) (start {}) dialling).getD (start {})

theorem dialled_reached [FloatChars] : Reached 16 {} dialled := ⟨dialling, rfl⟩

theorem dialled_ready [FloatChars] : dialled.Ready 0
    { owner := .caller, token := 0, reset := 1, stage := .connecting 0 (.ready (.ok ())) } where
  found := rfl
  connected := ⟨0, rfl⟩
  untimed := rfl
  unstopped := rfl
  socket := rfl
  parser := ⟨.fresh {}, rfl⟩
  writes := rfl
  reads := rfl
  admitted := by
    show (({ limits := {} } : Pipeline).push (handshakeRequest {}) 0 ⊤).isSome = true
    decide +kernel
  unopened := fun opened => by cases opened
  owned := fun control => by cases control

def okReply : Sentence := .leaf (.line .simpleString (text "OK"))

/-- An array of two replies. -/
def pairReply (first second : Sentence) : Sentence := .aggregate .array (text "2") [first, second]

/-- A verbatim string. -/
def noteReply : Sentence := .leaf (.bulk .verbatimString (text "7") (text "txt:abc"))

theorem okReply_wellFormed [FloatChars] : okReply.WellFormed {} :=
  .leaf (.line rfl (by decide +kernel) (by decide +kernel) (by simp) (by simp))

theorem noteReply_wellFormed [FloatChars] : noteReply.WellFormed {} := by
  have numeral : Numeral {} (text "7") (text "txt:abc").length := ⟨by decide +kernel, by decide +kernel⟩
  exact .leaf (.bulk rfl numeral (by decide +kernel) (by decide +kernel))

theorem pairReply_wellFormed [FloatChars] {first second : Sentence} (formed : first.WellFormed {})
    (formed' : second.WellFormed {}) : (pairReply first second).WellFormed {} := by
  have numeral : Numeral {} (text "2") (2 : Nat) := ⟨by decide +kernel, by decide +kernel⟩
  refine .aggregate rfl numeral ⟨by decide +kernel, by decide +kernel⟩ rfl ?_
  simp only [List.forall_mem_cons]
  exact ⟨formed, formed', List.forall_mem_nil _⟩

theorem dialled_begins [FloatChars] {value : Sentence} (formed : value.WellFormed {}) :
    dialled.Begins value.encode [value] where
  count := by
    show 1 = (handshakeRequest {}).replyCount
    decide +kernel
  formed := List.forall_mem_singleton.mpr formed
  front := by
    rw [Sentence.encodeAll, Sentence.encodeAll, List.append_nil]

/-- A reply that is cut between its elements. The room that is made for the second read moves the first of them, and
nothing looks at it. -/
def cutReply : List (Bytes × Memory) := [(text "*2\r\n+OK\r\n", .zeroed), (text "+OK\r\n", .zeroed)]

theorem cutReply_tame : letI := FloatChars.none
    Guarded (turn 16 0 0) (Tame 0) dialled (Turn.all [10, 12] cutReply) := by decide +kernel

/-- A reply whose first element is a verbatim string, cut behind it, and what is found where that string was when the
room for the second read has moved it away. -/
def cutNote (memory : Memory) : List (Bytes × Memory) :=
  [(text "*2\r\n=7\r\ntxt:abc\r\n", .zeroed), (text "+OK\r\n", memory)]

theorem dialled_begins_cutNote [FloatChars] (memory : Memory) :
    dialled.Begins (arriving (cutNote memory)) [pairReply noteReply okReply] := by
  have whole : arriving (cutNote memory) = (pairReply noteReply okReply).encode := by
    show arriving (cutNote .zeroed) = _
    decide +kernel
  rw [whole]
  exact dialled_begins (pairReply_wellFormed noteReply_wellFormed okReply_wellFormed)

end System

end Rediscoro.Connection

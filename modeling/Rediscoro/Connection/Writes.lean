import Rediscoro.Connection.Tenancy

/-! Writes and the request they belong to.

A write that has completed is applied to the request in front of the queue when its
coroutine is resumed. It is the request whose octets were written unless the queue
was cleared in between. An operation that is still pending is aborted with the
socket, so a `clear_all` does harm only where it finds a write that has completed
and whose coroutine has not been resumed.
-/

set_option autoImplicit false

namespace Rediscoro.Connection

open Rediscoro.Semantics Rediscoro.Resp3 Rediscoro.Pipeline

variable {ρ : Type}

/-- `clear_all` finds no write that has completed and whose coroutine still waits. -/
def Note.unhurried : Note → Bool
  | .cleared racing => !racing
  | _ => true

namespace WriteCall

/-- The write may still be applied. -/
def live (call : WriteCall) : Bool :=
  match call.op with
  | .ready (.error _) => false
  | _ => true

theorem live_abort {call : WriteCall} (live : call.abort.live = true) : call.abort = call ∧ call.completed = true := by
  rcases call with ⟨sink, size, op⟩
  cases op with
  | pending => cases live
  | ready result =>
    cases result with
    | error err => cases live
    | ok n => exact ⟨rfl, rfl⟩

/-- The call is the same, or it has been answered meanwhile. -/
def Continues (old call : WriteCall) : Prop := call = old ∨ ∃ result, old.complete result = some call

theorem complete_eq {old call : WriteCall} {result : Except IoError Nat} (answered : old.complete result = some call) :
    old.op = .pending ∧ call.op ≠ .pending ∧ call.sink = old.sink ∧ call.size = old.size ∧
      ∀ n, call.op = .ready (.ok n) → n ≤ call.size := by
  rcases old with ⟨sink, size, op⟩
  cases op with
  | ready => cases answered
  | pending =>
    cases result with
    | error err =>
      cases answered
      exact ⟨rfl, nofun, rfl, rfl, nofun⟩
    | ok n =>
      simp only [complete] at answered
      split at answered
      · rename_i within
        cases answered
        refine ⟨rfl, nofun, rfl, rfl, ?_⟩
        rintro m ⟨⟩
        exact within
      · cases answered

variable {old call : WriteCall}

theorem Continues.pending (continues : old.Continues call) (pending : call.op = .pending) : old.op = .pending := by
  rcases continues with rfl | ⟨result, answered⟩
  · exact pending
  · exact absurd pending (complete_eq answered).2.1

theorem Continues.live (continues : old.Continues call) (live : call.live = true) : old.live = true := by
  rcases continues with rfl | ⟨result, answered⟩
  · exact live
  · rw [WriteCall.live, (complete_eq answered).1]

end WriteCall

namespace System

variable {s next : System ρ}

/-- The call is for the octets of the request in front. -/
def Fronts (s : System ρ) (call : WriteCall) : Prop :=
  ∃ front rest, s.pipeline.pendingWrite = front :: rest ∧ front.sink = call.sink ∧
    front.unwritten.length = call.size ∧ ∀ n, call.op = .ready (.ok n) → n ≤ call.size

/-- The attempt waits for a write. -/
def Writes (s : System ρ) (i : Nat) (call : WriteCall) : Prop :=
  ∃ a slot, s.attempts[i]? = some a ∧ a.stage = .writing slot call

structure Writing (s : System ρ) : Prop where
  writer : ∀ call, s.writer = .busy call → call.live = true → s.state = .opened ∧ s.Fronts call
  attempt : ∀ i call, s.Writes i call → call.live = true → s.Fronts call
  /-- An operation is pending on an open socket only. -/
  socket : ∀ call, (s.writer = .busy call ∨ ∃ i, s.Writes i call) → call.op = .pending → s.socketOpen = true

theorem Fronts.continues {old call : WriteCall} (fronts : s.Fronts old) (continues : old.Continues call)
    (front : ∀ item rest, s.pipeline.pendingWrite = item :: rest → ∃ rest, next.pipeline.pendingWrite = item :: rest) :
    next.Fronts call := by
  obtain ⟨item, rest, queue, sink, size, within⟩ := fronts
  obtain ⟨rest, queue⟩ := front item rest queue
  rcases continues with rfl | ⟨result, answered⟩
  · exact ⟨item, rest, queue, sink, size, within⟩
  · obtain ⟨-, -, sameSink, sameSize, within⟩ := WriteCall.complete_eq answered
    exact ⟨item, rest, queue, sink.trans sameSink.symm, size.trans sameSize.symm, within⟩

/-- Nobody begins to write, and the request in front stays there. -/
theorem Writing.keeps (writing : s.Writing)
    (writer : ∀ call, next.writer = .busy call → call.live = true → ∃ old, s.writer = .busy old ∧ old.Continues call)
    (attempts : ∀ i call, next.Writes i call → call.live = true → ∃ old, s.Writes i old ∧ old.Continues call)
    (state : s.state = .opened → next.state = .opened)
    (front : ∀ item rest, s.pipeline.pendingWrite = item :: rest → ∃ rest, next.pipeline.pendingWrite = item :: rest)
    (socket : s.socketOpen = true → next.socketOpen = true) : next.Writing where
  writer := fun call busy live => by
    obtain ⟨old, was, continues⟩ := writer call busy live
    obtain ⟨opened, fronts⟩ := writing.writer old was (continues.live live)
    exact ⟨state opened, fronts.continues continues front⟩
  attempt := fun i call writes live => by
    obtain ⟨old, was, continues⟩ := attempts i call writes live
    exact (writing.attempt i old was (continues.live live)).continues continues front
  socket := fun call waits pending => by
    have live : call.live = true := by rw [WriteCall.live, pending]
    apply socket
    rcases waits with busy | ⟨i, writes⟩
    · obtain ⟨old, was, continues⟩ := writer call busy live
      exact writing.socket old (.inl was) (continues.pending pending)
    · obtain ⟨old, was, continues⟩ := attempts i call writes live
      exact writing.socket old (.inr ⟨i, was⟩) (continues.pending pending)

/-- No write may still be applied. -/
structure Silent (s : System ρ) : Prop where
  writer : ∀ call, s.writer = .busy call → call.live ≠ true
  attempt : ∀ i call, s.Writes i call → call.live ≠ true

theorem Silent.writing (silent : s.Silent) : s.Writing where
  writer := fun call busy live => absurd live (silent.writer call busy)
  attempt := fun i call writes live => absurd live (silent.attempt i call writes)
  socket := fun call waits pending => by
    have live : call.live = true := by rw [WriteCall.live, pending]
    rcases waits with busy | ⟨i, writes⟩
    · exact absurd live (silent.writer call busy)
    · exact absurd live (silent.attempt i call writes)

theorem Silent.congr (silent : s.Silent) (writer : ∀ call, next.writer = .busy call → s.writer = .busy call)
    (attempts : ∀ i call, next.Writes i call → s.Writes i call) : next.Silent where
  writer := fun call busy => silent.writer call (writer call busy)
  attempt := fun i call writes => silent.attempt i call (attempts i call writes)

/-! What is known of the attempts that write. -/

theorem writes_congr {i : Nat} {call : WriteCall} (same : next.attempts = s.attempts) (writes : next.Writes i call) :
    s.Writes i call := by
  unfold Writes at writes ⊢
  rwa [same] at writes

theorem Writes.unfinished {i : Nat} {call : WriteCall} (writes : s.Writes i call) :
    ∃ a, s.attempts[i]? = some a ∧ a.unfinished = true := by
  obtain ⟨a, slot, found, here⟩ := writes
  exact ⟨a, found, by simp [Attempt.unfinished, here]⟩

theorem writes_joins {i : Nat} {call : WriteCall} {a : Attempt} (joined : next.attempts = s.attempts ++ [a])
    (idle : ∀ slot call, a.stage ≠ .writing slot call) (writes : next.Writes i call) : s.Writes i call := by
  obtain ⟨b, slot, found, here⟩ := writes
  rw [joined, List.getElem?_append] at found
  split at found
  · exact ⟨b, slot, found, here⟩
  · obtain rfl : b = a := by simpa using List.mem_of_getElem? found
    exact absurd here (idle slot call)

/-- An attempt that changes waits for the write it waited for, or for none. -/
theorem writes_modify {i j : Nat} {call : WriteCall} {a : Attempt} {change : Attempt → Attempt}
    (found : s.attempts[i]? = some a) (changed : next.attempts = s.attempts.modify i change)
    (keeps : ∀ slot call, (change a).stage = .writing slot call → call.live = true →
      ∃ old, a.stage = .writing slot old ∧ old.Continues call)
    (writes : next.Writes j call) (live : call.live = true) : ∃ old, s.Writes j old ∧ old.Continues call := by
  obtain ⟨b, slot, there, here⟩ := writes
  rw [changed] at there
  by_cases same : i = j
  · subst same
    have now : change a = b := by simpa [found] using there
    obtain ⟨old, was, continues⟩ := keeps slot call (now ▸ here) live
    exact ⟨old, ⟨a, slot, found, was⟩, continues⟩
  · exact ⟨call, ⟨b, slot, by simpa [same] using there, here⟩, .inl rfl⟩

theorem stage_abort {a : Attempt} {slot : SinkRef} {call : WriteCall} (here : a.abort.stage = .writing slot call)
    (live : call.live = true) : a.stage = .writing slot call ∧ call.completed = true := by
  cases stage : a.stage with
  | writing old waits =>
    simp only [Attempt.abort, stage, Stage.writing.injEq] at here
    obtain ⟨rfl, rfl⟩ := here
    obtain ⟨same, completed⟩ := WriteCall.live_abort live
    rw [same]
    exact ⟨rfl, completed⟩
  | _ => simp [Attempt.abort, stage] at here

/-- A close of the socket leaves those writes that have completed. -/
theorem writes_closeSocket {i : Nat} {call : WriteCall} (writes : s.closeSocket.Writes i call)
    (live : call.live = true) :
    s.Writes i call ∧ (s.socketOpen = true → call.completed = true) := by
  unfold closeSocket at writes
  split at writes
  · obtain ⟨b, slot, there, here⟩ := writes
    simp only [List.getElem?_map] at there
    obtain ⟨a, found, rfl⟩ := Option.map_eq_some_iff.mp there
    obtain ⟨was, completed⟩ := stage_abort here live
    exact ⟨⟨a, slot, found, was⟩, fun _ => completed⟩
  · rename_i closed
    exact ⟨writes, fun opened => absurd opened closed⟩

theorem busy_closeSocket {call : WriteCall} (busy : s.closeSocket.writer = .busy call) (live : call.live = true) :
    s.writer = .busy call ∧ (s.socketOpen = true → call.completed = true) := by
  unfold closeSocket at busy
  split at busy
  · cases writer : s.writer with
    | busy old =>
      simp only [writer, Loop.map, Loop.busy.injEq] at busy
      subst busy
      obtain ⟨same, completed⟩ := WriteCall.live_abort live
      rw [same]
      exact ⟨rfl, fun _ => completed⟩
    | running | waiting | exited => simp [writer, Loop.map] at busy
  · rename_i closed
    exact ⟨busy, fun opened => absurd opened closed⟩

/-! Where no write may be applied any more. -/

theorem completed_of_live {call : WriteCall} (live : call.live = true) (answered : call.op ≠ .pending) :
    call.completed = true := by
  unfold WriteCall.live at live
  unfold WriteCall.completed
  cases op : call.op with
  | pending => exact absurd op answered
  | ready result =>
    cases result with
    | ok n => rfl
    | error err => simp [op] at live

theorem writeCompleted_of {call : WriteCall} (waits : s.writer = .busy call ∨ ∃ i, s.Writes i call)
    (completed : call.completed = true) : s.writeCompleted = true := by
  rcases waits with busy | ⟨i, a, slot, found, here⟩
  · simp [writeCompleted, busy, completed]
  · have any : s.attempts.any Attempt.writeCompleted = true :=
      List.any_eq_true.mpr ⟨a, List.mem_of_getElem? found, by simp [Attempt.writeCompleted, here, completed]⟩
    simp [writeCompleted, any]

theorem Silent.closeSocket (silent : s.Silent) : s.closeSocket.Silent where
  writer := fun call busy live => silent.writer call (busy_closeSocket busy live).1 live
  attempt := fun i call writes live => silent.attempt i call (writes_closeSocket writes live).1 live

/-- The same coroutines wait for the same writes. -/
structure SameWrites (s next : System ρ) : Prop where
  writer : next.writer = s.writer
  attempts : next.attempts = s.attempts
  socket : next.socketOpen = s.socketOpen

namespace SameWrites

theorem record (same : SameWrites s next) (entry : Entry) : SameWrites s (next.record entry) :=
  ⟨same.writer, same.attempts, same.socket⟩

theorem setState (same : SameWrites s next) (state : State) : SameWrites s (next.setState state) :=
  ⟨same.writer, same.attempts, same.socket⟩

theorem requestStop (same : SameWrites s next) : SameWrites s next.requestStop :=
  ⟨same.writer, same.attempts, same.socket⟩

theorem setClosing (same : SameWrites s next) : SameWrites s next.setClosing := (same.record _).setState _

theorem writeCompleted (same : SameWrites s next) : next.writeCompleted = s.writeCompleted := by
  unfold System.writeCompleted
  rw [same.writer, same.attempts]

/-- `clear_all` finds no completed write. -/
theorem clearAll {fuel : Nat} {err : ErrorInfo} {cleared : System ρ} (same : SameWrites s next)
    (clears : next.clearAll fuel err = some cleared) (calm : ∀ note ∈ cleared.notes, note.unhurried = true) :
    SameWrites s cleared ∧ s.writeCompleted = false := by
  obtain ⟨pipeline, sinks, -, rfl⟩ := clearAll_eq clears
  have unhurried := calm (.cleared next.writeCompleted) (by simp [delivered, note])
  refine ⟨⟨same.writer, same.attempts, same.socket⟩, ?_⟩
  rw [← same.writeCompleted]
  simpa [Note.unhurried] using unhurried

end SameWrites

/-- A pending write is aborted with the socket, so only one that has completed is left. -/
theorem Writing.closes (writing : s.Writing) (found : SameWrites s next ∧ s.writeCompleted = false) :
    next.closeSocket.Silent := by
  obtain ⟨same, calm⟩ := found
  have dead {call : WriteCall} (waits : s.writer = .busy call ∨ ∃ i, s.Writes i call) (live : call.live = true)
      (closed : next.socketOpen = true → call.completed = true) : False := by
    have completed : call.completed = true := by
      by_cases pending : call.op = .pending
      · exact closed (same.socket.trans (writing.socket call waits pending))
      · exact completed_of_live live pending
    rw [writeCompleted_of waits completed] at calm
    cases calm
  constructor
  · intro call busy live
    obtain ⟨was, closed⟩ := busy_closeSocket busy live
    exact dead (.inl (same.writer ▸ was)) live closed
  · intro i call writes live
    obtain ⟨was, closed⟩ := writes_closeSocket writes live
    exact dead (.inr ⟨i, writes_congr same.attempts was⟩) live closed

/-- Beside an attempt that does not write nobody does. -/
theorem Writing.silent {i : Nat} {a : Attempt} (writing : s.Writing) (exclusive : s.life.Exclusive)
    (found : s.attempts[i]? = some a) (unfinished : a.unfinished = true)
    (calm : ∀ slot call, a.stage = .writing slot call → call.live ≠ true) : s.Silent := by
  constructor
  · intro call busy live
    exact Tenancy.unopened exclusive found unfinished (writing.writer call busy live).1
  · intro j call writes
    obtain ⟨b, slot, there, here⟩ := writes
    have busy : b.unfinished = true := by simp [Attempt.unfinished, here]
    have same := exclusive.unique i j a.member b.member ⟨crew_found found, Attempt.busy_of_unfinished unfinished⟩
      ⟨crew_found there, Attempt.busy_of_unfinished busy⟩
    subst same
    cases found.symm.trans there
    exact calm slot call here

/-- The one attempt there is does not write any more. -/
theorem Writing.hushes {i : Nat} {a : Attempt} {change : Attempt → Attempt} (writing : s.Writing)
    (exclusive : s.life.Exclusive) (found : s.attempts[i]? = some a) (unfinished : a.unfinished = true)
    (changed : next.attempts = s.attempts.modify i change) (idle : ∀ slot call, (change a).stage ≠ .writing slot call)
    (writer : next.writer = s.writer) : next.Silent := by
  constructor
  · intro call busy live
    exact Tenancy.unopened exclusive found unfinished (writing.writer call (writer ▸ busy) live).1
  · rintro j call ⟨b, slot, there, here⟩
    rw [changed] at there
    by_cases same : i = j
    · subst same
      have now : change a = b := by simpa [found] using there
      exact absurd (now ▸ here) (idle slot call)
    · have there : s.attempts[j]? = some b := by simpa [same] using there
      have busy : b.unfinished = true := by simp [Attempt.unfinished, here]
      exact absurd (exclusive.unique i j a.member b.member ⟨crew_found found, Attempt.busy_of_unfinished unfinished⟩
        ⟨crew_found there, Attempt.busy_of_unfinished busy⟩) same

/-- A call for the request in front, and no other that may be applied. -/
theorem Writing.sole {call : WriteCall} (fronts : s.Fronts call) (issued : call.op = .pending → s.socketOpen = true)
    (queue : next.pipeline = s.pipeline) (socket : next.socketOpen = s.socketOpen)
    (writer : ∀ other, next.writer = .busy other → other.live = true → other = call ∧ next.state = .opened)
    (attempts : ∀ i other, next.Writes i other → other.live = true → other = call) : next.Writing := by
  have fronts : next.Fronts call := fronts.continues (.inl rfl) fun item rest present => ⟨rest, queue ▸ present⟩
  constructor
  · intro other busy live
    obtain ⟨rfl, opened⟩ := writer other busy live
    exact ⟨opened, fronts⟩
  · intro i other writes live
    rw [attempts i other writes live]
    exact fronts
  · intro other waits pending
    have live : other.live = true := by rw [WriteCall.live, pending]
    have only : other = call := by
      rcases waits with busy | ⟨i, writes⟩
      · exact (writer other busy live).1
      · exact attempts i other writes live
    exact socket.trans (issued (only ▸ pending))

/-- While the connection is open no attempt writes. -/
theorem unwritten_of_opened (exclusive : s.life.Exclusive) (opened : s.state = .opened) (i : Nat) (call : WriteCall) :
    ¬s.Writes i call := by
  intro writes
  obtain ⟨a, found, unfinished⟩ := writes.unfinished
  exact Tenancy.unopened exclusive found unfinished opened

/-- Only the attempts change, and those that write go on with that. -/
theorem Writing.changes (writing : s.Writing) (writer : next.writer = s.writer)
    (attempts : ∀ i call, next.Writes i call → call.live = true → ∃ old, s.Writes i old ∧ old.Continues call)
    (state : s.state = .opened → next.state = .opened)
    (queue : next.pipeline.pendingWrite = s.pipeline.pendingWrite) (socket : next.socketOpen = s.socketOpen) :
    next.Writing := by
  apply writing.keeps _ attempts state _ (socket.trans ·)
  · intro call busy _
    exact ⟨call, writer ▸ busy, .inl rfl⟩
  · intro item rest present
    exact ⟨rest, queue.trans present⟩

theorem Writing.congr (writing : s.Writing) (writer : next.writer = s.writer) (attempts : next.attempts = s.attempts)
    (state : s.state = .opened → next.state = .opened)
    (queue : next.pipeline.pendingWrite = s.pipeline.pendingWrite) (socket : next.socketOpen = s.socketOpen) :
    next.Writing :=
  writing.changes writer (fun _ call writes _ => ⟨call, writes_congr attempts writes, .inl rfl⟩) state queue socket

/-- An attempt changes and begins no write. -/
theorem Writing.goes {i : Nat} {a : Attempt} {change : Attempt → Attempt} (writing : s.Writing)
    (found : s.attempts[i]? = some a) (changed : next.attempts = s.attempts.modify i change)
    (keeps : ∀ slot call, (change a).stage = .writing slot call → call.live = true →
      ∃ old, a.stage = .writing slot old ∧ old.Continues call)
    (writer : next.writer = s.writer) (state : s.state = .opened → next.state = .opened)
    (queue : next.pipeline.pendingWrite = s.pipeline.pendingWrite) (socket : next.socketOpen = s.socketOpen) :
    next.Writing :=
  writing.changes writer (fun _ _ writes live => writes_modify found changed keeps writes live) state queue socket

theorem Writing.joins {a : Attempt} (writing : s.Writing) (joined : next.attempts = s.attempts ++ [a])
    (idle : ∀ slot call, a.stage ≠ .writing slot call) (writer : next.writer = s.writer) (unopened : s.state ≠ .opened)
    (queue : next.pipeline.pendingWrite = s.pipeline.pendingWrite) (socket : next.socketOpen = s.socketOpen) :
    next.Writing :=
  writing.changes writer (fun _ call writes _ => ⟨call, writes_joins joined idle writes, .inl rfl⟩)
    (fun opened => absurd opened unopened) queue socket

/-- A call for the octets of the request in front. -/
theorem fronts_nextWrite [FloatChars] {call : WriteCall} (issued : s.nextWrite = some call) :
    s.Fronts call ∧ (call.op = .pending → s.socketOpen = true) := by
  obtain ⟨front, first, rfl⟩ := Option.map_eq_some_iff.mp issued
  obtain ⟨rest, queue⟩ := List.head?_eq_some_iff.mp first
  cases opened : s.socketOpen with
  | true => exact ⟨⟨front, rest, queue, rfl, rfl, by simp [issue, opened]⟩, fun _ => rfl⟩
  | false => exact ⟨⟨front, rest, queue, rfl, rfl, by simp [issue, opened]⟩, by simp [issue, opened]⟩

theorem unwritten_of_slot {a : Attempt} (before : a.stage.slot = none) (slot : SinkRef) (call : WriteCall)
    (here : a.stage = .writing slot call) : call.live ≠ true := by
  rw [here] at before
  cases before

theorem hop_continues {a : Attempt} {stage : Stage} (hops : Hop s a stage) (slot : SinkRef) (call : WriteCall)
    (here : stage = .writing slot call) : ∃ old, a.stage = .writing slot old ∧ old.Continues call := by
  cases hops with
  | wrote was answered =>
    cases here
    exact ⟨_, was, .inr ⟨_, answered⟩⟩
  | resolved | connected | read | ended | joined | passed | returned | finished | dismissed => cases here

namespace Writing

variable [FloatChars] [Inhabited ρ] {fuel : Nat}

theorem step (writing : s.Writing) (exclusive : s.life.Exclusive) (move : Move fuel s next)
    (calm : ∀ note ∈ next.notes, note.unhurried = true) : next.Writing := by
  have rests (writer : ∀ call, next.writer ≠ .busy call) (attempts : next.attempts = s.attempts)
      (state : next.state = s.state) (queue : next.pipeline = s.pipeline) (socket : next.socketOpen = s.socketOpen) :
      next.Writing := by
    apply writing.keeps _ _ (state.trans ·) _ (socket.trans ·)
    · exact fun call busy => absurd busy (writer call)
    · exact fun i call writes _ => ⟨call, writes_congr attempts writes, .inl rfl⟩
    · exact fun item rest present => ⟨rest, queue ▸ present⟩
  have unmoved : SameWrites s s := ⟨rfl, rfl, rfl⟩
  have hushed {t : System ρ} (silent : t.Silent) (writer : next.writer = t.writer)
      (attempts : next.attempts = t.attempts) :
      next.Writing :=
    (silent.congr (fun _ busy => writer ▸ busy) fun _ _ writes => writes_congr attempts writes).writing
  cases move with
  | quiet | closeIdle | actorGone | readerExit | readerWait | readerIssue | readerComplete | readerDrop | controlExit
  | controlWait | controlBackoff | alloc => exact writing.congr rfl rfl id rfl rfl
  | fail opened clears =>
    have silent := writing.closes
      (((unmoved.setState _).record _).clearAll clears (by simpa [wakeLoops, notes_closeSocket] using calm))
    exact hushed silent rfl rfl
  | @close cleared unclosed clears =>
    have waits : cleared.closeSocket.wakeLoops.awaitActor.writer = cleared.closeSocket.writer ∧
        cleared.closeSocket.wakeLoops.awaitActor.attempts = cleared.closeSocket.attempts ∧
        cleared.closeSocket.wakeLoops.awaitActor.notes = cleared.closeSocket.notes := by
      unfold awaitActor
      split <;> exact ⟨rfl, rfl, rfl⟩
    rw [waits.2.2, notes_closeSocket] at calm
    have silent := writing.closes ((unmoved.record _).requestStop.setClosing.clearAll clears calm)
    exact hushed silent waits.1 waits.2.1
  | closeResume resumed =>
    unfold System.closeResume at resumed
    split at resumed
    · cases resumed
      exact writing.congr rfl rfl id rfl rfl
    · cases resumed
  | reopen closed =>
    have reopened : s.reopen.Writing := writing.congr rfl rfl (by simp [closed]) rfl rfl
    exact reopened.joins rfl (by simp) rfl (by simp [System.reopen, setState]) rfl rfl
  | begin unopened idle unclosed unstopped =>
    exact writing.joins rfl (by simp) rfl unopened rfl rfl
  | report found here => exact writing.goes found rfl (by simp) rfl id rfl rfl
  | hop found hops =>
      exact writing.goes found rfl (fun slot call here _ => hop_continues hops slot call here) rfl id rfl rfl
  | actorStart | writerExit | writerWait | writerDrop => exact rests (by simp) rfl rfl rfl rfl
  | actorEnd runs writer reader control closes =>
    obtain ⟨cleared, clears, rfl⟩ := Option.map_eq_some_iff.mp closes
    have same : SameWrites s { s with actor := .ended } := ⟨rfl, rfl, rfl⟩
    have silent := writing.closes
      ((same.setState _).clearAll clears (by simpa [emit, record, notes_closeSocket] using calm))
    exact hushed silent rfl rfl
  | actorCloses ended unclosed closes =>
    obtain ⟨cleared, clears, rfl⟩ := Option.map_eq_some_iff.mp closes
    have same : SameWrites s { s with actor := .none, actorRunning := false } := ⟨rfl, rfl, rfl⟩
    have silent := writing.closes
      ((same.setState _).clearAll clears (by simpa [actorNotify, emit, record, notes_closeSocket] using calm))
    exact hushed silent rfl rfl
  | enqueue enqueued =>
    cases enqueue_cases enqueued with
    | rejected refused same failed => exact writing.congr rfl rfl id rfl rfl
    | queued opened pushed =>
      -- the new request is behind the one that is being written
      refine writing.keeps (fun call busy _ => ⟨call, busy, .inl rfl⟩) ?_ id ?_ id
      · intro i call writes _
        exact ⟨call, writes_congr rfl writes, .inl rfl⟩
      · intro item rest present
        have queue := congrArg pendingWrite (push_eq_some pushed)
        rw [present, List.cons_append] at queue
        exact ⟨_, queue⟩
  | @writerIssue token call runs opened rests issued =>
    -- in OPEN no attempt writes, so this is the only call
    obtain ⟨fronts, socket⟩ := fronts_nextWrite issued
    refine sole fronts socket rfl rfl ?_ ?_
    · rintro other ⟨⟩ _
      exact ⟨rfl, opened⟩
    · intro i other writes
      exact absurd (writes_congr rfl writes) (unwritten_of_opened exclusive opened i other)
  | writerComplete busy answered =>
    refine writing.keeps ?_ ?_ id (fun item rest present => ⟨rest, present⟩) id
    · rintro _ ⟨⟩ _
      exact ⟨_, busy, .inr ⟨_, answered⟩⟩
    · intro i call writes _
      exact ⟨call, writes_congr rfl writes, .inl rfl⟩
  | @writerDone token call n pipeline runs busy done applied =>
    -- the call is over, and it was the only one
    have opened := (writing.writer call busy (by rw [WriteCall.live, done])).1
    have silent : ({ s with writer := .running, pipeline := pipeline } : System ρ).Silent := by
      refine ⟨fun call busy => (by cases busy), fun i other writes => ?_⟩
      exact absurd (writes_congr rfl writes) (unwritten_of_opened exclusive opened i other)
    exact silent.writing
  | readerChunk runs busy arrived nonempty parsed =>
    exact writing.congr rfl rfl id (consume_answered parsed).pendingWrite rfl
  | controlDisable runs failed idle => exact writing.congr rfl rfl (by simp [failed]) rfl rfl
  | @controlReconnect token runs unstopped ready =>
    have failed : s.state = .failed := by
      rcases ready with ⟨idle, failed⟩ | ⟨deadline, backoff, unclosing⟩
      · exact failed
      · exact (exclusive.backoff (by simp [System.life, backoff, Control.duty])).resolve_right unclosing
    have joined : (s.beginReconnect token).attempts =
        s.attempts ++ [{ owner := .control, token := token, stage := .resolving .pending, reset := s.resets + 1 }] := by
      simp [beginReconnect, beginResolve, setAttempt, resetParser, note, setState, record, List.modify_eq_take_drop]
    exact writing.joins joined (by simp) rfl (by simp [failed]) rfl rfl
  | resolve found here => exact writing.goes found rfl (by simp) rfl id rfl rfl
  | @connectNext i a left found unfinished before =>
    have silent := (writing.silent exclusive found unfinished (unwritten_of_slot before)).closeSocket
    have free : s.closeSocket.life.Exclusive := by
      rw [life_closeSocket]
      exact exclusive
    apply Silent.writing
    rcases attempts_closeSocket found with same | aborted
    · exact silent.writing.hushes free same unfinished rfl (by simp) rfl
    · have still : a.abort.unfinished = true := by
        rw [Attempt.unfinished_iff, a.member_abort, ← Attempt.unfinished_iff]
        exact unfinished
      exact silent.writing.hushes free aborted still rfl (by simp) rfl
  | closeSocket found unfinished before =>
    have silent := writing.silent exclusive found unfinished (unwritten_of_slot before)
    exact silent.closeSocket.writing
  | push found unfinished before pushed =>
    apply Silent.writing
    exact writing.hushes exclusive found unfinished rfl (by simp) rfl
  | @issueWrite i a slot call found here issued =>
    -- an attempt that is unfinished is the only one, and the writer has nothing to write before OPEN
    have unfinished : a.unfinished = true := by simp [Attempt.unfinished, here]
    have silent := writing.silent exclusive found unfinished (by simp [here])
    obtain ⟨fronts, socket⟩ := fronts_nextWrite issued
    refine sole fronts socket rfl rfl (fun other busy live => absurd live (silent.writer other busy)) ?_
    rintro j other ⟨b, slot', there, here'⟩ live
    have there : (s.attempts.modify i fun a => { a with stage := .writing slot call })[j]? = some b := there
    by_cases same : i = j
    · subst same
      have now : { a with stage := .writing slot call } = b := by simpa [found] using there
      subst now
      cases here'
      rfl
    · exact absurd live (silent.attempt j other ⟨b, slot', by simpa [same] using there, here'⟩)
  | wrote found here done applied =>
    apply Silent.writing
    exact writing.hushes exclusive found (by simp [Attempt.unfinished, here]) rfl (by simp) rfl
  | issueRead found here => exact writing.goes found rfl (by simp) rfl id rfl rfl
  | read found here arrived parsed =>
    exact writing.goes found rfl (by simp) rfl id (consume_answered parsed).pendingWrite rfl
  | clear found ends clears =>
    have silent := writing.silent exclusive found (Attempt.unfinished_of_slot ends.slot) (by
      intro slot call here live
      rw [here] at ends
      cases ends with
      | writing failed => simp [WriteCall.live, failed] at live)
    obtain ⟨same, -⟩ := unmoved.clearAll clears calm
    exact hushed silent same.writer same.attempts
  | @timeout i a found =>
    refine writing.goes found rfl ?_ rfl id rfl rfl
    intro slot call here live
    exact ⟨call, (stage_abort here live).1, .inl rfl⟩
  | reconnectFailed found unfinished owner settled runs =>
    exact writing.goes found rfl (by simp) rfl
      (fun opened => absurd opened (Tenancy.unopened exclusive found unfinished)) rfl rfl
  | opens found here complete owner =>
    have opened : s.setOpen.Writing := writing.congr rfl rfl (fun _ => rfl) rfl rfl
    exact opened.goes found rfl (by simp) rfl id rfl rfl
  | opensAgain found here complete owner runs =>
    have opened : s.setOpen.Writing := writing.congr rfl rfl (fun _ => rfl) rfl rfl
    exact opened.goes found rfl (by simp) rfl id rfl rfl

end Writing

variable [FloatChars] [Inhabited ρ] {fuel : Nat} {cfg : Config}

theorem Reached.writing (reached : Reached fuel cfg s) (solo : ∀ entry ∈ s.log, entry.solo = true)
    (calm : ∀ note ∈ s.notes, note.unhurried = true) : s.Writing := by
  let invariant (s : System ρ) : Prop := (s.life.Sound ∧ s.life.Exclusive) ∧ s.Writing
  have kept (s next : System ρ) (holds : invariant s) (move : Move fuel s next)
      (solo : ∀ entry ∈ next.log, entry.solo = true) (calm : ∀ note ∈ next.notes, note.unhurried = true) :
      invariant next :=
    ⟨move.exclusive holds.1 solo, holds.2.step holds.1.2 move calm⟩
  have silent : (System.start cfg : System ρ).Silent := ⟨nofun, by rintro i call ⟨a, slot, ⟨⟩, here⟩⟩
  have start : invariant (System.start cfg) := ⟨⟨.start cfg, .start cfg⟩, silent.writing⟩
  exact (reached.moves.invariant kept start ⟨solo, calm⟩).2

/-- The write that a coroutine is about to apply. -/
def Applies (s : System ρ) (call : WriteCall) (n : Nat) : Prop :=
  call.op = .ready (.ok n) ∧ (s.writer = .busy call ∨ ∃ i, s.Writes i call)

/-- A completed write is applied to the request whose octets were written, where `connect()` begins
an attempt only while no other is unfinished, and `clear_all` never runs between the completion of
a write and the step that applies it. -/
theorem writes_apply (reached : Reached fuel cfg s) (solo : ∀ entry ∈ s.log, entry.solo = true)
    (calm : ∀ note ∈ s.notes, note.unhurried = true) {call : WriteCall} {n : Nat} (applies : s.Applies call n) :
    ∃ front rest, s.pipeline.pendingWrite = front :: rest ∧ front.sink = call.sink ∧ n ≤ front.unwritten.length := by
  obtain ⟨done, waits⟩ := applies
  have writing := reached.writing solo calm
  have live : call.live = true := by rw [WriteCall.live, done]
  have fronts : s.Fronts call := by
    rcases waits with busy | ⟨i, writes⟩
    · exact (writing.writer call busy live).2
    · exact writing.attempt i call writes live
  obtain ⟨front, rest, queue, sink, size, within⟩ := fronts
  exact ⟨front, rest, queue, sink, size ▸ within n done⟩

/-- The writer has not seen yet that the octets of the request were written. -/
def writtenFor (s : System ρ) : Option (SinkRef × Nat) :=
  match s.writer with
  | .busy { sink := sink, op := .ready (.ok n), .. } => some (sink, n)
  | _ => none

omit [FloatChars] [Inhabited ρ] in
theorem applies_of_writtenFor {sink : SinkRef} {n : Nat} (written : s.writtenFor = some (sink, n)) :
    ∃ call, s.Applies call n ∧ call.sink = sink := by
  unfold writtenFor at written
  split at written
  · rename_i busy
    cases written
    exact ⟨_, ⟨rfl, .inl busy⟩, rfl⟩
  · cases written

/-- A request is handed to the socket and its octets are written. -/
def sending : List (Act Unit) :=
  [.controlRun .wakeup 0, .writerRun .wakeup, .readerRun .wakeup,
    .enqueue (Request.ofCommands [.variadic (text "PING") []]) fun _ _ => .ok (), .writerRun .wakeup,
    .writerComplete (.ok 14)]

omit [FloatChars] [Inhabited ρ] in
theorem writes_apply_sent : letI := FloatChars.none
    ∃ (s : System Unit) (call : WriteCall), (Reached 8 {} s ∧ s.Applies call 14 ∧ (∀ entry ∈ s.log, entry.solo = true) ∧
      ∀ note ∈ s.notes, note.unhurried = true) ∧
      ∃ front rest, s.pipeline.pendingWrite = front :: rest ∧ front.sink = call.sink ∧ 14 ≤ front.unwritten.length := by
  let := FloatChars.none
  have run : ∃ s : System Unit, Reached 8 {} s ∧ s.writtenFor = some (1, 14) ∧ (∀ entry ∈ s.log, entry.solo = true) ∧
      ∀ note ∈ s.notes, note.unhurried = true :=
    Reached.of_run 8 {} (opening ++ sending) (by decide +kernel)
  obtain ⟨s, reached, written, solo, calm⟩ := run
  obtain ⟨call, applies, -⟩ := applies_of_writtenFor written
  exact ⟨s, call, ⟨reached, applies, solo, calm⟩, writes_apply reached solo calm applies⟩

omit [FloatChars] [Inhabited ρ] in
/-- Between the completion of the write and the resumption of the writer the connection is closed,
and nothing is left to apply it to; or it is lost, and the handshake of the next attempt is in front. -/
theorem writes_misapplied : letI := FloatChars.none
    (∃ (s : System Unit) (call : WriteCall), Reached 8 {} s ∧ s.Applies call 14 ∧ s.pipeline.pendingWrite = []) ∧
    ∃ (s : System Unit) (call : WriteCall), Reached 8 {} s ∧ s.Applies call 14 ∧ call.sink = 1 ∧
      s.pipeline.pendingWrite.head?.map PendingItem.sink = some 2 := by
  let := FloatChars.none
  constructor
  · have run : ∃ s : System Unit, Reached 8 {} s ∧ s.writtenFor = some (1, 14) ∧ s.pipeline.pendingWrite.length = 0 :=
      Reached.of_run 8 {} (opening ++ sending ++ [.close]) (by decide +kernel)
    obtain ⟨s, reached, written, empty⟩ := run
    obtain ⟨call, applies, -⟩ := applies_of_writtenFor written
    exact ⟨s, call, reached, applies, List.length_eq_zero_iff.mp empty⟩
  · have run : ∃ s : System Unit, Reached 8 {} s ∧ s.writtenFor = some (1, 14) ∧
        s.pipeline.pendingWrite.head?.map PendingItem.sink = some 2 :=
      Reached.of_run 8 {}
        (opening ++ sending ++
          [.readerComplete (.error (.other [])), .readerResume, .controlRun .wakeup 0] ++ (dial 1).take 4)
        (by decide +kernel)
    obtain ⟨s, reached, written, front⟩ := run
    obtain ⟨call, applies, sink⟩ := applies_of_writtenFor written
    exact ⟨s, call, reached, applies, sink, front⟩

end System

end Rediscoro.Connection

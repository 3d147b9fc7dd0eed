import Mathlib.Tactic.Simps.Basic
import Rediscoro.Connection.System
import Rediscoro.Semantics.Transition

/-! The lifecycle of a connection, without its data.

A `Life` is what the lifecycle consists of: the state, the stop sources, the
actor with its loops, the crew of `do_connect` coroutines, the `close()` calls
that wait, and the history. A member of the crew is early as long as it will look
at its stop token once more before it can set OPEN. The moves of a life say what
the coroutines may do to each other; requests, octets and the socket play no part.
Every move of the connection is a move of its life or leaves it as it is.
-/

set_option autoImplicit false

namespace Rediscoro.Connection

open Rediscoro.Semantics Rediscoro.Resp3 Rediscoro.Pipeline

inductive Phase where
  | early | late | done
  deriving DecidableEq

structure Member where
  owner : Owner
  token : Token
  phase : Phase
  deriving DecidableEq

def Member.busy (m : Member) : Prop := m.phase ≠ .done

/-- What `control_loop` is at. -/
inductive Duty where
  | idle | backoff | connecting | exited
  deriving DecidableEq

structure Life where
  state : State
  generation : Nat
  source : Token
  stopped : List Token
  actorRunning : Bool
  actorDone : Nat
  actor : Actor
  writerExited : Bool
  readerExited : Bool
  duty : Duty
  crew : List Member
  closing : Nat
  log : List Entry

namespace Life

@[simps]
def record (l : Life) (entry : Entry) : Life := { l with log := l.log ++ [entry] }

@[simps]
def setState (l : Life) (next : State) : Life := { l.record (.state l.state next) with state := next }

@[simps]
def requestStop (l : Life) : Life := { l with stopped := l.source :: l.stopped }

/-- Every busy member belongs to `connect()`, is early and sees the stop of the current source. -/
def Heard (l : Life) : Prop :=
  ∀ m ∈ l.crew, m.busy → m.owner = .caller ∧ (m.token ∈ l.stopped ∨ m.token = l.source) ∧ m.phase = .early

/-- No coroutine is inside `do_connect` or `do_reconnect`. -/
def Idle (l : Life) : Prop := (∀ m ∈ l.crew, ¬m.busy) ∧ l.duty ≠ .backoff ∧ l.duty ≠ .connecting

/-- CLOSING is set, and it is noted whether everyone will hear of it. -/
@[simps!]
def setClosing (l : Life) (heard : Bool) : Life := (l.record (.shutdown heard)).setState .closing

def awaitActor (l : Life) : Life :=
  if l.actorRunning then { l with closing := l.closing + 1 } else l.record (.closeReturned l.state)

@[simps]
def reopen (l : Life) : Life :=
  { (l.record (.reopened l.closing l.actorRunning)).setState .init with source := l.source + 1 }

@[simps]
def runActor (l : Life) : Life :=
  { l with actorRunning := true, actor := if l.actorRunning then l.actor else .spawned l.source }

@[simps!]
def beginConnect (l : Life) (idle : Bool) : Life :=
  let l := (l.runActor.record (.began idle)).setState .connecting
  { l with crew := l.crew ++ [⟨.caller, l.source, .early⟩] }

@[simps]
def setPhase (l : Life) (i : Nat) (phase : Phase) : Life :=
  { l with crew := l.crew.modify i fun m => { m with phase := phase } }

/-- OPEN is set and announced. -/
@[simps!]
def setOpen (l : Life) (event : ConnectionEvent) : Life :=
  { l.setState .opened with generation := l.generation + 1 }.record (.event event)

/-- CLOSED is set and announced. -/
@[simps!]
def setClosed (l : Life) (event : ConnectionEvent) : Life := (l.setState .closed).record (.event event)

inductive Move : Life → Life → Prop where
  | fail {l : Life} (event : ConnectionEvent) (opened : l.state = .opened) (kind : event.kind = .disconnected)
      (stage : event.stage = .runtimeIo) (generation : event.generation = l.generation) :
      Move l ((l.setState .failed).record (.event event))
  | closeIdle {l : Life} (closed : l.state = .closed) : Move l (l.record (.closeReturned .closed))
  | close {l : Life} (heard : Bool) (unclosed : l.state ≠ .closed) (hear : heard = true ↔ l.Heard) :
      Move l (((l.record (.closeEntered l.actorRunning l.actorDone)).requestStop.setClosing heard).awaitActor)
  | closeResume {l : Life} (waits : 0 < l.closing) (woken : 0 < l.actorDone) :
      Move l ({ l with closing := l.closing - 1, actorDone := l.actorDone - 1 }.record (.closeReturned l.state))
  | reopen {l : Life} (idle : Bool) (closed : l.state = .closed) (free : idle = true ↔ l.Idle) :
      Move l (l.reopen.beginConnect idle)
  | begin {l : Life} (idle : Bool) (unopened : l.state ≠ .opened) (unbegun : l.state ≠ .connecting)
      (unclosed : l.state ≠ .closed) (unstopped : l.source ∉ l.stopped) (free : idle = true ↔ l.Idle) :
      Move l (l.beginConnect idle)
  | report {l : Life} (event : ConnectionEvent) (kind : event.kind = .disconnected) (stage : event.stage = .connect)
      (generation : event.generation = l.generation) : Move l (l.record (.event event))
  | actorStart {l : Life} {token : Token} (spawned : l.actor = .spawned token) :
      Move l { l with actor := .running token, writerExited := false, readerExited := false, duty := .idle }
  | actorEnd {l : Life} {token : Token} (event : ConnectionEvent) (runs : l.actor = .running token)
      (writer : l.writerExited = true) (reader : l.readerExited = true) (control : l.duty = .exited)
      (kind : event.kind = .closed) (generation : event.generation = l.generation) :
      Move l ({ l with actor := .ended }.setClosed event)
  | actorGone {l : Life} (ended : l.actor = .ended) (closed : l.state = .closed) :
      Move l { l with actor := .none, actorRunning := false, actorDone := l.actorDone + 1 }
  | actorCloses {l : Life} (event : ConnectionEvent) (ended : l.actor = .ended) (unclosed : l.state ≠ .closed)
      (kind : event.kind = .closed) (generation : event.generation = l.generation) :
      Move l ({ l with actor := .none, actorRunning := false, actorDone := l.actorDone + 1 }.setClosed event)
  | writerExit {l : Life} {token : Token} (runs : l.actor = .running token)
      (ends : token ∈ l.stopped ∨ l.state = .closed) : Move l { l with writerExited := true }
  | readerExit {l : Life} {token : Token} (runs : l.actor = .running token)
      (ends : token ∈ l.stopped ∨ l.state = .closed) : Move l { l with readerExited := true }
  | controlExit {l : Life} {token : Token} (runs : l.actor = .running token)
      (ends : token ∈ l.stopped ∨ l.state = .closed ∨ l.state = .closing) (free : l.duty ≠ .connecting) :
      Move l { l with duty := .exited }
  | controlBackoff {l : Life} {token : Token} (runs : l.actor = .running token) (failed : l.state = .failed)
      (idle : l.duty = .idle) : Move l { l with duty := .backoff }
  | controlDisable {l : Life} {token : Token} (heard : Bool) (runs : l.actor = .running token)
      (failed : l.state = .failed) (idle : l.duty = .idle) (hear : heard = true ↔ l.Heard) :
      Move l { (l.setClosing heard).requestStop with duty := .exited }
  | controlReconnect {l : Life} {token : Token} (runs : l.actor = .running token) (unstopped : token ∉ l.stopped)
      (ready : (l.duty = .idle ∧ l.state = .failed) ∨ (l.duty = .backoff ∧ l.state ≠ .closing)) :
      Move l { l.setState .reconnecting with crew := l.crew ++ [⟨.control, token, .early⟩], duty := .connecting }
  | advance {l : Life} {i : Nat} {m : Member} (found : l.crew[i]? = some m) (early : m.phase = .early)
      (unstopped : m.token ∉ l.stopped) : Move l (l.setPhase i .late)
  | finish {l : Life} {i : Nat} {m : Member} (found : l.crew[i]? = some m) (busy : m.busy) (owner : m.owner = .caller) :
      Move l (l.setPhase i .done)
  | reconnectFailed {l : Life} {i : Nat} {m : Member} {token : Token} (found : l.crew[i]? = some m) (busy : m.busy)
      (owner : m.owner = .control) (runs : l.actor = .running token) :
      Move l { (l.setPhase i .done).setState .failed with duty := .idle }
  | opens {l : Life} {i : Nat} {m : Member} (event : ConnectionEvent) (found : l.crew[i]? = some m)
      (late : m.phase = .late) (owner : m.owner = .caller) (kind : event.kind = .connected)
      (generation : event.generation = l.generation + 1) : Move l ((l.setOpen event).setPhase i .done)
  | opensAgain {l : Life} {i : Nat} {m : Member} {token : Token} (event : ConnectionEvent) (found : l.crew[i]? = some m)
      (late : m.phase = .late) (owner : m.owner = .control) (runs : l.actor = .running token)
      (kind : event.kind = .connected) (generation : event.generation = l.generation + 1) :
      Move l { (l.setOpen event).setPhase i .done with duty := .idle }

abbrev Moves : Life → Life → Prop := Relation.ReflTransGen Move

/-! What `close()` records at its end. -/

theorem awaitActor_log (l : Life) :
    l.awaitActor.log = l.log ++ if l.actorRunning then [] else [.closeReturned l.state] := by
  unfold awaitActor
  split <;> simp

@[simp]
theorem mem_awaitActor_log (l : Life) (entry : Entry) :
    entry ∈ l.awaitActor.log ↔ entry ∈ l.log ∨ (l.actorRunning = false ∧ entry = .closeReturned l.state) := by
  unfold awaitActor
  split <;> simp_all

/-- The history only grows. -/
theorem Move.extends {l next : Life} (move : Move l next) : l.log <+: next.log := by
  cases move <;> simp [awaitActor_log]

theorem Moves.extends {first last : Life} (moves : Moves first last) : first.log <+: last.log := by
  induction moves with
  | refl => exact List.prefix_refl _
  | tail _ move ih => exact ih.trans move.extends

/-- An invariant of the moves that put only fine entries into the history holds in every
life with a fine history. -/
theorem Moves.invariant {fine : Entry → Prop} {invariant : Life → Prop}
    (kept : ∀ l next, invariant l → Move l next → (∀ entry ∈ next.log, fine entry) → invariant next)
    {first last : Life} (moves : Moves first last) (holds : invariant first) (good : ∀ entry ∈ last.log, fine entry) :
    invariant last :=
  moves_invariant (fun _ _ move good entry recorded => good entry (move.extends.subset recorded)) kept moves holds good

/-! The busy members. -/

def Busy (l : Life) (i : Nat) (m : Member) : Prop := l.crew[i]? = some m ∧ m.busy

theorem busy_push {l next : Life} {m n : Member} {i : Nat} (joined : next.crew = l.crew ++ [m])
    (early : m.phase = .early) :
    next.Busy i n ↔ l.Busy i n ∨ (i = l.crew.length ∧ n = m) := by
  have busy : m.busy := by simp [Member.busy, early]
  unfold Busy
  rw [joined, List.getElem?_append]
  split
  · rename_i inside
    have elsewhere : i ≠ l.crew.length := Nat.ne_of_lt inside
    simp [elsewhere]
  · rename_i outside
    have absent : l.crew[i]? = none := List.getElem?_eq_none (Nat.le_of_not_lt outside)
    rw [absent, List.getElem?_singleton]
    split
    · rename_i last
      have here : i = l.crew.length := by omega
      simp only [here, Option.some.injEq, true_and, reduceCtorEq, false_and, false_or]
      exact ⟨fun found => found.1.symm, fun same => ⟨same.symm, same ▸ busy⟩⟩
    · rename_i beyond
      have elsewhere : i ≠ l.crew.length := by omega
      simp [elsewhere]

theorem busy_done {l : Life} {i j : Nat} {n : Member} : (l.setPhase i .done).Busy j n ↔ l.Busy j n ∧ j ≠ i := by
  unfold Busy setPhase
  by_cases same : i = j
  · subst same
    cases found : l.crew[i]? with
    | none => simp [found]
    | some m =>
      simp only [List.getElem?_modify_eq, found, Option.map_eq_map, Option.map_some, Option.some.injEq, ne_eq,
        not_true_eq_false, and_false, iff_false]
      rintro ⟨rfl, busy⟩
      exact busy rfl
  · simp [same, Ne.symm same]

theorem busy_late {l : Life} {i j : Nat} {m n : Member} (found : l.crew[i]? = some m) :
    (l.setPhase i .late).Busy j n ↔ (l.Busy j n ∧ j ≠ i) ∨ (j = i ∧ n = { m with phase := .late }) := by
  unfold Busy setPhase
  by_cases same : i = j
  · subst same
    simp only [List.getElem?_modify_eq, found, Option.map_eq_map, Option.map_some, Option.some.injEq, ne_eq,
      not_true_eq_false, and_false, true_and, false_or]
    exact ⟨fun changed => changed.1.symm, fun changed => ⟨changed.symm, by simp [changed, Member.busy]⟩⟩
  · simp [same, Ne.symm same]

theorem heard_iff {l : Life} : l.Heard ↔ ∀ i m, l.Busy i m →
    m.owner = .caller ∧ (m.token ∈ l.stopped ∨ m.token = l.source) ∧ m.phase = .early := by
  constructor
  · intro heard i m busy
    exact heard m (List.mem_of_getElem? busy.1) busy.2
  · intro heard m joined busy
    obtain ⟨i, found⟩ := List.mem_iff_getElem?.mp joined
    exact heard i m ⟨found, busy⟩

theorem Idle.free {l : Life} (idle : l.Idle) (i : Nat) (m : Member) : ¬l.Busy i m := by
  rintro ⟨found, busy⟩
  exact idle.1 m (List.mem_of_getElem? found) busy

end Life

end Rediscoro.Connection

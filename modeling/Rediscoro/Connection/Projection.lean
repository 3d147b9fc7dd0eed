import Rediscoro.Connection.Life
import Rediscoro.Connection.Moves

/-! Every move of a connection is a move of its life, or leaves it as it is.

The life of a connection forgets requests, octets, wake-ups and the socket. So
the invariants of the lifecycle need to be checked against the moves of a life
only.
-/

set_option autoImplicit false

namespace Rediscoro.Connection

open Rediscoro.Semantics Rediscoro.Resp3 Rediscoro.Pipeline

def Stage.phase : Stage → Phase
  | .finished _ | .unwinding | .gone => .done
  | .joining _ (.ok _) | .waitingSlot _ => .late
  | _ => .early

def Attempt.member (a : Attempt) : Member := ⟨a.owner, a.token, a.stage.phase⟩

def Control.duty : Control → Duty
  | .running | .waiting | .timer _ => .idle
  | .backoff _ => .backoff
  | .connecting => .connecting
  | .exited => .exited

def Loop.hasExited {κ : Type} : Loop κ → Bool
  | .exited => true
  | _ => false

theorem Control.duty_idle {control : Control} (idle : control.idle = true) : control.duty = .idle := by
  cases control <;> first | rfl | cases idle

theorem Control.duty_connecting {control : Control} (connecting : control.duty = .connecting) :
    control = .connecting := by
  cases control <;> first | rfl | cases connecting

theorem Attempt.busy_of_unfinished {a : Attempt} (unfinished : a.unfinished = true) : a.member.busy := by
  unfold Attempt.unfinished at unfinished
  unfold Member.busy Attempt.member Stage.phase
  split at unfinished
  · cases unfinished
  · cases unfinished
  · cases unfinished
  · split <;> simp_all

theorem Attempt.unfinished_iff (a : Attempt) : a.unfinished = true ↔ a.member.busy := by
  refine ⟨busy_of_unfinished, fun busy => ?_⟩
  unfold Attempt.unfinished
  split
  · exact absurd (by simp [member, Stage.phase, *]) busy
  · exact absurd (by simp [member, Stage.phase, *]) busy
  · exact absurd (by simp [member, Stage.phase, *]) busy
  · rfl

theorem Attempt.late_iff (a : Attempt) : a.late = true ↔ a.member.phase = .late := by
  unfold Attempt.late Attempt.member Stage.phase
  rcases a with ⟨owner, token, timedOut, reset, stage⟩
  cases stage with
  | joining slot result => cases result <;> simp
  | _ => simp

theorem Attempt.member_abort (a : Attempt) : a.abort.member = a.member := by
  rcases a with ⟨owner, token, timedOut, reset, stage⟩
  cases stage <;> rfl

theorem Attempt.phase_of_ends {a : Attempt} {slot : SinkRef} (ends : a.stage.Ends slot) (early : a.late = false) :
    a.stage.phase = .early := by
  rcases a with ⟨owner, token, timedOut, reset, stage⟩
  cases ends with
  | @joining result =>
    cases result with
    | ok => cases early
    | error => rfl
  | waitingSlot => cases early
  | handshaking | writing | reading => rfl

theorem Attempt.phase_of_slot {a : Attempt} (unfinished : a.unfinished = true) (before : a.stage.slot = none) :
    a.stage.phase = .early := by
  rcases a with ⟨owner, token, timedOut, reset, stage⟩
  cases stage with
  | spawned | resolving | connecting => rfl
  | handshaking | writing | reading | joining | waitingSlot => cases before
  | finished | unwinding | gone => cases unfinished

theorem Loop.hasExited_resting {κ : Type} {loop : Loop κ} (rests : loop.resting = true) : loop.hasExited = false := by
  cases loop with
  | exited => cases rests
  | running | waiting | busy => rfl

theorem Loop.hasExited_map {κ : Type} (loop : Loop κ) (change : κ → κ) :
    (loop.map change).hasExited = loop.hasExited := by
  cases loop <;> rfl

namespace System

variable {ρ : Type}

/-- The lifecycle of a connection. -/
def life (s : System ρ) : Life :=
  { state := s.state
    generation := s.generation
    source := s.source
    stopped := s.stopped
    actorRunning := s.actorRunning
    actorDone := s.actorDone
    actor := s.actor
    writerExited := s.writer.hasExited
    readerExited := s.reader.hasExited
    duty := s.control.duty
    crew := s.attempts.map Attempt.member
    closing := s.closing
    log := s.log }

/-! The life after what the coroutines do. -/

section Frames

variable {fuel : Nat} {s next : System ρ} {i : Nat} {a : Attempt}

theorem life_record (entry : Entry) : (s.record entry).life = s.life.record entry := rfl

theorem life_setState (state : State) : (s.setState state).life = s.life.setState state := rfl

theorem life_emit (kind : EventKind) (stage : EventStage) (before after : State) (error : Option ErrorInfo) :
    (s.emit kind stage before after error).life = s.life.record (.event (s.event kind stage before after error)) := rfl

theorem life_requestStop : s.requestStop.life = s.life.requestStop := rfl

theorem life_setClosing : s.setClosing.life = s.life.setClosing s.allHear := by
  rw [setClosing, life_setState, life_record]
  rfl

theorem life_wakeLoops : s.wakeLoops.life = s.life := rfl

theorem life_clearAll {err : ErrorInfo} (cleared : s.clearAll fuel err = some next) : next.life = s.life := by
  obtain ⟨pipeline, sinks, -, rfl⟩ := clearAll_eq cleared
  rfl

theorem life_closeSocket (s : System ρ) : s.closeSocket.life = s.life := by
  unfold closeSocket
  split
  · have members : (s.attempts.map Attempt.abort).map Attempt.member = s.attempts.map Attempt.member := by
      simp [Function.comp_def, Attempt.member_abort]
    simp only [life, Loop.hasExited_map, members]
  · rfl

theorem life_setAttempt {change : Attempt → Attempt} (found : s.attempts[i]? = some a)
    (keeps : (change a).member = a.member) : (s.setAttempt i change).life = s.life := by
  have members : (s.attempts.modify i change).map Attempt.member = s.attempts.map Attempt.member := by
    apply List.ext_getElem?
    intro j
    by_cases same : i = j
    · subst same
      simp [found, keeps]
    · simp [same]
  simp only [life, setAttempt, members]

theorem life_setStage (stage : Stage) : (s.setStage i stage).life = s.life.setPhase i stage.phase := by
  have members : (s.attempts.modify i fun a => { a with stage := stage }).map Attempt.member =
      (s.attempts.map Attempt.member).modify i fun m => { m with phase := stage.phase } := by
    apply List.ext_getElem?
    intro j
    cases found : s.attempts[j]? with
    | none => simp [List.getElem?_modify, found]
    | some a => by_cases same : i = j <;> simp [found, same, Attempt.member]
  simp only [life, setStage, setAttempt, Life.setPhase, members]

theorem crew_found (found : s.attempts[i]? = some a) : s.life.crew[i]? = some a.member := by
  simp [life, found]

/-- A change of stage within a phase is none of the life. -/
theorem life_setStage_phase {stage : Stage} (found : s.attempts[i]? = some a) (same : stage.phase = a.stage.phase) :
    (s.setStage i stage).life = s.life := by
  rw [life_setStage, same]
  have crew : (s.life.crew.modify i fun m => { m with phase := a.stage.phase }) = s.life.crew := by
    apply List.ext_getElem?
    intro j
    by_cases here : i = j
    · subst here
      simp [crew_found found, Attempt.member]
    · simp [here]
  simp only [Life.setPhase, crew]

theorem stopRequested_iff (token : Token) : s.stopRequested token = true ↔ token ∈ s.life.stopped := by
  simp [stopRequested, life]

theorem unstopped_iff (token : Token) : s.stopRequested token = false ↔ token ∉ s.life.stopped := by
  simp [stopRequested, life]

theorem connectBusy_iff : (!s.connectBusy) = true ↔ s.life.Idle := by
  simp only [connectBusy, Bool.not_eq_true', Bool.or_eq_false_iff, Life.Idle, life, List.any_eq_false,
    List.mem_map, forall_exists_index, and_imp, forall_apply_eq_imp_iff₂, Attempt.unfinished_iff]
  apply and_congr_right'
  cases s.control <;> simp [Control.duty]

theorem allHear_iff : s.allHear = true ↔ s.life.Heard := by
  simp only [allHear, List.all_eq_true, Bool.or_eq_true, Bool.not_eq_true', Bool.and_eq_true, decide_eq_true_eq,
    stopRequested_iff, Life.Heard, life, List.mem_map, forall_exists_index, and_imp, forall_apply_eq_imp_iff₂]
  apply forall₂_congr
  intro a _
  have early : a.member.busy → (a.late = false ↔ a.member.phase = .early) := by
    intro busy
    rw [Bool.eq_false_iff, ne_eq, a.late_iff]
    cases shape : a.member.phase with
    | early => simp
    | late => simp
    | done => exact absurd shape busy
  rw [← Bool.not_eq_true, a.unfinished_iff, ← imp_iff_not_or]
  apply imp_congr_right
  intro busy
  rw [early busy, and_assoc]
  rfl

theorem life_enqueue {req : Request} {slotFromMessage : Nat → Message → Except ErrorInfo ρ}
    (queued : s.enqueue fuel req slotFromMessage = some next) : next.life = s.life := by
  cases enqueue_cases queued <;> rfl

theorem life_transitionToClosed {s closed : System ρ} (closes : s.transitionToClosed fuel = some closed) :
    ∃ event, event.kind = .closed ∧ event.generation = s.generation ∧ closed.life = s.life.setClosed event := by
  obtain ⟨cleared, clears, rfl⟩ := Option.map_eq_some_iff.mp closes
  have same : cleared.closeSocket.life = s.life.setState .closed := by
    rw [life_closeSocket, life_clearAll clears]
    rfl
  have generation : cleared.closeSocket.generation = s.generation := congrArg Life.generation same
  let event := cleared.closeSocket.event .closed .close s.state .closed none
  exact ⟨event, rfl, generation, congrArg (fun l => l.record (.event event)) same⟩

theorem life_awaitActor (s : System ρ) : s.awaitActor.life = s.life.awaitActor := apply_ite System.life _ _ _

theorem life_beginConnect (s : System ρ) : s.beginConnect.life = s.life.beginConnect (!s.connectBusy) := by
  have crew : (s.attempts ++ [({ owner := .caller, token := s.source } : Attempt)]).map Attempt.member =
      s.life.crew ++ [⟨.caller, s.source, .early⟩] := by
    simp [life, Attempt.member, Stage.phase]
  exact congrArg (fun crew => { s.life.beginConnect (!s.connectBusy) with crew := crew }) crew

theorem heard_requestStop (l : Life) (entry : Entry) : (l.record entry).requestStop.Heard ↔ l.Heard := by
  simp only [Life.Heard, Life.requestStop, Life.record, List.mem_cons]
  grind

theorem life_beginResolve {i : Nat} {a : Attempt} (found : s.attempts[i]? = some a) (here : a.stage = .spawned) :
    (s.beginResolve i).life = s.life :=
  life_setAttempt (s := s.resetParser) found (by simp [Attempt.member, here, Stage.phase])

theorem life_setOpen (s : System ρ) :
    ∃ event, event.kind = .connected ∧ event.generation = s.generation + 1 ∧ s.setOpen.life = s.life.setOpen event :=
  ⟨_, rfl, rfl, rfl⟩

theorem life_beginReconnect (s : System ρ) (token : Token) :
    (s.beginReconnect token).life =
      { s.life.setState .reconnecting with
        crew := s.life.crew ++ [⟨.control, token, .early⟩], duty := .connecting } := by
  let begun : System ρ := { s.setState .reconnecting with
    attempts := s.attempts ++ [{ owner := .control, token := token }], control := .connecting }
  have found : begun.attempts[s.attempts.length]? = some { owner := .control, token := token } := by simp [begun]
  have same : begun.life = { s.life.setState .reconnecting with
      crew := s.life.crew ++ [⟨.control, token, .early⟩], duty := .connecting } := by
    simp [begun, life, setState, record, Life.setState, Life.record, Attempt.member, Stage.phase, Control.duty]
  exact (life_beginResolve found rfl).trans same

theorem life_connectNext (left : Nat) (found : s.attempts[i]? = some a) (unfinished : a.unfinished = true)
    (before : a.stage.slot = none) : (s.connectNext i left).life = s.life := by
  let dialled : System ρ := { s.closeSocket with socketOpen := true, socket := s.closeSocket.socket + 1 }
  have still : ∃ now, dialled.attempts[i]? = some now ∧ now.stage.phase = .early := by
    have early := Attempt.phase_of_slot unfinished before
    rcases attempts_closeSocket found with same | aborted
    · exact ⟨a, same, early⟩
    · have kept : a.abort.stage.phase = a.stage.phase := congrArg Member.phase a.member_abort
      exact ⟨a.abort, aborted, kept.trans early⟩
  obtain ⟨now, here, early⟩ := still
  have same : (dialled.setStage i (.connecting left .pending)).life = dialled.life :=
    life_setStage_phase here early.symm
  exact same.trans (life_closeSocket s)

end Frames

section Following

variable {fuel : Nat} {s next : System ρ}

theorem hop_life {i : Nat} {a : Attempt} {stage : Stage} (found : s.attempts[i]? = some a) (hops : Hop s a stage) :
    Life.Moves s.life (s.setStage i stage).life := by
  have within (same : stage.phase = a.stage.phase) : Life.Moves s.life (s.setStage i stage).life := by
    rw [life_setStage_phase found same]
  have advances {slot : SinkRef} (here : a.stage = .handshaking slot) (unstopped : s.stopRequested a.token = false)
      (late : stage.phase = .late) : Life.Moves s.life (s.setStage i stage).life := by
    rw [life_setStage, late]
    exact .single (.advance (crew_found found) (by simp [Attempt.member, here, Stage.phase])
      ((unstopped_iff _).mp unstopped))
  cases hops with
  | resolved here | connected here => exact within (by simp [here, Stage.phase])
  | wrote here answered | read here answered => exact within (by simp [here, Stage.phase])
  | ended ends early => exact within (Attempt.phase_of_ends ends early).symm
  | joined here unstopped complete => exact advances here unstopped rfl
  | passed here unstopped complete => exact advances here unstopped rfl
  | returned here complete => exact within (by simp [here, Stage.phase])
  | finished unfinished owner settled =>
    rw [life_setStage]
    exact .single (.finish (crew_found found) (Attempt.busy_of_unfinished unfinished) owner)
  | dismissed spent =>
    apply within
    unfold Attempt.unfinished at spent
    split at spent <;> simp_all [Stage.phase]

/-- What a move of a connection does to its life. -/
theorem Move.life [FloatChars] [Inhabited ρ] (move : Move fuel s next) : Life.Moves s.life next.life := by
  have moved {l : Life} (same : next.life = l) (moves : Life.Move s.life l) : Life.Moves s.life next.life :=
    same ▸ .single moves
  have unmoved (same : next.life = s.life) : Life.Moves s.life next.life := by rw [same]
  -- a loop that rests has not exited, so going on changes nothing in the life
  have writer (rests : s.writer.resting = true) : { s.life with writerExited := false } = s.life :=
    congrArg (fun exited => { s.life with writerExited := exited }) (Loop.hasExited_resting rests).symm
  have reader (rests : s.reader.resting = true) : { s.life with readerExited := false } = s.life :=
    congrArg (fun exited => { s.life with readerExited := exited }) (Loop.hasExited_resting rests).symm
  cases move with
  | quiet => exact .refl
  | @fail cleared err opened clears =>
    have same : cleared.closeSocket.wakeLoops.life = (s.life.setState .failed).record
        (.event (s.event .disconnected .runtimeIo .opened .failed (some err))) := by
      rw [life_wakeLoops, life_closeSocket, life_clearAll clears, life_emit, life_setState]
      rfl
    exact moved same (.fail _ opened rfl rfl rfl)
  | closeIdle closed => exact .single (.closeIdle closed)
  | close unclosed clears =>
    have same := life_clearAll clears
    rw [life_setClosing, life_requestStop, life_record] at same
    apply moved ((life_awaitActor _).trans (congrArg Life.awaitActor ((life_closeSocket _).trans same)))
    exact .close _ unclosed (allHear_iff.trans (heard_requestStop s.life _))
  | closeResume resumed =>
    unfold System.closeResume at resumed
    split at resumed
    · rename_i woken
      cases resumed
      exact .single (.closeResume woken.1 woken.2)
    · cases resumed
  | reopen closed => exact moved (life_beginConnect _) (.reopen _ closed connectBusy_iff)
  | begin unopened unbegun unclosed unstopped =>
    exact moved (life_beginConnect _)
      (.begin _ unopened unbegun unclosed ((unstopped_iff _).mp unstopped) connectBusy_iff)
  | @report i a err found here =>
    have same : (s.setStage i .unwinding).life = s.life := life_setStage_phase found (by simp [here, Stage.phase])
    let event := s.event .disconnected .connect .connecting .closing (some err)
    exact moved (congrArg (fun l => l.record (.event event)) same) (.report event rfl rfl rfl)
  | hop found hops => exact hop_life found hops
  | actorStart spawned => exact .single (.actorStart spawned)
  | actorEnd runs writer reader control closes =>
    obtain ⟨event, kind, generation, same⟩ := life_transitionToClosed closes
    exact moved same (.actorEnd event runs (by simp [System.life, writer, Loop.hasExited])
      (by simp [System.life, reader, Loop.hasExited]) (by simp [System.life, control, Control.duty]) kind generation)
  | actorGone ended closed => exact .single (.actorGone ended closed)
  | actorCloses ended unclosed closes =>
    obtain ⟨event, kind, generation, same⟩ := life_transitionToClosed closes
    exact moved (congrArg (fun l => { l with actorDone := l.actorDone + 1 }) same)
      (.actorCloses event ended unclosed kind generation)
  | enqueue queued => exact unmoved (life_enqueue queued)
  | writerExit runs ends rests => exact .single (.writerExit runs (ends.imp_left (stopRequested_iff _).mp))
  | writerWait runs rests => exact unmoved (writer rests)
  | writerIssue runs opened rests issued => exact unmoved (writer rests)
  | writerComplete busy answered => exact unmoved (by simp [System.life, busy, Loop.hasExited])
  | writerDone runs busy done applied => exact unmoved (by simp [System.life, busy, Loop.hasExited])
  | writerDrop runs busy failed => exact unmoved (by simp [System.life, busy, Loop.hasExited])
  | readerExit runs ends rests => exact .single (.readerExit runs (ends.imp_left (stopRequested_iff _).mp))
  | readerWait runs rests => exact unmoved (reader rests)
  | readerIssue runs opened rests => exact unmoved (reader rests)
  | readerComplete busy answered => exact unmoved (by simp [System.life, busy, Loop.hasExited])
  | readerDrop runs busy => exact unmoved (by simp [System.life, busy, Loop.hasExited])
  | readerChunk runs busy arrived nonempty parsed =>
    exact unmoved (by simp [System.life, leave, consumed, delivered, note, busy, Loop.hasExited])
  | controlExit runs ends free =>
    exact .single (.controlExit runs (ends.imp_left (stopRequested_iff _).mp) (mt Control.duty_connecting free))
  | controlWait runs idle waits =>
    exact unmoved (by simp [System.life, Control.duty_idle idle, Control.duty_idle waits])
  | controlBackoff deadline runs failed idle =>
    exact .single (.controlBackoff runs failed (Control.duty_idle idle))
  | controlDisable runs failed idle =>
    exact .single (.controlDisable _ runs failed (Control.duty_idle idle) allHear_iff)
  | controlReconnect runs unstopped ready =>
    exact moved (life_beginReconnect s _) (.controlReconnect runs ((unstopped_iff _).mp unstopped) (by
      rcases ready with ⟨idle, failed⟩ | ⟨deadline, backoff, unclosing⟩
      · exact .inl ⟨Control.duty_idle idle, failed⟩
      · exact .inr ⟨by simp [System.life, backoff, Control.duty], unclosing⟩))
  | resolve found here => exact unmoved (life_beginResolve found here)
  | connectNext left found unfinished before => exact unmoved (life_connectNext left found unfinished before)
  | closeSocket found unfinished before => exact unmoved (life_closeSocket _)
  | alloc req => exact .refl
  | push found unfinished before pushed =>
    exact unmoved (life_setStage_phase (s := s.queue _ _) found (Attempt.phase_of_slot unfinished before).symm)
  | issueWrite found here issued =>
    exact unmoved (life_setStage_phase (s := s.note _) found (by simp [here, Stage.phase]))
  | wrote found here done applied =>
    exact unmoved (life_setStage_phase (s := { s with pipeline := _ }) found (by simp [here, Stage.phase]))
  | issueRead found here =>
    exact unmoved (life_setStage_phase (s := { s with parser := _ }) found (by simp [here, Stage.phase]))
  | read found here arrived parsed =>
    exact unmoved (life_setStage_phase (s := (s.note _).consumed _) found (by simp [here, Stage.phase]))
  | clear found ends clears => exact unmoved (life_clearAll clears)
  | @timeout i a found => exact unmoved (life_setAttempt found (Attempt.member_abort a))
  | reconnectFailed found unfinished owner settled runs =>
    exact moved (congrArg (fun l => { l.setState .failed with duty := .idle }) (life_setStage .gone))
      (.reconnectFailed (crew_found found) (Attempt.busy_of_unfinished unfinished) owner runs)
  | @opens i a slot found here complete owner =>
    obtain ⟨event, kind, generation, opened⟩ := life_setOpen s
    have late : a.member.phase = .late := by simp [Attempt.member, here, Stage.phase]
    have same := life_setStage (s := s.setOpen) (i := i) (.finished (.ok ()))
    rw [opened] at same
    exact moved same (.opens event (crew_found found) late owner kind generation)
  | @opensAgain i a slot token found here complete owner runs =>
    obtain ⟨event, kind, generation, opened⟩ := life_setOpen s
    have late : a.member.phase = .late := by simp [Attempt.member, here, Stage.phase]
    have same := life_setStage (s := s.setOpen) (i := i) .gone
    rw [opened] at same
    exact moved (congrArg (fun l => { l with duty := .idle }) same)
      (.opensAgain event (crew_found found) late owner runs kind generation)

theorem notes_closeSocket (s : System ρ) : s.closeSocket.notes = s.notes := by unfold closeSocket; split <;> rfl

theorem notes_clearAll {err : ErrorInfo} (cleared : s.clearAll fuel err = some next) : s.notes <+: next.notes := by
  obtain ⟨pipeline, sinks, -, rfl⟩ := clearAll_eq cleared
  exact List.prefix_append _ _

theorem notes_transitionToClosed (closes : s.transitionToClosed fuel = some next) : s.notes <+: next.notes := by
  obtain ⟨cleared, clears, rfl⟩ := Option.map_eq_some_iff.mp closes
  have grown := notes_clearAll clears
  rw [← notes_closeSocket cleared] at grown
  exact grown

/-- The histories only grow. -/
theorem Move.extends [FloatChars] [Inhabited ρ] (move : Move fuel s next) :
    s.log <+: next.log ∧ s.notes <+: next.notes := by
  refine ⟨move.life.extends, ?_⟩
  cases move with
  | @fail cleared err opened clears =>
    have grown := notes_clearAll clears
    rw [← notes_closeSocket cleared] at grown
    exact grown
  | @close cleared unclosed clears =>
    have grown := notes_clearAll clears
    rw [← notes_closeSocket cleared] at grown
    unfold awaitActor
    split
    · exact grown
    · exact grown
  | closeResume resumed =>
    unfold System.closeResume at resumed
    split at resumed
    · cases resumed
      exact List.prefix_refl _
    · cases resumed
  | actorEnd runs writer reader control closes =>
    have grown := notes_transitionToClosed closes
    exact grown
  | actorCloses ended unclosed closes =>
    have grown := notes_transitionToClosed closes
    exact grown
  | enqueue enqueued =>
    cases enqueue_cases enqueued with
    | rejected => exact List.prefix_refl _
    | queued => exact List.prefix_append _ _
  | writerIssue | readerChunk | controlReconnect | resolve | issueWrite | read | opens | opensAgain =>
    first
    | exact List.prefix_append _ _
    | exact (List.prefix_append _ _).trans (List.prefix_append _ _)
  | connectNext left found unfinished before =>
    have same : s.notes <+: s.closeSocket.notes := by rw [notes_closeSocket]
    exact same
  | closeSocket => rw [notes_closeSocket]
  | clear found ends clears => exact notes_clearAll clears
  | _ => exact List.prefix_refl _

/-- An invariant of the moves that put only fine entries into the histories holds in every
connection with fine histories. -/
theorem Moves.invariant [FloatChars] [Inhabited ρ] {fine : Entry → Prop} {good : Note → Prop}
    {invariant : System ρ → Prop}
    (kept : ∀ s next, invariant s → Move fuel s next → (∀ entry ∈ next.log, fine entry) →
      (∀ note ∈ next.notes, good note) → invariant next)
    {first last : System ρ} (moves : Moves fuel first last) (holds : invariant first)
    (histories : (∀ entry ∈ last.log, fine entry) ∧ ∀ note ∈ last.notes, good note) : invariant last := by
  let allowed (s : System ρ) : Prop := (∀ entry ∈ s.log, fine entry) ∧ ∀ note ∈ s.notes, good note
  have earlier (s next : System ρ) (move : Move fuel s next) (histories : allowed next) : allowed s := by
    obtain ⟨log, notes⟩ := move.extends
    exact ⟨fun entry recorded => histories.1 entry (log.subset recorded),
      fun note noted => histories.2 note (notes.subset noted)⟩
  have goes (s next : System ρ) (holds : invariant s) (move : Move fuel s next) (histories : allowed next) :
      invariant next := kept s next holds move histories.1 histories.2
  exact moves_invariant earlier goes moves holds histories

theorem Reached.life [FloatChars] [Inhabited ρ] {cfg : Config} (reached : Reached fuel cfg s) :
    Life.Moves (start (ρ := ρ) cfg).life s.life :=
  reached.moves.lift' System.life fun _ _ move => move.life

end Following

end System

end Rediscoro.Connection

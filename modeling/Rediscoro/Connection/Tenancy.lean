import Rediscoro.Connection.Exclusive
import Rediscoro.Connection.Traffic

/-! Who is in the pipeline.

While the connection is open the pipeline holds requests that were accepted on its
socket. Otherwise it holds nothing but the handshake of the attempt that is under
way, as long as there is one attempt at a time: every way out of OPEN clears the
pipeline, and OPEN is set where the handshake has left it.
-/

set_option autoImplicit false

namespace Rediscoro.Connection

open Rediscoro.Semantics Rediscoro.Resp3 Rediscoro.Pipeline

variable {ρ : Type}

/-! Requests that were accepted, on whatever connection. -/

namespace Traffic

/-- An accepted request is queued or complete. -/
structure Kept (t : Traffic ρ) : Prop where
  stocked : t.pipeline.Stocked t.sinks
  bound : ∀ ref ∈ t.accepted, ref < t.sinks.cells.length
  served : ∀ ref ∈ t.accepted, ref ∈ t.pipeline.refs ∨ t.sinks.isComplete ref = true

variable {t next : Traffic ρ}

/-- Sinks are made, and never taken away. -/
theorem Move.grows (move : Move t next) : t.sinks.cells.length ≤ next.sinks.cells.length := by
  have made (sink : Sink ρ) : t.sinks.cells.length ≤ (t.sinks.alloc sink).2.cells.length := by simp [Sinks.alloc]
  cases move with
  | reject refused =>
    rw [refused.later.size]
    exact made _
  | @queue req slotFromMessage deadline pipeline accepted pushed one =>
    obtain ⟨context, -, cells⟩ := cells_install t req slotFromMessage
    simp [cells]
  | write applied => exact Nat.le_refl _
  | answer answered => exact Nat.le_of_eq answered.later.size.symm
  | clear cleared => exact Nat.le_of_eq cleared.later.size.symm
  | alloc => exact made _
  | push => exact made _

theorem Moves.grows {first last : Traffic ρ} (moves : Moves first last) :
    first.sinks.cells.length ≤ last.sinks.cells.length := by
  induction moves with
  | refl => exact Nat.le_refl _
  | tail _ move ih => exact Nat.le_trans ih move.grows

namespace Kept

/-- The sinks that were there are as they were. -/
theorem served_of_cells {accepted : List SinkRef} {pipeline : Pipeline} {sinks after : Sinks (Sink ρ) Message ErrorInfo}
    (served : ∀ ref ∈ accepted, ref ∈ t.pipeline.refs ∨ sinks.isComplete ref = true)
    (queued : ∀ ref ∈ t.pipeline.refs, ref ∈ pipeline.refs)
    (same : ∀ ref ∈ accepted, after.cells[ref]? = sinks.cells[ref]?) :
    ∀ ref ∈ accepted, ref ∈ pipeline.refs ∨ after.isComplete ref = true := by
  intro ref member
  rcases served ref member with waits | complete
  · exact .inl (queued ref waits)
  · right
    rw [Sinks.isComplete, same ref member]
    exact complete

theorem step (kept : t.Kept) (move : Move t next) : next.Kept := by
  have grown := move.grows
  have stocked := stocked_step kept.stocked move
  have inside (sink : Sink ρ) (ref : SinkRef) (member : ref ∈ t.accepted) :
      (t.sinks.alloc sink).2.cells[ref]? = t.sinks.cells[ref]? :=
    List.getElem?_append_left (kept.bound ref member)
  cases move with
  | @reject req slotFromMessage errc sinks refused =>
    refine ⟨stocked, fun ref member => Nat.lt_of_lt_of_le (kept.bound ref member) grown, ?_⟩
    apply served_of_cells kept.served (fun _ member => member)
    intro ref member
    rw [refused.others ref (Nat.ne_of_lt (kept.bound ref member))]
    exact inside _ ref member
  | @queue req slotFromMessage deadline pipeline accepted pushed one =>
    obtain ⟨context, -, cells⟩ := cells_install t req slotFromMessage
    have same := refs_push pushed
    refine ⟨stocked, fun ref member => ?_, fun ref member => ?_⟩
    · rw [one] at member
      rcases List.mem_append.mp member with earlier | last
      · exact Nat.lt_of_lt_of_le (kept.bound ref earlier) grown
      · rw [List.mem_singleton.mp last, cells, List.length_append]
        exact Nat.lt_succ_self _
    · rw [one] at member
      rcases List.mem_append.mp member with earlier | last
      · refine served_of_cells kept.served (fun ref waits => same.mem_iff.mpr (List.mem_cons_of_mem _ waits)) ?_ ref
          earlier
        intro ref member
        rw [cells]
        exact List.getElem?_append_left (kept.bound ref member)
      · rw [List.mem_singleton.mp last]
        exact .inl (same.mem_iff.mpr List.mem_cons_self)
  | write applied =>
    refine ⟨stocked, kept.bound, ?_⟩
    exact served_of_cells kept.served (fun ref waits => (refs_onWriteDone applied).mem_iff.mpr waits) fun _ _ => rfl
  | @answer pipeline sinks answered =>
    refine ⟨stocked, fun ref member => Nat.lt_of_lt_of_le (kept.bound ref member) grown, fun ref member => ?_⟩
    by_cases waits : ref ∈ pipeline.refs
    · exact .inl waits
    · right
      rcases kept.served ref member with waited | complete
      · exact answered.served ref waited waits
      · exact answered.later.isComplete complete
  | clear cleared =>
    refine ⟨stocked, fun ref member => Nat.lt_of_lt_of_le (kept.bound ref member) grown, fun ref member => .inr ?_⟩
    rcases kept.served ref member with waited | complete
    · exact cleared.complete ref waited
    · exact cleared.later.isComplete complete
  | alloc slotFromMessage req =>
    refine ⟨stocked, fun ref member => Nat.lt_of_lt_of_le (kept.bound ref member) grown, ?_⟩
    exact served_of_cells kept.served (fun _ member => member) (inside _)
  | push pushed =>
    refine ⟨stocked, fun ref member => Nat.lt_of_lt_of_le (kept.bound ref member) grown, ?_⟩
    have same := refs_push pushed
    exact served_of_cells kept.served (fun ref waits => same.mem_iff.mpr (List.mem_cons_of_mem _ waits)) (inside _)

end Kept

end Traffic

/-! Slots of the attempts. -/

/-- What concerns neither requests nor the socket. -/
def Note.silent : Note → Bool
  | .accepted .. | .written .. | .opened _ => false
  | _ => true

theorem Attempt.unfinished_of_slot {a : Attempt} {ref : SinkRef} (slot : a.stage.slot = some ref) :
    a.unfinished = true := by
  unfold unfinished
  cases stage : a.stage <;> simp_all [Stage.slot]

theorem Stage.Ends.slot {stage : Stage} {ref : SinkRef} (ends : stage.Ends ref) : stage.slot = some ref := by
  cases ends <;> rfl

theorem Attempt.slot_abort (a : Attempt) : a.abort.stage.slot = a.stage.slot := by
  unfold abort
  cases a.stage <;> rfl

namespace System

variable {s next : System ρ} {ref : SinkRef}

/-- The request is the handshake of some attempt. -/
def Handshake (s : System ρ) (ref : SinkRef) : Prop :=
  ∃ (i : Nat) (a : Attempt), s.attempts[i]? = some a ∧ a.stage.slot = some ref

theorem Handshake.congr (same : next.attempts = s.attempts) (handshake : s.Handshake ref) : next.Handshake ref := by
  unfold Handshake
  rw [same]
  exact handshake

theorem Handshake.joins {a : Attempt} (joined : next.attempts = s.attempts ++ [a]) (handshake : s.Handshake ref) :
    next.Handshake ref := by
  obtain ⟨i, b, found, slot⟩ := handshake
  refine ⟨i, b, ?_, slot⟩
  rw [joined, List.getElem?_append_left (List.getElem?_eq_some_iff.mp found).1]
  exact found

theorem Handshake.closeSocket (handshake : s.Handshake ref) : s.closeSocket.Handshake ref := by
  obtain ⟨i, a, found, slot⟩ := handshake
  rcases attempts_closeSocket found with same | aborted
  · exact ⟨i, a, same, slot⟩
  · exact ⟨i, a.abort, aborted, a.slot_abort.trans slot⟩

/-- The attempt that changes keeps its slot, or it is not the one in question. -/
theorem Handshake.setAttempt {i : Nat} {a : Attempt} {change : Attempt → Attempt} (found : s.attempts[i]? = some a)
    (keeps : a.stage.slot = some ref → (change a).stage.slot = some ref) (handshake : s.Handshake ref) :
    (s.setAttempt i change).Handshake ref := by
  obtain ⟨j, b, there, slot⟩ := handshake
  by_cases here : i = j
  · subst here
    cases found.symm.trans there
    exact ⟨i, change a, by simp [System.setAttempt, found], keeps slot⟩
  · exact ⟨j, b, by simpa [System.setAttempt, here] using there, slot⟩

theorem socket_closeSocket (s : System ρ) : s.closeSocket.socket = s.socket := by unfold closeSocket; split <;> rfl

/-- What `clear_all` and a close of the socket come to. -/
theorem clearAll_closeSocket {fuel : Nat} {err : ErrorInfo} (clears : s.clearAll fuel err = some next) :
    next.closeSocket.pipeline.refs = [] ∧ next.closeSocket.notes = s.notes ++ [.cleared s.writeCompleted] ∧
      next.closeSocket.socket = s.socket := by
  rw [show next.closeSocket.pipeline = next.pipeline from congrArg Traffic.pipeline (traffic_closeSocket next),
    notes_closeSocket, socket_closeSocket]
  obtain ⟨pipeline, sinks, result, rfl⟩ := clearAll_eq clears
  exact ⟨(clearAll_cleared result).empty, rfl, rfl⟩

theorem transitionToClosed_empties {fuel : Nat} (closes : s.transitionToClosed fuel = some next) :
    next.pipeline.refs = [] ∧ next.notes = s.notes ++ [.cleared s.writeCompleted] ∧ next.socket = s.socket := by
  obtain ⟨cleared, clears, rfl⟩ := Option.map_eq_some_iff.mp closes
  have facts := clearAll_closeSocket clears
  exact facts

theorem accepted_mem {socket : Nat} (accepted : .accepted ref socket ∈ s.notes) : ref ∈ s.traffic.accepted :=
  List.mem_filterMap.mpr ⟨_, accepted, rfl⟩

structure Tenancy (s : System ρ) : Prop where
  kept : s.traffic.Kept
  few : s.state ≠ .opened → s.pipeline.pendingCount ≤ 1
  guests : s.state ≠ .opened → ∀ ref ∈ s.pipeline.refs,
    s.Handshake ref ∧ ∀ socket, .accepted ref socket ∉ s.notes
  home : ∀ ref ∈ s.pipeline.refs, ∀ socket, .accepted ref socket ∈ s.notes → socket = s.socket
  opened : ∀ queued, .opened queued ∈ s.notes → queued = 0
  bound : ∀ ref socket, .written ref socket ∈ s.notes → ref < s.sinks.cells.length
  wired : ∀ ref home socket, .accepted ref home ∈ s.notes → .written ref socket ∈ s.notes → socket = home

namespace Tenancy

/-- Nobody comes in, and whoever stays when OPEN is left is a handshake. -/
theorem carries (tenancy : s.Tenancy) (kept : next.traffic.Kept)
    (size : s.sinks.cells.length ≤ next.sinks.cells.length)
    (left : s.state = .opened → next.state = .opened ∨ next.pipeline.refs = [])
    (socket : next.socket = s.socket ∨ s.state ≠ .opened)
    (notes : ∀ note ∈ next.notes, note ∈ s.notes ∨ note.silent = true)
    (refs : next.pipeline.refs.Subperm s.pipeline.refs)
    (slots : ∀ ref ∈ next.pipeline.refs, s.Handshake ref → next.Handshake ref) : next.Tenancy := by
  have known {note : Note} (loud : note.silent = false) (noted : note ∈ next.notes) : note ∈ s.notes := by
    rcases notes note noted with earlier | silent
    · exact earlier
    · rw [loud] at silent
      cases silent
  have stays (unopened : next.state ≠ .opened) (ref : SinkRef) (member : ref ∈ next.pipeline.refs) :
      s.state ≠ .opened := by
    intro was
    rcases left was with still | empty
    · exact unopened still
    · rw [empty] at member
      cases member
  exact {
    kept := kept
    few := fun unopened => by
      rw [← length_refs]
      cases present : next.pipeline.refs with
      | nil => exact Nat.zero_le _
      | cons ref rest =>
        have before := stays unopened ref (by rw [present]; exact List.mem_cons_self)
        rw [← present]
        exact Nat.le_trans refs.length_le (length_refs s.pipeline ▸ tenancy.few before)
    guests := fun unopened ref member => by
      obtain ⟨handshake, unaccepted⟩ := tenancy.guests (stays unopened ref member) ref (refs.subset member)
      exact ⟨slots ref member handshake, fun socket accepted => unaccepted socket (known rfl accepted)⟩
    home := fun ref member home accepted => by
      rcases socket with same | unopened
      · rw [same]
        exact tenancy.home ref (refs.subset member) home (known rfl accepted)
      · exact absurd (known rfl accepted) ((tenancy.guests unopened ref (refs.subset member)).2 home)
    opened := fun queued noted => tenancy.opened queued (known rfl noted)
    bound := fun ref socket noted => Nat.lt_of_lt_of_le (tenancy.bound ref socket (known rfl noted)) size
    wired :=
      fun ref home socket accepted written => tenancy.wired ref home socket (known rfl accepted) (known rfl written) }

/-- A handshake that is over has left the pipeline. -/
theorem settled_absent {stage : Stage} (tenancy : s.Tenancy) (settled : s.Settled stage)
    (slot : stage.slot = some ref) :
    ref ∉ s.pipeline.refs := by
  intro member
  rcases settled ref slot with empty | complete
  · rw [refs_eq_nil_iff.mpr empty] at member
    cases member
  · have incomplete : s.sinks.isComplete ref = false := tenancy.kept.stocked.incomplete member
    rw [incomplete] at complete
    cases complete

theorem hop_slot {a : Attempt} {stage : Stage} (tenancy : s.Tenancy) (hops : Hop s a stage)
    (member : ref ∈ s.pipeline.refs) (slot : a.stage.slot = some ref) : stage.slot = some ref := by
  cases hops with
  | resolved here | connected here | wrote here | read here | joined here | passed here | returned here =>
    rw [here] at slot
    exact slot
  | ended ends early => exact ends.slot.symm.trans slot
  | finished unfinished owner settled => exact absurd member (tenancy.settled_absent settled slot)
  | dismissed spent =>
    rw [Attempt.unfinished_of_slot slot] at spent
    cases spent

/-- While a `do_connect` is unfinished the connection is not open. -/
theorem unopened {i : Nat} {a : Attempt} (exclusive : s.life.Exclusive) (found : s.attempts[i]? = some a)
    (unfinished : a.unfinished = true) : s.state ≠ .opened :=
  fun opened => exclusive.free (.inl opened) i a.member ⟨crew_found found, Attempt.busy_of_unfinished unfinished⟩

/-- Everything in the pipeline is the handshake of the one attempt there is. -/
theorem sole {i : Nat} {a : Attempt} (tenancy : s.Tenancy) (exclusive : s.life.Exclusive)
    (found : s.attempts[i]? = some a) (unfinished : a.unfinished = true) (member : ref ∈ s.pipeline.refs) :
    a.stage.slot = some ref := by
  obtain ⟨⟨j, b, there, slot⟩, -⟩ := tenancy.guests (unopened exclusive found unfinished) ref member
  have busy := Attempt.busy_of_unfinished (Attempt.unfinished_of_slot slot)
  have same := exclusive.unique i j a.member b.member ⟨crew_found found, Attempt.busy_of_unfinished unfinished⟩
    ⟨crew_found there, busy⟩
  subst same
  cases found.symm.trans there
  exact slot

/-- A handshake that is complete leaves nothing in the pipeline. -/
theorem vacant {i : Nat} {a : Attempt} {slot : SinkRef} (tenancy : s.Tenancy) (exclusive : s.life.Exclusive)
    (found : s.attempts[i]? = some a) (here : a.stage = .waitingSlot slot) (complete : s.sinks.isComplete slot = true) :
    s.pipeline.refs = [] := by
  apply List.eq_nil_iff_forall_not_mem.mpr
  intro ref member
  have taken := tenancy.sole exclusive found (by simp [Attempt.unfinished, here]) member
  have settled : s.Settled a.stage := by
    rw [here]
    rintro other ⟨⟩
    exact .inr complete
  exact tenancy.settled_absent settled taken member

/-- Octets of a queued request are handed to the socket it was accepted on. -/
theorem writes (tenancy : s.Tenancy) (member : ref ∈ s.pipeline.refs) :
    (s.note (.written ref s.socket)).Tenancy := by
  have known {note : Note} (noted : note ∈ s.notes ++ [.written ref s.socket])
      (other : ∀ ref socket, note ≠ .written ref socket) : note ∈ s.notes := by
    rcases List.mem_append.mp noted with earlier | last
    · exact earlier
    · exact absurd (List.mem_singleton.mp last) (other _ _)
  exact {
    kept := by
      rw [traffic_note rfl]
      exact tenancy.kept
    few := tenancy.few
    guests := fun unopened guest queued => by
      obtain ⟨handshake, unaccepted⟩ := tenancy.guests unopened guest queued
      exact ⟨handshake.congr rfl, fun socket accepted => unaccepted socket (known accepted nofun)⟩
    home := fun guest queued socket accepted => tenancy.home guest queued socket (known accepted nofun)
    opened := fun queued noted => tenancy.opened queued (known noted nofun)
    bound := fun other socket noted => by
      rcases List.mem_append.mp noted with earlier | last
      · exact tenancy.bound other socket earlier
      · cases List.mem_singleton.mp last
        exact tenancy.kept.stocked.bound member
    wired := fun other home socket accepted noted => by
      have accepted := known accepted nofun
      rcases List.mem_append.mp noted with earlier | last
      · exact tenancy.wired other home socket accepted earlier
      · cases List.mem_singleton.mp last
        exact (tenancy.home ref member home accepted).symm }

/-- OPEN is set where the pipeline is empty. -/
theorem opens (tenancy : s.Tenancy) (kept : next.traffic.Kept) (size : s.sinks.cells.length ≤ next.sinks.cells.length)
    (empty : next.pipeline.refs = []) (state : next.state = .opened) {promising : Bool}
    (notes : next.notes = s.notes ++ [.opened 0] ++ [.reset promising]) : next.Tenancy := by
  have known {note : Note} (noted : note ∈ next.notes) :
      note ∈ s.notes ∨ note = .opened 0 ∨ note = .reset promising := by
    simpa [notes] using noted
  exact {
    kept := kept
    few := fun unopened => absurd state unopened
    guests := fun unopened => absurd state unopened
    home := fun ref member => by
      rw [empty] at member
      cases member
    opened := fun queued noted => by
      rcases known noted with earlier | now | other
      · exact tenancy.opened queued earlier
      · cases now
        rfl
      · cases other
    bound := fun ref socket noted => by
      rcases known noted with earlier | now | other
      · exact Nat.lt_of_lt_of_le (tenancy.bound ref socket earlier) size
      · cases now
      · cases other
    wired := fun ref home socket accepted noted => by
      rcases known accepted with accepted | now | other
      · rcases known noted with earlier | now | other
        · exact tenancy.wired ref home socket accepted earlier
        · cases now
        · cases other
      · cases now
      · cases other }

/-- A user request is queued while the connection is open. -/
theorem accepts {req : Request} {deadline : TimePoint} {pipeline : Pipeline} (tenancy : s.Tenancy)
    (kept : next.traffic.Kept) (size : s.sinks.cells.length ≤ next.sinks.cells.length) (state : next.state = .opened)
    (socket : next.socket = s.socket) (queued : next.pipeline = pipeline)
    (pushed : s.pipeline.push req s.sinks.cells.length deadline = some pipeline)
    (notes : next.notes = s.notes ++ [.accepted s.sinks.cells.length s.socket]) : next.Tenancy := by
  have known {note : Note} (noted : note ∈ next.notes) :
      note ∈ s.notes ∨ note = .accepted s.sinks.cells.length s.socket := by
    simpa [notes] using noted
  exact {
    kept := kept
    few := fun unopened => absurd state unopened
    guests := fun unopened => absurd state unopened
    home := fun ref member home accepted => by
      rw [socket]
      rcases known accepted with accepted | now
      · rw [queued] at member
        rcases List.mem_cons.mp ((refs_push pushed).mem_iff.mp member) with rfl | member
        · exact absurd (tenancy.kept.bound _ (accepted_mem accepted)) (Nat.lt_irrefl _)
        · exact tenancy.home ref member home accepted
      · cases now
        rfl
    opened := fun queued noted => tenancy.opened queued ((known noted).resolve_right nofun)
    bound := fun ref socket noted =>
      Nat.lt_of_lt_of_le (tenancy.bound ref socket ((known noted).resolve_right nofun)) size
    wired := fun ref home socket accepted noted => by
      have noted := (known noted).resolve_right nofun
      rcases known accepted with accepted | now
      · exact tenancy.wired ref home socket accepted noted
      · cases now
        exact absurd (tenancy.bound _ socket noted) (Nat.lt_irrefl _) }

/-- The handshake of the one attempt is queued, alone. -/
theorem guest {req : Request} {deadline : TimePoint} {pipeline : Pipeline} (tenancy : s.Tenancy)
    (kept : next.traffic.Kept) (size : s.sinks.cells.length ≤ next.sinks.cells.length) (empty : s.pipeline.refs = [])
    (queued : next.pipeline = pipeline) (pushed : s.pipeline.push req s.sinks.cells.length deadline = some pipeline)
    (handshake : next.Handshake s.sinks.cells.length) (notes : next.notes = s.notes) : next.Tenancy := by
  have same : next.pipeline.refs.Perm [s.sinks.cells.length] := by
    rw [queued, ← empty]
    exact refs_push pushed
  have unaccepted (socket : Nat) : .accepted s.sinks.cells.length socket ∉ s.notes :=
    fun accepted => absurd (tenancy.kept.bound _ (accepted_mem accepted)) (Nat.lt_irrefl _)
  have alone {ref : SinkRef} (member : ref ∈ next.pipeline.refs) : ref = s.sinks.cells.length :=
    List.mem_singleton.mp (same.mem_iff.mp member)
  exact {
    kept := kept
    few := fun _ => by
      rw [← length_refs, same.length_eq]
      exact Nat.le_refl 1
    guests := fun _ ref member => by
      rw [alone member, notes]
      exact ⟨handshake, unaccepted⟩
    home := fun ref member home accepted => by
      rw [alone member, notes] at accepted
      exact absurd accepted (unaccepted home)
    opened := fun queued noted => tenancy.opened queued (notes ▸ noted)
    bound := fun ref socket noted => Nat.lt_of_lt_of_le (tenancy.bound ref socket (notes ▸ noted)) size
    wired := fun ref home socket accepted noted =>
      tenancy.wired ref home socket (notes ▸ accepted) (notes ▸ noted) }

variable [FloatChars] [Inhabited ρ] {fuel : Nat}

omit [FloatChars] [Inhabited ρ] in
theorem nextWrite_mem [FloatChars] {call : WriteCall} (issued : s.nextWrite = some call) :
    call.sink ∈ s.pipeline.refs := by
  obtain ⟨front, first, rfl⟩ := Option.map_eq_some_iff.mp issued
  exact List.mem_append_left _ (List.mem_map_of_mem (List.mem_of_mem_head? first))

theorem step (tenancy : s.Tenancy) (exclusive : s.life.Exclusive) (move : Move fuel s next) : next.Tenancy := by
  have kept : next.traffic.Kept := move.traffic.invariant (fun _ _ kept move => kept.step move) tenancy.kept
  have size : s.sinks.cells.length ≤ next.sinks.cells.length := move.traffic.grows
  have told {n : Note} (silent : n.silent = true) (note : Note) (noted : note ∈ s.notes ++ [n]) :
      note ∈ s.notes ∨ note.silent = true := by
    rcases List.mem_append.mp noted with earlier | last
    · exact .inl earlier
    · exact .inr (List.mem_singleton.mp last ▸ silent)
  -- nothing but the pipeline changes, and nobody comes in
  have still (state : s.state = .opened → next.state = .opened ∨ next.pipeline.refs = [])
      (socket : next.socket = s.socket) (notes : next.notes = s.notes)
      (refs : next.pipeline.refs.Subperm s.pipeline.refs) (attempts : next.attempts = s.attempts) : next.Tenancy :=
    tenancy.carries kept size state (.inl socket) (fun note noted => .inl (notes ▸ noted)) refs
      fun ref member handshake => handshake.congr attempts
  have emptied {racing : Bool} (facts : next.pipeline.refs = [] ∧ next.notes = s.notes ++ [.cleared racing] ∧
      next.socket = s.socket) : next.Tenancy := by
    obtain ⟨empty, notes, socket⟩ := facts
    refine tenancy.carries kept size (fun _ => .inr empty) (.inl socket) (by rw [notes]; exact told rfl) ?_ ?_
    · rw [empty]
      exact List.nil_subperm
    · rw [empty]
      exact List.forall_mem_nil _
  cases move with
  | quiet | closeIdle | actorGone | actorStart | writerExit | writerWait | writerComplete | writerDrop | readerExit
  | readerWait | readerIssue | readerComplete | readerDrop | controlExit | controlWait | controlBackoff | alloc =>
    exact still .inl rfl rfl (.refl _) rfl
  | fail opened clears =>
    have facts := clearAll_closeSocket clears
    exact emptied facts
  | @close cleared unclosed clears =>
    have facts := clearAll_closeSocket clears
    have waits : cleared.closeSocket.wakeLoops.awaitActor.pipeline = cleared.closeSocket.pipeline ∧
        cleared.closeSocket.wakeLoops.awaitActor.notes = cleared.closeSocket.notes ∧
        cleared.closeSocket.wakeLoops.awaitActor.socket = cleared.closeSocket.socket := by
      unfold awaitActor
      split <;> exact ⟨rfl, rfl, rfl⟩
    rw [← waits.1, ← waits.2.1, ← waits.2.2] at facts
    exact emptied facts
  | closeResume resumed =>
    unfold System.closeResume at resumed
    split at resumed
    · cases resumed
      exact still .inl rfl rfl (.refl _) rfl
    · cases resumed
  | reopen closed =>
    refine tenancy.carries kept size (fun opened => ?_) (.inl rfl) (fun note noted => .inl noted) (.refl _)
      fun ref member handshake => handshake.joins rfl
    rw [closed] at opened
    cases opened
  | begin unopened idle unclosed unstopped =>
    exact tenancy.carries kept size (fun opened => absurd opened unopened) (.inl rfl) (fun note noted => .inl noted)
      (.refl _)
      fun ref member handshake => handshake.joins rfl
  | report found here =>
    refine tenancy.carries kept size .inl (.inl rfl) (fun note noted => .inl noted)
      (.refl _) fun ref member handshake => ?_
    apply handshake.setAttempt found
    rw [here]
    intro slot
    cases slot
  | hop found hops =>
    refine tenancy.carries kept size .inl (.inl rfl) (fun note noted => .inl noted)
      (.refl _) fun ref member handshake => ?_
    exact handshake.setAttempt found (tenancy.hop_slot hops member)
  | actorEnd runs writer reader control closes =>
    have facts := transitionToClosed_empties closes
    exact emptied facts
  | actorCloses ended unclosed closes =>
    have facts := transitionToClosed_empties closes
    exact emptied facts
  | enqueue enqueued =>
    cases enqueue_cases enqueued with
    | rejected refused same failed => exact still .inl rfl rfl (.refl _) rfl
    | queued opened pushed => exact tenancy.accepts kept size opened rfl rfl pushed rfl
  | writerIssue runs opened rests issued =>
    have written := tenancy.writes (nextWrite_mem issued)
    exact written.carries kept size .inl (.inl rfl) (fun note noted => .inl noted) (.refl _)
      fun ref member handshake => handshake.congr rfl
  | writerDone runs busy done applied => exact still .inl rfl rfl (refs_onWriteDone applied).subperm rfl
  | readerChunk runs busy arrived nonempty parsed =>
    exact tenancy.carries kept size .inl (.inl rfl) (told rfl) (consume_answered parsed).refs_subperm
      fun ref member handshake => handshake.congr rfl
  | controlDisable runs failed idle => exact still (fun opened => by simp [failed] at opened) rfl rfl (.refl _) rfl
  | @controlReconnect token runs unstopped ready =>
    have failed : s.state = .failed := by
      rcases ready with ⟨idle, failed⟩ | ⟨deadline, backoff, unclosing⟩
      · exact failed
      · exact (exclusive.backoff (by simp [System.life, backoff, Control.duty])).resolve_right unclosing
    refine tenancy.carries kept size (fun opened => by simp [failed] at opened) (.inl rfl) (told rfl) (.refl _)
      fun ref member handshake => ?_
    have joined : ({ s.setState .reconnecting with
        attempts := s.attempts ++ [{ owner := .control, token := token }]
        control := .connecting } : System ρ).resetParser.Handshake ref := handshake.joins rfl
    exact joined.setAttempt (a := { owner := .control, token := token }) (by simp [resetParser, note])
      (by simp [Stage.slot])
  | @resolve i a found here =>
    refine tenancy.carries kept size .inl (.inl rfl) (told rfl) (.refl _) fun ref member handshake => ?_
    have before : (s.resetParser).Handshake ref := handshake.congr rfl
    apply before.setAttempt found
    rw [here]
    intro slot
    cases slot
  | @connectNext i a left found unfinished before =>
    have elsewhere := unopened exclusive found unfinished
    have same := traffic_closeSocket s
    refine tenancy.carries kept size (fun opened => absurd opened elsewhere) (.inr elsewhere)
      (fun note noted => .inl (notes_closeSocket s ▸ noted)) ?_ fun ref member handshake => ?_
    · rw [show (s.connectNext i left).pipeline = s.pipeline from congrArg Traffic.pipeline same]
    · have dialled : ({ s.closeSocket with socketOpen := true, socket := s.closeSocket.socket + 1 } :
          System ρ).Handshake ref := handshake.closeSocket.congr rfl
      rcases attempts_closeSocket found with same | aborted
      · exact dialled.setAttempt same (by simp [before])
      · exact dialled.setAttempt aborted (by simp [a.slot_abort, before])
  | closeSocket found unfinished before =>
    refine tenancy.carries kept size (fun opened => absurd opened (unopened exclusive found unfinished))
      (.inl (socket_closeSocket s)) (fun note noted => .inl (notes_closeSocket s ▸ noted)) ?_
      fun ref member handshake => handshake.closeSocket
    rw [show s.closeSocket.pipeline = s.pipeline from congrArg Traffic.pipeline (traffic_closeSocket s)]
  | @push i a req pipeline found unfinished before pushed =>
    have empty : s.pipeline.refs = [] := by
      apply List.eq_nil_iff_forall_not_mem.mpr
      intro ref member
      have slot := tenancy.sole exclusive found unfinished member
      rw [before] at slot
      cases slot
    refine tenancy.guest kept size empty rfl pushed ⟨i, { a with stage := .handshaking s.sinks.cells.length }, ?_, rfl⟩
      rfl
    simp [setStage, setAttempt, queue, found, Sinks.alloc]
  | issueWrite found here issued =>
    have written := tenancy.writes (nextWrite_mem issued)
    refine written.carries kept size .inl (.inl rfl) (fun note noted => .inl noted) (.refl _)
      fun ref member handshake => ?_
    exact handshake.setAttempt found (by rw [here]; exact id)
  | @wrote i a slot call n pipeline found here done applied =>
    refine tenancy.carries kept size .inl (.inl rfl) (fun note noted => .inl noted) (refs_onWriteDone applied).subperm
      fun ref member handshake => ?_
    have before : ({ s with pipeline := pipeline } : System ρ).Handshake ref := handshake.congr rfl
    exact before.setAttempt found (by rw [here]; exact id)
  | issueRead found here =>
    refine tenancy.carries kept size .inl (.inl rfl) (fun note noted => .inl noted) (.refl _)
      fun ref member handshake => ?_
    have before : ({ s with parser := s.nextRead.1 } : System ρ).Handshake ref := handshake.congr rfl
    exact before.setAttempt found (by rw [here]; exact id)
  | @read i a slot call memory octets outcome x found here arrived parsed =>
    refine tenancy.carries kept size .inl (.inl rfl) (told rfl) (consume_answered parsed).refs_subperm
      fun ref member handshake => ?_
    have before : ((s.note (.parsed (s.staleFor a))).consumed x).Handshake ref := handshake.congr rfl
    exact before.setAttempt found (by rw [here]; exact id)
  | clear found ends clears =>
    obtain ⟨pipeline, sinks, result, rfl⟩ := clearAll_eq clears
    exact emptied ⟨(clearAll_cleared result).empty, rfl, rfl⟩
  | @timeout i a found =>
    refine tenancy.carries kept size .inl (.inl rfl) (fun note noted => .inl noted) (.refl _)
      fun ref member handshake => ?_
    exact handshake.setAttempt found (by rw [a.slot_abort]; exact id)
  | @reconnectFailed i a token found unfinished owner settled runs =>
    refine tenancy.carries kept size (fun opened => absurd opened (unopened exclusive found unfinished)) (.inl rfl)
      (fun note noted => .inl noted) (.refl _) fun ref member handshake => ?_
    have gone : (s.setStage i .gone).Handshake ref :=
      handshake.setAttempt found fun slot => absurd member (tenancy.settled_absent settled slot)
    exact gone.congr rfl
  | opens found here complete owner =>
    have empty := tenancy.vacant exclusive found here complete
    exact tenancy.opens kept size empty rfl (by rw [← refs_eq_nil_iff.mp empty]; rfl)
  | opensAgain found here complete owner runs =>
    have empty := tenancy.vacant exclusive found here complete
    exact tenancy.opens kept size empty rfl (by rw [← refs_eq_nil_iff.mp empty]; rfl)

end Tenancy

theorem start_tenancy (cfg : Config) : (start cfg : System ρ).Tenancy where
  kept := ⟨.empty rfl _, nofun, nofun⟩
  few := fun _ => Nat.zero_le _
  guests := fun _ => nofun
  home := nofun
  opened := nofun
  bound := nofun
  wired := nofun

variable [FloatChars] [Inhabited ρ] {fuel : Nat} {cfg : Config}

theorem Reached.tenancy (reached : Reached fuel cfg s) (solo : ∀ entry ∈ s.log, entry.solo = true) : s.Tenancy := by
  let invariant (s : System ρ) : Prop := (s.life.Sound ∧ s.life.Exclusive) ∧ s.Tenancy
  have kept (s next : System ρ) (holds : invariant s) (move : Move fuel s next)
      (solo : ∀ entry ∈ next.log, entry.solo = true) (_ : ∀ note ∈ next.notes, True) : invariant next :=
    ⟨move.exclusive holds.1 solo, holds.2.step holds.1.2 move⟩
  have start : invariant (System.start cfg) := ⟨⟨.start cfg, .start cfg⟩, start_tenancy cfg⟩
  exact (reached.moves.invariant kept start ⟨solo, fun _ _ => trivial⟩).2

/-- No request survives its connection. -/
theorem requests_stay (reached : Reached fuel cfg s) (solo : ∀ entry ∈ s.log, entry.solo = true) :
    (s.state ≠ .opened → s.pipeline.pendingCount ≤ 1 ∧ (∀ ref ∈ s.pipeline.refs, s.Handshake ref) ∧
      ∀ ref socket, .accepted ref socket ∈ s.notes → ref ∉ s.pipeline.refs ∧ s.sinks.isComplete ref = true) ∧
    (∀ queued, .opened queued ∈ s.notes → queued = 0) ∧
    ∀ ref home socket, .accepted ref home ∈ s.notes → .written ref socket ∈ s.notes → socket = home := by
  have tenancy := reached.tenancy solo
  refine ⟨fun unopened => ⟨tenancy.few unopened, ?_, ?_⟩, tenancy.opened, tenancy.wired⟩
  · exact fun ref member => (tenancy.guests unopened ref member).1
  · intro ref socket accepted
    have absent : ref ∉ s.pipeline.refs := fun member => (tenancy.guests unopened ref member).2 socket accepted
    exact ⟨absent, (tenancy.kept.served ref (accepted_mem accepted)).resolve_left absent⟩

omit [FloatChars] [Inhabited ρ] in
/-- A request is written, the connection is lost and another one opened. -/
theorem requests_stay_reconnected : letI := FloatChars.none
    ∃ s : System Unit, (Reached 8 {} s ∧ s.state = .reconnecting ∧ .accepted 1 1 ∈ s.notes ∧ .written 1 1 ∈ s.notes ∧
      .written 2 2 ∈ s.notes ∧ ∀ entry ∈ s.log, entry.solo = true) ∧
      (s.pipeline.pendingCount ≤ 1 ∧ s.sinks.isComplete 1 = true) ∧
        ∀ queued, .opened queued ∈ s.notes → queued = 0 := by
  let := FloatChars.none
  have run : ∃ s : System Unit, Reached 8 {} s ∧ s.state = .reconnecting ∧ .accepted 1 1 ∈ s.notes ∧
      .written 1 1 ∈ s.notes ∧ .written 2 2 ∈ s.notes ∧ ∀ entry ∈ s.log, entry.solo = true :=
    Reached.of_run 8 {}
      (opening ++ [.controlRun .wakeup 0, .writerRun .wakeup, .readerRun .wakeup,
        .enqueue (Request.ofCommands [.variadic (text "PING") []]) fun _ _ => .ok (), .writerRun .wakeup,
        .readerComplete (.error (.other [])), .readerResume, .controlRun .wakeup 0] ++ (dial 1).take 4)
      (by decide +kernel)
  obtain ⟨s, reached, state, accepted, written, again, solo⟩ := run
  obtain ⟨unopened, opened, -⟩ := requests_stay reached solo
  obtain ⟨few, -, served⟩ := unopened (by simp [state])
  exact ⟨s, ⟨reached, state, accepted, written, again, solo⟩, ⟨few, (served 1 1 accepted).2⟩, opened⟩

end System

end Rediscoro.Connection

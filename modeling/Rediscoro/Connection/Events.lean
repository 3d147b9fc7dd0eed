import Rediscoro.Connection.Exclusive
import Rediscoro.Semantics.History

/-! The events that a hook sees.

Generations count the connected events. Where `connect()` begins an attempt only
while no other is unfinished, two connected events are kept apart by an event
that says how the first connection ended, and a connection is lost at most once.
-/

set_option autoImplicit false

namespace Rediscoro.Connection

open Rediscoro.Semantics Rediscoro.Resp3

def events (log : List Entry) : List ConnectionEvent :=
  log.filterMap fun
    | .event event => some event
    | _ => none

namespace ConnectionEvent

abbrev Connects (event : ConnectionEvent) : Prop := event.kind = .connected

/-- The connection was lost at run time. -/
abbrev Loses (event : ConnectionEvent) : Prop := event.kind = .disconnected ∧ event.stage = .runtimeIo

end ConnectionEvent

/-- How many connections have been announced. -/
def connections (events : List ConnectionEvent) : Nat := events.countP (·.Connects)

def losses (events : List ConnectionEvent) : Nat := events.countP (·.Loses)

/-- What is said of an event, given the events before it. -/
structure Legal (before : List ConnectionEvent) (event : ConnectionEvent) : Prop where
  generation : event.generation = connections (before ++ [event])
  parted : event.Connects → ∀ between, Since ConnectionEvent.Connects before between → between ≠ [] ∧ losses between ≤ 1

namespace Life

structure Logged (l : Life) : Prop where
  generation : l.generation = connections (events l.log)
  chronicle : Chronicle Legal (events l.log)
  /-- As long as nothing has happened since the last connected event, nobody could announce another. -/
  quiet : Since ConnectionEvent.Connects (events l.log) [] →
    (∀ i m, ¬l.Busy i m) ∧ l.duty ≠ .backoff ∧ l.duty ≠ .connecting ∧ (l.state = .opened ∨ l.state = .closing)
  lost : ∀ between, Since ConnectionEvent.Connects (events l.log) between →
    losses between ≤ 1 ∧ (l.state = .opened → losses between = 0)

namespace Logged

variable {l next : Life}

/-- No event is emitted, and OPEN is not set. -/
theorem silent (logged : Logged l) (generation : next.generation = l.generation) (same : events next.log = events l.log)
    (quiet : Since ConnectionEvent.Connects (events l.log) [] →
      (∀ i m, ¬next.Busy i m) ∧ next.duty ≠ .backoff ∧ next.duty ≠ .connecting ∧
        (next.state = .opened ∨ next.state = .closing))
    (state : next.state = .opened → l.state = .opened) : Logged next := by
  refine ⟨?_, ?_, ?_, fun between since => ?_⟩
  · rw [generation, same, logged.generation]
  · rw [same]
    exact logged.chronicle
  · rw [same]
    exact quiet
  · rw [same] at since
    obtain ⟨few, none⟩ := logged.lost between since
    exact ⟨few, fun opened => none (state opened)⟩

/-- An event is emitted that is not a connected one. -/
theorem emits {event : ConnectionEvent} (logged : Logged l) (generation : next.generation = l.generation)
    (same : events next.log = events l.log ++ [event]) (other : ¬event.Connects)
    (current : event.generation = l.generation)
    (state : next.state = .opened → l.state = .opened ∧ ¬event.Loses) (loses : event.Loses → l.state = .opened) :
    Logged next := by
  have unchanged : connections (events l.log ++ [event]) = connections (events l.log) := by
    simp [connections, other]
  refine ⟨?_, ?_, ?_, fun between since => ?_⟩
  · rw [generation, same, unchanged, logged.generation]
  · rw [same, chronicle_concat]
    refine ⟨logged.chronicle, ?_, fun connects => absurd connects other⟩
    rw [unchanged, current, logged.generation]
  · rw [same, since_concat other]
    rintro ⟨shorter, split, -⟩
    simp at split
  · rw [same, since_concat other] at since
    obtain ⟨shorter, rfl, since⟩ := since
    obtain ⟨few, none⟩ := logged.lost shorter since
    have count : losses (shorter ++ [event]) = losses shorter + if event.Loses then 1 else 0 := by
      simp [losses, List.countP_singleton]
    rw [count]
    by_cases lost : event.Loses
    · rw [if_pos lost, none (loses lost)]
      exact ⟨Nat.le_refl 1, fun opened => absurd lost (state opened).2⟩
    · rw [if_neg lost]
      exact ⟨few, fun opened => none (state opened).1⟩

/-- A connected event is emitted, by an attempt that was the only one. -/
theorem connects {event : ConnectionEvent} {i : Nat} {m : Member} (logged : Logged l) (busy : l.Busy i m)
    (generation : next.generation = l.generation + 1) (same : events next.log = events l.log ++ [event])
    (kind : event.Connects) (current : event.generation = l.generation + 1) (free : ∀ i m, ¬next.Busy i m)
    (duty : next.duty ≠ .backoff ∧ next.duty ≠ .connecting) (opened : next.state = .opened) : Logged next := by
  have counted : connections (events l.log ++ [event]) = connections (events l.log) + 1 := by
    simp [connections, kind]
  refine ⟨?_, ?_, fun _ => ⟨free, duty.1, duty.2, .inl opened⟩, fun between since => ?_⟩
  · rw [generation, same, counted, logged.generation]
  · rw [same, chronicle_concat]
    refine ⟨logged.chronicle, by rw [counted, current, logged.generation], fun _ between since => ⟨?_, ?_⟩⟩
    · rintro rfl
      exact (logged.quiet since).1 i m busy
    · exact (logged.lost between since).1
  · rw [same, since_concat_mark kind] at since
    subst since
    exact ⟨by simp [losses], by simp [losses]⟩

/-- Something has happened since the last connected event. -/
theorem eventful (logged : Logged l) (noted : (∃ i m, l.Busy i m) ∨ (l.state ≠ .opened ∧ l.state ≠ .closing)) :
    ¬Since ConnectionEvent.Connects (events l.log) [] := by
  intro since
  obtain ⟨free, -, -, state⟩ := logged.quiet since
  rcases noted with ⟨i, m, busy⟩ | ⟨unopened, unclosing⟩
  · exact free i m busy
  · exact state.elim unopened unclosing

theorem step (sound : Sound l) (exclusive : Exclusive l) (logged : Logged l) (move : Move l next) : Logged next := by
  cases move with
  | fail event opened kind stage generation =>
    exact logged.emits rfl (by simp [events]) (by simp [kind]) generation (by simp) (fun _ => opened)
  | closeIdle closed | closeResume waits woken => exact logged.silent rfl (by simp [events]) logged.quiet id
  | close flag unclosed hear =>
    unfold awaitActor
    split
    all_goals
      refine logged.silent rfl (by simp [events]) (fun since => ?_) (by simp)
      obtain ⟨free, backoff, connecting, -⟩ := logged.quiet since
      exact ⟨free, backoff, connecting, .inr rfl⟩
  | reopen idle closed free =>
    -- a CLOSED connection has emitted something behind its last connected event
    have past := logged.eventful (.inr (by simp [closed]))
    exact logged.silent (by simp) (by simp [events]) (fun since => absurd since past) (by simp)
  | begin idle unopened unbegun unclosed unstopped free =>
    have past := logged.eventful (.inr ⟨unopened, fun closing => unstopped (sound.closing closing)⟩)
    exact logged.silent (by simp) (by simp [events]) (fun since => absurd since past) (by simp)
  | report event kind stage generation =>
    exact logged.emits rfl (by simp [events]) (by simp [kind]) generation (fun opened => ⟨opened, by simp [stage]⟩)
      (by simp [stage])
  | actorStart spawned =>
    refine logged.silent rfl rfl (fun since => ?_) id
    obtain ⟨free, -, -, state⟩ := logged.quiet since
    exact ⟨free, by simp, by simp, state⟩
  | actorEnd event runs writer reader control kind generation =>
    exact logged.emits rfl (by simp [events]) (by simp [kind]) generation (by simp) (by simp [kind])
  | actorGone ended closed | writerExit runs ends | readerExit runs ends => exact logged.silent rfl rfl logged.quiet id
  | actorCloses event ended unclosed kind generation =>
    exact logged.emits rfl (by simp [events]) (by simp [kind]) generation (by simp) (by simp [kind])
  | controlExit runs ends outside =>
    refine logged.silent rfl rfl (fun since => ?_) id
    obtain ⟨free, -, -, state⟩ := logged.quiet since
    exact ⟨free, by simp, by simp, state⟩
  | controlBackoff runs failed idle =>
    have past := logged.eventful (.inr (by simp [failed]))
    exact logged.silent rfl rfl (fun since => absurd since past) id
  | controlDisable flag runs failed idle hear =>
    have past := logged.eventful (.inr (by simp [failed]))
    exact logged.silent rfl (by simp [events]) (fun since => absurd since past) (by simp)
  | controlReconnect runs unstopped ready =>
    have past := logged.eventful (.inr (by simp [exclusive.failed ready]))
    exact logged.silent rfl (by simp [events]) (fun since => absurd since past) (by simp)
  | @advance i m found early unstopped =>
    have past := logged.eventful (.inl ⟨i, m, found, by simp [Member.busy, early]⟩)
    exact logged.silent rfl rfl (fun since => absurd since past) id
  | @finish i m found busy owner =>
    have past := logged.eventful (.inl ⟨i, m, found, busy⟩)
    exact logged.silent rfl rfl (fun since => absurd since past) id
  | @reconnectFailed i m token found busy owner runs =>
    have past := logged.eventful (.inl ⟨i, m, found, busy⟩)
    exact logged.silent rfl (by simp [events]) (fun since => absurd since past) (by simp)
  | @opens i m event found late owner kind generation =>
    -- the attempt was the only one, so nobody is left when it is done
    have busy : l.Busy i m := ⟨found, by simp [Member.busy, late]⟩
    have engaged := exclusive.engaged i m busy
    rw [Engaged, owner] at engaged
    exact logged.connects busy rfl (by simp [events]) kind generation (exclusive.done found busy.2 rfl) engaged.2 rfl
  | @opensAgain i m token event found late owner runs kind generation =>
    have busy : l.Busy i m := ⟨found, by simp [Member.busy, late]⟩
    exact logged.connects busy rfl (by simp [events]) kind generation (exclusive.done found busy.2 rfl) (by simp) rfl

end Logged

end Life

/-- What a hook can rely on. -/
structure WellFormed (events : List ConnectionEvent) : Prop where
  /-- The generation of an event is the number of connected events up to it. -/
  numbered :
    ∀ before event after, events = before ++ event :: after → event.generation = connections (before ++ [event])
  /-- The first connected event carries generation one, and so on. -/
  counted : ∀ k event, (events.filter (·.Connects))[k]? = some event → event.generation = k + 1
  /-- Between two consecutive connected events the first connection ends, and it is lost at most once. -/
  parted : ∀ before first between second after, events = before ++ first :: between ++ second :: after →
    first.Connects → second.Connects → (∀ event ∈ between, ¬event.Connects) →
    (∃ event ∈ between, event.kind = .disconnected ∨ event.kind = .closed) ∧ losses between ≤ 1

theorem counted_of_chronicle {events : List ConnectionEvent} (chronicle : Chronicle Legal events) (k : Nat)
    (event : ConnectionEvent) (found : (events.filter (·.Connects))[k]? = some event) : event.generation = k + 1 := by
  induction events using List.reverseRecOn with
  | nil => simp at found
  | append_singleton earlier last ih =>
    obtain ⟨chronicle, legal⟩ := chronicle_concat.mp chronicle
    by_cases connects : last.Connects
    · have grown : (earlier ++ [last]).filter (·.Connects) = earlier.filter (·.Connects) ++ [last] := by
        simpa using connects
      have size : (earlier.filter (·.Connects)).length = connections earlier := List.countP_eq_length_filter.symm
      rw [grown, List.getElem?_append] at found
      split at found
      · exact ih chronicle found
      · obtain ⟨bound, same⟩ := List.getElem?_eq_some_iff.mp found
        have here : k = connections earlier := by
          rw [List.length_singleton] at bound
          omega
        rw [← same, List.getElem_singleton, legal.generation, here]
        simp [connections, connects]
    · have kept : (earlier ++ [last]).filter (·.Connects) = earlier.filter (·.Connects) := by simp [connects]
      rw [kept] at found
      exact ih chronicle found

theorem wellFormed_of_chronicle {events : List ConnectionEvent} (chronicle : Chronicle Legal events) :
    WellFormed events := by
  refine ⟨fun before event after split => (chronicle before event after split).generation,
    counted_of_chronicle chronicle, fun before first between second after split left right apart => ?_⟩
  have since : Since ConnectionEvent.Connects (before ++ first :: between) between := ⟨before, first, rfl, left, apart⟩
  obtain ⟨some, few⟩ := (chronicle _ second after split).parted right between since
  obtain ⟨event, member⟩ := List.exists_mem_of_ne_nil between some
  refine ⟨⟨event, member, ?_⟩, few⟩
  have other := apart event member
  cases kind : event.kind with
  | connected => exact absurd kind other
  | disconnected => exact .inl rfl
  | closed => exact .inr rfl

namespace System

variable {ρ : Type} [FloatChars] [Inhabited ρ] {fuel : Nat} {cfg : Config} {s : System ρ}

theorem Reached.logged (reached : Reached fuel cfg s) (solo : ∀ entry ∈ s.log, entry.solo = true) : s.life.Logged := by
  have kept (l next : Life) (holds : l.Sound ∧ l.Exclusive ∧ l.Logged) (move : Life.Move l next)
      (fine : ∀ entry ∈ next.log, entry.solo = true) : next.Sound ∧ next.Exclusive ∧ next.Logged := by
    obtain ⟨sound, exclusive, logged⟩ := holds
    exact ⟨sound.step move, exclusive.step sound move fine, logged.step sound exclusive move⟩
  have start : (System.start (ρ := ρ) cfg).life.Sound ∧ (System.start (ρ := ρ) cfg).life.Exclusive ∧
      (System.start (ρ := ρ) cfg).life.Logged :=
    ⟨.start cfg, .start cfg, rfl, chronicle_nil _, fun since => absurd since since_nil,
      fun _ since => absurd since since_nil⟩
  exact (reached.life.invariant kept start solo).2.2

/-- The events of a run are well formed, where `connect()` begins an attempt only while no other
attempt and no `do_reconnect` is unfinished. -/
theorem events_wellFormed (reached : Reached fuel cfg s) (solo : ∀ entry ∈ s.log, entry.solo = true) :
    WellFormed (events s.log) :=
  wellFormed_of_chronicle (reached.logged solo).chronicle

omit [FloatChars] [Inhabited ρ] in
/-- A connection that was lost and has been reconnected. -/
theorem events_wellFormed_reconnected : letI := FloatChars.none
    ∃ s : System Unit, (Reached 8 {} s ∧ connections (events s.log) = 2 ∧ ∀ entry ∈ s.log, entry.solo = true) ∧
      WellFormed (events s.log) := by
  let := FloatChars.none
  have run : ∃ s : System Unit, Reached 8 {} s ∧ connections (events s.log) = 2 ∧ ∀ entry ∈ s.log, entry.solo = true :=
    Reached.of_run 8 {} (opening ++ losing ++ [.controlRun .wakeup 0] ++ dial 1) (by decide +kernel)
  obtain ⟨s, reached, twice, solo⟩ := run
  exact ⟨s, ⟨reached, twice, solo⟩, events_wellFormed reached solo⟩

end System

end Rediscoro.Connection

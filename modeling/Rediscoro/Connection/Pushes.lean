import Rediscoro.Connection.Line
import Rediscoro.Connection.Sound
import Rediscoro.Resp3.Rendering

/-! Replies and pushes of an open connection.

The server sends one value for each command and may send push values between them. Nothing in
`do_read` looks at the kind of a value: it goes to the request in front if there is one, and
fails the connection if there is none. So the replies reach their requests as long as every push
comes to its end when the commands that are reported to be written are all answered.
-/

set_option autoImplicit false

namespace Rediscoro.Connection

open Rediscoro.Semantics Rediscoro.Resp3 Rediscoro.Pipeline

variable {σ : Type}

namespace Line

/-- The values of the stream that answer commands. -/
def replies (values : List Sentence) : List Sentence := values.filter fun value => !value.meaning.isPush

/-- A push that comes to its end in a read finds the commands that are confirmed answered by the values in front of
it. -/
def Apart (values : List Sentence) (line : Line σ) : Event σ → Prop
  | .read octets _ =>
      ∀ k < values.length, (values[k]?).map (fun value => value.meaning.isPush) = some true →
        ¬Sentence.encodeAll (values.take (k + 1)) <+: line.heard →
        Sentence.encodeAll (values.take (k + 1)) <+: line.heard ++ octets →
        confirmed line.pipeline line.tickets ≤ (replies (values.take k)).length
  | _ => True

instance (values : List Sentence) (line : Line σ) (event : Event σ) : Decidable (line.Apart values event) :=
  match event with
  | .enqueue .. | .wrote _ => inferInstanceAs (Decidable True)
  | .read .. => inferInstanceAs (Decidable (∀ k < values.length, _))

section Model

variable [ResponseSink σ Message ErrorInfo] [FloatChars]

/-- Nothing happens to a line that is down, and what happens is possible, fails no assertion, and keeps the pushes
apart from the replies. -/
structure Tame (values : List Sentence) (line : Line σ) (event : Event σ) : Prop where
  up : line.down = false
  legal : line.Legal event
  sound : line.Sound event
  apart : line.Apart values event

instance (values : List Sentence) (line : Line σ) (event : Event σ) : Decidable (line.Tame values event) :=
  decidable_of_iff (line.down = false ∧ line.Legal event ∧ line.Sound event ∧ line.Apart values event)
    ⟨fun met => ⟨met.1, met.2.1, met.2.2.1, met.2.2.2⟩, fun tame => ⟨tame.up, tame.legal, tame.sound, tame.apart⟩⟩

/-! What has been delivered. -/

/-- The first `n` values have been delivered, each to the owner of its command, and none of them is a push. When
the connection fails for a protocol error, that error follows. -/
structure Served (still : Prop) (fuel : Nat) (values : List Sentence) (n : Nat) (line : Line σ) : Prop where
  ordered : Ordered line.pipeline line.sinks line.tickets
  within : n ≤ values.length
  solicited : ∀ value ∈ values.take n, value.meaning.isPush = false
  delivered : ∃ shown tail, line.sinks.log.map (·.2) = shown.map Delivery.message ++ tail ∧
    List.Forall₂ (Message.Renders still) shown ((values.take n).map (Sentence.message fuel)) ∧
      (tail = [] ∨ line.down = true ∧ ∃ errc, tail = [.error { code := .protocol errc }])

/-- A line that is up, after it has read the octets. -/
structure Running (still : Prop) (fuel : Nat) (first : Parser Bytes Text) (values : List Sentence) (n : Nat)
    (line : Line σ) : Prop extends Served still fuel values n line where
  up : line.down = false
  held : ∃ kept, Parser.Follows still first line.heard ((values.take n).map Sentence.root) kept line.parser

section Streams

variable {still : Prop} {fuel : Nat} {first : Parser Bytes Text} {values : List Sentence} {line : Line σ} {n : Nat}

omit [FloatChars] in
theorem length_shown {shown : List Message} (within : n ≤ values.length)
    (renders : List.Forall₂ (Message.Renders still) shown ((values.take n).map (Sentence.message fuel))) :
    shown.length = n := by
  rw [renders.length_eq, List.length_map, List.length_take, Nat.min_eq_left within]

theorem Running.log (running : line.Running still fuel first values n) :
    ∃ shown, line.sinks.log.map (·.2) = shown.map Delivery.message ∧
      List.Forall₂ (Message.Renders still) shown ((values.take n).map (Sentence.message fuel)) := by
  obtain ⟨shown, tail, delivered, renders, ended⟩ := running.delivered
  rcases ended with rfl | ⟨down, -⟩
  · exact ⟨shown, by rw [delivered, List.append_nil], renders⟩
  · rw [running.up] at down
    cases down

theorem Running.count (running : line.Running still fuel first values n) : line.sinks.log.length = n := by
  obtain ⟨shown, log, renders⟩ := running.log
  have size := congrArg List.length log
  rwa [List.length_map, List.length_map, length_shown running.within renders] at size

/-- While the connection is up, the values that have arrived are those that have been delivered. -/
theorem Running.arrived_iff (running : line.Running still fuel first values n)
    (stream : Parser.Stream fuel first values)
    (front : line.heard <+: Sentence.encodeAll values) {m : Nat} (known : m ≤ values.length) :
    m ≤ n ↔ Sentence.encodeAll (values.take m) <+: line.heard := by
  obtain ⟨kept, follows⟩ := running.held
  exact follows.arrived_iff stream running.within known front

section Read

variable {chunk rest : Bytes} {memory : Memory} (stream : Parser.Stream fuel first values)
  (running : line.Running still fuel first values n)
  (arrives : line.heard ++ (chunk ++ rest) = Sentence.encodeAll values)
  (legal : line.Legal (.read chunk memory)) (sound : line.Sound (.read chunk memory))
  (calm : still → line.Calm (.read chunk memory))

include stream running arrives legal sound calm

/-- The messages of a read show the next values of the stream. -/
theorem Running.built : ∃ messages,
    n + (line.parser.feed 4096 chunk).drain.roots.length ≤ values.length ∧
    messages.length = (line.parser.feed 4096 chunk).drain.roots.length ∧
    Exchange.Built fuel memory (line.parser.feed 4096 chunk).drain.roots messages ∧
    List.Forall₂ (Message.Renders still) messages
      (((values.drop n).take messages.length).map (Sentence.message fuel)) := by
  obtain ⟨kept, follows⟩ := running.held
  have bounded := stream.bounded arrives
  obtain ⟨within, -⟩ := follows.returned running.within legal calm stream.drain.1 arrives bounded
  obtain ⟨messages, built, renders⟩ := follows.rendered running.within legal calm stream.drain.1 arrives bounded
    stream.formed stream.small stream.built sound
  have size := congrArg List.length built
  rw [List.length_map, List.length_map] at size
  refine ⟨messages, within, size.symm, built, ?_⟩
  rwa [← size]

/-- The loop delivers as many of the next values as there are confirmed commands for them. -/
theorem Running.attended : ∃ parser k, ∃ attended : Attended σ,
    Exchange.dispatch fuel memory (fun _ => false)
        ⟨line.parser.feed 4096 chunk, line.pipeline, line.sinks⟩ =
      Exchange.conclude attended parser (line.parser.feed 4096 chunk).drain ∧
    Ordered attended.pipeline attended.sinks line.tickets ∧
    n + k = min (n + (line.parser.feed 4096 chunk).drain.roots.length) (confirmed line.pipeline line.tickets) ∧
    (∃ shown, attended.sinks.log.map (·.2) = shown.map Delivery.message ∧
      List.Forall₂ (Message.Renders still) shown ((values.take (n + k)).map (Sentence.message fuel))) ∧
    (attended.outcome = none ∧
        n + (line.parser.feed 4096 chunk).drain.roots.length ≤ confirmed line.pipeline line.tickets ∨
      attended.outcome = some .unsolicited ∧
        confirmed line.pipeline line.tickets < n + (line.parser.feed 4096 chunk).drain.roots.length) := by
  obtain ⟨messages, within, size, built, renders⟩ := running.built stream arrives legal sound calm
  obtain ⟨parser, dispatched⟩ := @Exchange.dispatch_attend σ _ fuel memory (fun _ => false) _ _ line.pipeline
    line.sinks _ built
  obtain ⟨ordered, log, outcome⟩ := running.ordered.attend messages
  obtain ⟨all, count⟩ := count_attend running.ordered messages
  obtain ⟨front, -⟩ := @attend_taken σ _ (fun _ => false) messages line.pipeline line.sinks
  rw [running.count, size] at all count
  generalize attend (fun _ => false) messages line.pipeline line.sinks = attended at *
  -- What is delivered now follows what was delivered before, and so do the values.
  obtain ⟨shown, before, earlier⟩ := running.log
  have taken := List.prefix_iff_eq_take.mp front
  have sum := congrArg List.length log
  rw [List.length_map, List.length_append, List.length_map, List.length_map, running.count] at sum
  have fewer := front.length_le
  refine ⟨parser, attended.taken.length, attended, dispatched, ordered, by omega,
    ⟨shown ++ attended.taken, by rw [log, before, List.map_append], ?_⟩, ?_⟩
  · rw [List.take_add, List.map_append]
    refine List.rel_append earlier ?_
    have first := List.forall₂_take attended.taken.length renders
    rw [← taken, ← List.map_take, List.take_take, Nat.min_eq_left fewer] at first
    exact first
  · rcases outcome with none | unsolicited
    · exact .inl ⟨none, all.mp none⟩
    · refine .inr ⟨unsolicited, ?_⟩
      by_contra enough
      rw [all.mpr (Nat.not_lt.mp enough)] at unsolicited
      cases unsolicited

/-- A push that is kept apart is not among the values that are delivered. -/
theorem Running.unpushed (apart : line.Apart values (.read chunk memory)) {k : Nat}
    (few : n + k ≤ n + (line.parser.feed 4096 chunk).drain.roots.length)
    (awaited : n + k ≤ confirmed line.pipeline line.tickets) :
    ∀ value ∈ values.take (n + k), value.meaning.isPush = false := by
  obtain ⟨kept, follows⟩ := running.held
  have front : line.heard ++ chunk <+: Sentence.encodeAll values := by
    rw [← arrives, ← List.append_assoc]
    exact List.prefix_append _ _
  have before : line.heard <+: Sentence.encodeAll values := (List.prefix_append _ _).trans front
  obtain ⟨messages, within, -⟩ := running.built stream arrives legal sound calm
  rw [List.take_add]
  refine List.forall_mem_append.mpr ⟨running.solicited, fun value member => ?_⟩
  obtain ⟨i, inside, found⟩ := List.mem_take_iff_getElem.mp member
  rw [List.length_drop] at inside
  rw [List.getElem_drop] at found
  have early : i < k := by omega
  cases push : value.meaning.isPush with
  | false => rfl
  | true =>
    have kind : (values[n + i]?).map (fun value => value.meaning.isPush) = some true := by
      rw [List.getElem?_eq_getElem (by omega), found, Option.map_some, push]
    -- The push would come to its end in this read, and be delivered for a command that is confirmed.
    have late : ¬Sentence.encodeAll (values.take (n + i + 1)) <+: line.heard := by
      rw [← running.arrived_iff stream before (by omega)]
      omega
    have arrived : Sentence.encodeAll (values.take (n + i + 1)) <+: line.heard ++ chunk := by
      rw [← follows.returned_iff stream running.within (by omega) legal calm front]
      omega
    have answered := apart (n + i) (by omega) kind late arrived
    have some := List.length_filter_le (fun value : Sentence => !value.meaning.isPush) (values.take (n + i))
    rw [List.length_take] at some
    rw [replies] at answered
    omega

/-- How a read ends: with a value that no confirmed command waits for, with a parser that asks for more, or with one
that rejects the octets. -/
theorem Running.receives (apart : line.Apart values (.read chunk memory)) (nonempty : chunk ≠ []) :
    ∃ next, line.receive fuel memory chunk = some next ∧
      (confirmed line.pipeline line.tickets < n + (line.parser.feed 4096 chunk).drain.roots.length ∧
          next.down = true ∧ next.Served still fuel values (confirmed line.pipeline line.tickets) ∧
          next.sinks.log.length = confirmed line.pipeline line.tickets ∨
        n + (line.parser.feed 4096 chunk).drain.roots.length ≤ confirmed line.pipeline line.tickets ∧
          ((∃ value, (line.parser.feed 4096 chunk).drain.answer = .ok value) ∧ next.heard = line.heard ++ chunk ∧
              next.Running still fuel first values (n + (line.parser.feed 4096 chunk).drain.roots.length) ∨
            (∃ errc, (line.parser.feed 4096 chunk).drain.answer = .error (.protocol errc)) ∧ next.down = true ∧
              next.Served still fuel values (n + (line.parser.feed 4096 chunk).drain.roots.length))) := by
  obtain ⟨-, fewer, -⟩ := running.built stream arrives legal sound calm
  obtain ⟨parser, k, attended, dispatched, ordered, count, ⟨shown, log, renders⟩, outcome⟩ :=
    running.attended stream arrives legal sound calm
  have solicited := running.unpushed stream arrives legal sound calm apart (k := k) (by omega) (by omega)
  have served (parser : Parser Buffer View) (down : Bool) : Served still fuel values (n + k)
      { line with
        toExchange := ⟨parser, attended.pipeline, attended.sinks⟩, heard := line.heard ++ chunk, down := down } :=
    ⟨ordered, by omega, solicited, shown, [], by rw [log, List.append_nil], renders, .inl rfl⟩
  rw [receive, if_neg nonempty, dispatched, Exchange.conclude]
  rcases outcome with ⟨none, enough⟩ | ⟨unsolicited, early⟩
  · obtain ⟨kept, follows⟩ := running.held
    have bounded := stream.bounded arrives
    obtain ⟨answers, -⟩ := (follows.fed legal calm).2.drain
    obtain rfl : k = (line.parser.feed 4096 chunk).drain.roots.length := by omega
    rw [none]
    cases answer : (line.parser.feed 4096 chunk).drain.answer with
    | ok value =>
      exact ⟨_, rfl, .inr ⟨enough, .inl ⟨⟨value, rfl⟩, rfl, served _ line.down, running.up, _,
        follows.onward running.within legal calm stream.drain.1 arrives bounded answer⟩⟩⟩
    | error stop =>
      rw [answer] at answers
      -- The whole stream is parsed without an assertion, and so is every part of it.
      have impossible (assertion : ∀ errc, stop ≠ .protocol errc) : False := by
        have whole := (follows.takes.error bounded (.inr assertion) answers).2
        rw [arrives, stream.drain.2] at whole
        cases whole
      cases stop with
      | assertion | outOfRange => exact (impossible (by simp)).elim
      | protocol errc =>
        refine ⟨_, rfl, .inr ⟨enough, .inr ⟨⟨errc, rfl⟩, rfl, ?_⟩⟩⟩
        simp only [Exchange.onError]
        split
        · cases replied : attended.pipeline.onError { code := .protocol errc } attended.sinks with
          | none => exact served _ true
          | some answered =>
            obtain ⟨ordered', ref, last⟩ := ordered.reply replied
            refine ⟨ordered', by omega, solicited, shown, [.error { code := .protocol errc }], ?_, renders,
              .inr ⟨rfl, errc, rfl⟩⟩
            dsimp only
            rw [last, List.map_append, log]
            rfl
        · exact served _ true
  · have all : n + k = confirmed line.pipeline line.tickets := by omega
    rw [unsolicited, ← all]
    rw [← all] at early
    refine ⟨_, rfl, .inl ⟨early, rfl, served parser true, ?_⟩⟩
    have size := congrArg List.length log
    rwa [List.length_map, List.length_map, length_shown (by omega) renders] at size

/-- A read delivers the next values, or the connection fails. -/
theorem Running.read (apart : line.Apart values (.read chunk memory)) :
    ∃ next n', line.receive fuel memory chunk = some next ∧ next.Served still fuel values n' ∧
      (next.down = false → next.heard = line.heard ++ chunk ∧ next.Running still fuel first values n') := by
  have lost {next : Line σ} {n' : Nat} (down : next.down = true) (up : next.down = false) :
      next.heard = line.heard ++ chunk ∧ next.Running still fuel first values n' := by
    rw [down] at up
    cases up
  by_cases closed : chunk = []
  · obtain ⟨shown, log, renders⟩ := running.log
    exact ⟨{ line with down := true }, n, by rw [receive, if_pos closed], ⟨running.ordered, running.within,
      running.solicited, shown, [], by rw [log, List.append_nil], renders, .inl rfl⟩, lost rfl⟩
  obtain ⟨next, received, ⟨-, down, served, -⟩ | ⟨-, ⟨-, heard, onward⟩ | ⟨-, down, served⟩⟩⟩ :=
    running.receives stream arrives legal sound calm apart closed
  · exact ⟨next, _, received, served, lost down⟩
  · exact ⟨next, _, received, onward.toServed, fun _ => ⟨heard, onward⟩⟩
  · exact ⟨next, _, received, served, lost down⟩

end Read

/-- One event, if it is possible. -/
theorem Running.event {event : Event σ} (stream : Parser.Stream fuel first values)
    (running : line.Running still fuel first values n) (lawful : event.Lawful) (legal : line.Legal event)
    (sound : line.Sound event) (apart : line.Apart values event) (calm : still → line.Calm event)
    (arrives : line.heard ++ event.octets <+: Sentence.encodeAll values) :
    ∃ next n', line.step fuel event = some next ∧ next.Served still fuel values n' ∧
      (next.down = false → next.heard = line.heard ++ event.octets ∧ next.Running still fuel first values n') := by
  cases event with
  | enqueue req sink deadline =>
    suffices onward : (line.accept req sink deadline).heard = line.heard ∧
        (line.accept req sink deadline).Running still fuel first values n by
      refine ⟨_, n, rfl, onward.2.toServed, fun _ => ⟨?_, onward.2⟩⟩
      exact onward.1.trans (List.append_nil _).symm
    unfold accept
    split
    · exact ⟨rfl, running⟩
    · rename_i pipeline pushed
      exact ⟨rfl, { running with ordered := running.ordered.accept lawful pushed }⟩
  | wrote written =>
    obtain ⟨buffer, offered, fits⟩ := legal
    obtain ⟨pipeline, done, ordered⟩ := running.ordered.wrote offered fits
    have onward : Running still fuel first values n { line with pipeline := pipeline } :=
      { running with ordered := ordered }
    exact ⟨_, n, by rw [step, done]; rfl, onward.toServed, fun _ => ⟨(List.append_nil _).symm, onward⟩⟩
  | read chunk memory =>
    obtain ⟨rest, whole⟩ := arrives
    rw [List.append_assoc] at whole
    exact running.read stream whole legal sound calm apart

/-- Requests, writes and reads in any order. -/
theorem Running.run {events : List (Event σ)} (stream : Parser.Stream fuel first values)
    (running : line.Running still fuel first values n)
    (arrives : line.heard ++ received events <+: Sentence.encodeAll values) (lawful : ∀ event ∈ events, event.Lawful)
    (tame : Guarded (step fuel) (Tame values) line events)
    (calm : still → Guarded (step fuel) Calm line events) :
    ∃ last n', runFrom (step fuel) line events = some last ∧ last.Served still fuel values n' ∧
      (last.down = false → last.heard = line.heard ++ received events ∧
        last.Running still fuel first values n') := by
  -- Induction on the events: each leaves a line that is up, or one that takes no further event.
  induction events generalizing line n with
  | nil => exact ⟨line, n, rfl, running.toServed, fun _ => ⟨(List.append_nil _).symm, running⟩⟩
  | cons event rest ih =>
    rw [List.forall_mem_cons] at lawful
    rw [received_cons, ← List.append_assoc] at arrives
    obtain ⟨next, m, stepped, served, onward⟩ := running.event stream lawful.1 tame.1.legal tame.1.sound tame.1.apart
      (fun quiet => (calm quiet).1) ((List.prefix_append _ _).trans arrives)
    rw [runFrom, stepped]
    cases down : next.down with
    | false =>
      obtain ⟨heard, running⟩ := onward down
      rw [← heard] at arrives
      obtain ⟨last, n', run, served, later⟩ := ih running arrives lawful.2 (tame.tail stepped) fun quiet =>
        (calm quiet).tail stepped
      refine ⟨last, n', run, served, fun up => ?_⟩
      rw [received_cons, ← List.append_assoc, ← heard]
      exact later up
    | true =>
      cases rest with
      | nil =>
        refine ⟨next, m, rfl, served, fun up => ?_⟩
        rw [down] at up
        cases up
      | cons event others =>
        have up := (tame.tail stepped).1.up
        rw [down] at up
        cases up

end Streams

theorem stream_reset {fuel : Nat} {parser : Parser Buffer View} {values : List Sentence}
    (formed : ∀ value ∈ values, value.WellFormed parser.limits)
    (small : ∀ value ∈ values, value.encode.length < 2 ^ 32)
    (short : (Sentence.encodeAll values).length ≤ Buffer.sizeMax)
    (built : ∀ value ∈ values, value.builtIn fuel = true) : Parser.Stream fuel (parser.reset.copy .zeroed) values :=
  ⟨⟨⟨rfl, rfl, rfl⟩, rfl⟩, parser.input.data_reset, formed, small, short, built⟩

theorem start_running (still : Prop) (fuel : Nat) (parser : Parser Buffer View) (values : List Sentence)
    (limits : Pipeline.Limits) :
    (start parser limits : Line σ).Running still fuel (parser.reset.copy .zeroed) values 0 where
  ordered := ordered_start limits
  within := Nat.zero_le _
  solicited := List.forall_mem_nil _
  delivered := ⟨[], [], rfl, .nil, .inl rfl⟩
  up := rfl
  held := ⟨_, Parser.follows_reset still parser⟩

section Conclusions

variable {still : Prop} {fuel : Nat} {first : Parser Bytes Text} {values : List Sentence} {line : Line σ} {n : Nat}

omit [ResponseSink σ Message ErrorInfo] [FloatChars] in
theorem replies_take (within : n ≤ values.length)
    (solicited : ∀ value ∈ values.take n, value.meaning.isPush = false) {j : Nat} (early : j < n) :
    (replies values)[j]? = values[j]? := by
  have kept : replies (values.take n) = values.take n := by
    rw [replies, List.filter_eq_self]
    intro value member
    rw [solicited value member]
    rfl
  have split : replies values = values.take n ++ replies (values.drop n) := by
    rw [← kept, replies, replies, replies, ← List.filter_append, List.take_append_drop]
  have size : (values.take n).length = n := by rw [List.length_take, Nat.min_eq_left within]
  rw [split, List.getElem?_append_left (by omega), List.getElem?_take_of_lt early]

/-- Each delivery shows the reply to its command, or is the error with which the connection failed. -/
theorem Served.reply (stream : Parser.Stream fuel first values) (served : line.Served still fuel values n) {j : Nat}
    {ref : SinkRef} {delivery : Delivery Message ErrorInfo} (delivered : line.sinks.log[j]? = some (ref, delivery)) :
    line.owners[j]? = some ref ∧
      ((∃ value message shown, (replies values)[j]? = some value ∧ value.Builds message ∧
          delivery = .message shown ∧ shown.Renders still message ∧ shown.isPush = false) ∨
        line.down = true ∧ ∃ errc, delivery = .error { code := .protocol errc }) := by
  refine ⟨served.ordered.owner delivered, ?_⟩
  obtain ⟨shown, tail, log, renders, ended⟩ := served.delivered
  have here : (line.sinks.log.map (·.2))[j]? = some delivery := by rw [List.getElem?_map, delivered]; rfl
  have size := length_shown served.within renders
  rw [log] at here
  by_cases early : j < n
  · rw [List.getElem?_append_left (by rw [List.length_map]; omega), List.getElem?_map,
      List.getElem?_eq_getElem (by omega)] at here
    have inside : j < values.length := Nat.lt_of_lt_of_le early served.within
    have known : values[j] ∈ values := List.getElem_mem inside
    have built := stream.built _ known
    have taken : values[j] ∈ values.take n :=
      List.mem_of_getElem? ((List.getElem?_take_of_lt early).trans (List.getElem?_eq_getElem inside))
    have same : shown[j].Renders still (values[j].message fuel) := by
      have each := renders.get (i := j) (by omega) (by rw [List.length_map, List.length_take]; omega)
      simpa using each
    refine .inl ⟨values[j], values[j].message fuel, shown[j], ?_, ⟨fuel, Sentence.build_message built⟩,
      (Option.some.inj here).symm, same, ?_⟩
    · rw [replies_take served.within served.solicited early, List.getElem?_eq_getElem inside]
    · -- a read moves no kind
      rw [← Message.isPush_bare, same.bare, Sentence.bare_message (stream.formed _ known) (stream.small _ known) built,
        Message.isPush_bare]
      exact served.solicited _ taken
  · rw [List.getElem?_append_right (by rw [List.length_map]; omega)] at here
    rcases ended with rfl | ⟨down, errc, rfl⟩
    · cases here
    · have error := List.mem_of_getElem? here
      exact .inr ⟨down, errc, List.mem_singleton.mp error⟩

end Conclusions

/-- If every push comes to its end when the commands that are reported to be written are all answered, the replies
reach the owners of their commands in order, no push is among them, and nothing that arrived is held back while the
connection is up. What is delivered is the message of the reply up to texts that a read has moved, and exactly that
message if no read has moved one. -/
theorem replies_unshifted (parser : Parser Buffer View) (limits : Pipeline.Limits) (values : List Sentence)
    (formed : ∀ value ∈ values, value.WellFormed parser.limits)
    (small : ∀ value ∈ values, value.encode.length < 2 ^ 32)
    (short : (Sentence.encodeAll values).length ≤ Buffer.sizeMax) :
    (∃ enough, ∀ fuel, enough ≤ fuel → ∀ value ∈ values, value.builtIn fuel = true) ∧
    ∀ fuel, (∀ value ∈ values, value.builtIn fuel = true) → ∀ events : List (Event σ),
      (∀ event ∈ events, event.Lawful) → received events <+: Sentence.encodeAll values →
      Guarded (step fuel) (Tame values) (start parser limits) events →
      ∃ line, runFrom (step fuel) (start parser limits) events = some line ∧
        (∀ (j : Nat) (ref : SinkRef) (delivery : Delivery Message ErrorInfo),
          line.sinks.log[j]? = some (ref, delivery) → line.owners[j]? = some ref ∧
          ((∃ value message shown, (replies values)[j]? = some value ∧ value.Builds message ∧
              delivery = .message shown ∧
              shown.Renders (Guarded (step fuel) Calm (start parser limits) events) message ∧
              shown.isPush = false) ∨
            line.down = true ∧ ∃ errc, delivery = .error { code := .protocol errc })) ∧
        (line.down = false → ∀ n ≤ values.length,
          Sentence.encodeAll (values.take n) <+: received events → n ≤ line.sinks.log.length) := by
  refine ⟨Sentence.exists_builtIn formed small, ?_⟩
  intro fuel built events lawful arrives tame
  have stream := stream_reset formed small short built
  have running :=
    start_running (σ := σ) (Guarded (step fuel) Calm (start parser limits) events) fuel parser values limits
  obtain ⟨line, n, run, served, up⟩ := running.run stream arrives lawful tame id
  refine ⟨line, run, fun j ref delivery delivered => served.reply stream delivered, ?_⟩
  intro alive m within arrived
  obtain ⟨heard, running⟩ := up alive
  have heard : line.heard = received events := heard
  rw [← heard] at arrived arrives
  rw [running.count]
  exact (running.arrived_iff stream arrives within).mpr arrived

end Model

/-! Requests, their replies, and a push. -/

/-- A sink that keeps its messages as they are. -/
abbrev Echo : Type := PendingResponse fun _ => (Except.ok : Message → Except ErrorInfo Message)

def simple (content : String) : Sentence := .leaf (.line .simpleString (text content))

def pong : Sentence := simple "PONG"

/-- A push of one simple string. -/
def push : Sentence := .aggregate .push (text "1") [simple "x"]

/-- `PING` is queued. -/
def ping : Event Echo := .enqueue (Request.ofCommands [.variadic (text "PING") []]) { expected := 1 } ⊤

/-- These octets arrive. -/
def reads (octets : String) : Event Echo := .read (text octets) .zeroed

theorem ping_lawful : ping.Lawful := ⟨Nat.one_pos, rfl, PendingResponse.counts_new Nat.one_pos⟩

theorem simple_wellFormed [FloatChars] {content : String} (free : findCrlf (text content) = none)
    (within : (text content).length ≤ ({} : Resp3.Limits).maxRespLineBytes) : (simple content).WellFormed {} :=
  .leaf (.line rfl free within nofun nofun)

theorem pong_wellFormed [FloatChars] : pong.WellFormed {} :=
  simple_wellFormed (by decide +kernel) (by decide +kernel)

theorem push_wellFormed [FloatChars] : push.WellFormed {} := by
  have numeral : Numeral {} (text "1") (1 : Nat) := ⟨by decide +kernel, by decide +kernel⟩
  have element : (simple "x").WellFormed {} := simple_wellFormed (by decide +kernel) (by decide +kernel)
  exact .aggregate rfl numeral ⟨by decide, rfl⟩ rfl (List.forall_mem_singleton.mpr element)

/-- What a delivery shows: whether its message is a push, or that it is an error. -/
def shown : Delivery Message ErrorInfo → Option Bool
  | .message message => some message.isPush
  | .error _ => none

theorem shown_eq_some {delivery : Delivery Message ErrorInfo} {isPush : Bool} (seen : shown delivery = some isPush) :
    ∃ message, delivery = .message message ∧ message.isPush = isPush := by
  cases delivery with
  | message message => exact ⟨message, rfl, Option.some.inj seen⟩
  | error err => cases seen

/-- Two requests, their replies in pieces, and a push right behind the second one. -/
def pings : List (Event Echo) :=
  [ping, .wrote 14, ping, reads "+PONG\r\n", .wrote 14, reads "+PO", reads "NG\r\n>1\r\n+x\r\n"]

theorem pings_lawful : ∀ event ∈ pings, event.Lawful := by
  simp only [pings, List.forall_mem_cons]
  exact ⟨ping_lawful, trivial, ping_lawful, trivial, trivial, trivial, trivial, List.forall_mem_nil _⟩

/-- No other reply is awaited when the push comes to its end, and it fails the connection. -/
theorem replies_unshifted_pings : letI := FloatChars.none
    ∃ line : Line Echo, runFrom (step 16) (start (.fresh {}) {}) pings = some line ∧ line.down = true ∧
      line.sinks.log.map Prod.fst = [0, 1] ∧
      ∀ entry ∈ line.sinks.log, ∃ message, entry.2 = .message message ∧ pong.Builds message := by
  let := FloatChars.none
  have formed : ∀ value ∈ [pong, pong, push], value.WellFormed (Parser.fresh {}).limits := by
    simp only [List.forall_mem_cons]
    exact ⟨pong_wellFormed, pong_wellFormed, push_wellFormed, List.forall_mem_nil _⟩
  obtain ⟨line, run, delivered, -⟩ := (replies_unshifted (.fresh {}) {} [pong, pong, push] formed
    (by decide +kernel) (by decide +kernel)).2 16 (by decide +kernel) pings pings_lawful (by decide +kernel)
    (by decide +kernel)
  have seen : ((runFrom (step 16) (start (.fresh {}) {}) pings).map fun line =>
      (line.down, line.sinks.log.map Prod.fst, line.sinks.log.map fun entry => shown entry.2)) =
        some (true, [0, 1], [some false, some false]) := by
    decide +kernel
  have calm : Guarded (step 16) Calm (start (.fresh {}) {}) pings := by decide +kernel
  rw [run] at seen
  obtain ⟨down, seen⟩ := Prod.mk.inj (Option.some.inj seen)
  obtain ⟨owners, kinds⟩ := Prod.mk.inj seen
  refine ⟨line, run, down, owners, fun entry member => ?_⟩
  obtain ⟨j, found⟩ := List.mem_iff_getElem?.mp member
  obtain ⟨-, ⟨value, message, shown, reply, builds, same, renders, -⟩ | ⟨-, errc, same⟩⟩ :=
    delivered j entry.1 entry.2 found
  · have among : value ∈ [pong, pong] := List.mem_of_getElem? reply
    obtain rfl : value = pong := by simpa using among
    rw [renders.same calm] at same
    exact ⟨message, same, builds⟩
  · have kind : shown entry.2 ∈ [some false, some false] := by
      rw [← kinds]
      exact List.mem_map_of_mem member
    rw [same] at kind
    simp [shown] at kind

/-- A request of a connection is written, and these octets arrive. -/
def asking (octets : String) : List (Act Unit) :=
  opening ++ [.controlRun .wakeup 0, .writerRun .wakeup, .readerRun .wakeup,
    .enqueue (Request.ofCommands [.variadic (text "PING") []]) fun _ _ => .ok (), .writerRun .wakeup,
    .writerComplete (.ok 14), .writerResume, .readerComplete (.ok (text octets)), .readerResume]

/-- The push comes while the reply is awaited, and is taken for it: on the line, and by `do_read` of a connection
for the request that it accepted. -/
theorem push_shifts : letI := FloatChars.none
    received [ping, .wrote 14, reads ">1\r\n+x\r\n"] <+: Sentence.encodeAll [push, pong] ∧
    (∃ line : Line Echo, runFrom (step 16) (start (.fresh {}) {}) [ping, .wrote 14, reads ">1\r\n+x\r\n"] = some line ∧
      line.down = false ∧ line.owners = [0] ∧ ∃ message, line.sinks.log = [(0, .message message)] ∧
        message.isPush = true) ∧
    ∃ s : System Unit, System.Reached 16 {} s ∧ s.state = .opened ∧ Note.accepted 1 1 ∈ s.notes ∧
      s.sinks.isComplete 1 = true ∧
      (deliveriesTo s.sinks.log 1).map shown = [some true] := by
  let := FloatChars.none
  have seen : ((runFrom (step 16) (start (.fresh {}) {}) [ping, .wrote 14, reads ">1\r\n+x\r\n"]).map fun line =>
      (line.down, line.owners, line.sinks.log.map fun entry => (entry.1, shown entry.2))) =
      some (false, [0], [(0, some true)]) := by decide +kernel
  obtain ⟨line, run, same⟩ := Option.map_eq_some_iff.mp seen
  obtain ⟨down, same⟩ := Prod.mk.inj same
  obtain ⟨owners, log⟩ := Prod.mk.inj same
  obtain ⟨⟨ref, delivery⟩, only, entry⟩ := List.map_eq_singleton_iff.mp log
  obtain ⟨rfl, kind⟩ := Prod.mk.inj entry
  obtain ⟨message, rfl, isPush⟩ := shown_eq_some kind
  exact ⟨by decide +kernel, ⟨line, run, down, owners, message, only, isPush⟩,
    System.Reached.of_run 16 {} (asking ">1\r\n+x\r\n") (by decide +kernel)⟩

end Line

end Rediscoro.Connection

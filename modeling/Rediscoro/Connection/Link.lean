import Rediscoro.Connection.Answers
import Rediscoro.Connection.Tracing
import Rediscoro.Connection.Relabel

/-! An open connection is a dialogue with its server.

A link is a connection with the server at the other end of its socket: the octets of a write go to
the server as the socket takes them, and a read is given octets of its answers. From the step of
`do_connect` that sets OPEN on, and as long as OPEN is not left, whatever the coroutines of the
connection do is a turn of a dialogue or none at all. The sinks of the dialogue are those of the
requests that were accepted meanwhile, under other names.
-/

set_option autoImplicit false

namespace Rediscoro.Pipeline.Sinks

open Rediscoro.Semantics

variable {σ μ ε : Type} [ResponseSink σ μ ε] {sinks : Sinks σ μ ε} {origin : List σ}

/-- Every sink is what it was made as, after the deliveries that the log tells of. -/
structure Told (origin : List σ) (sinks : Sinks σ μ ε) : Prop where
  cells : sinks.cells = origin.mapIdx fun i sink => (deliveriesTo sinks.log i).foldl receive sink
  bound : ∀ entry ∈ sinks.log, entry.1 < origin.length

namespace Told

theorem size (told : Told origin sinks) : sinks.cells.length = origin.length := by rw [told.cells, List.length_mapIdx]

theorem found (told : Told origin sinks) (i : Nat) :
    sinks.cells[i]? = (origin[i]?).map fun sink => (deliveriesTo sinks.log i).foldl receive sink := by
  rw [told.cells, List.getElem?_mapIdx]

theorem deliver (told : Told origin sinks) (ref : SinkRef) (delivery : Delivery μ ε) :
    Told origin (sinks.deliver ref delivery) := by
  have here := told.found ref
  unfold Sinks.deliver
  split
  · rename_i sink present
    have inside : ref < origin.length := told.size ▸ (List.getElem?_eq_some_iff.mp present).1
    split
    · exact told
    · constructor
      · apply List.ext_getElem?
        intro i
        rw [List.getElem?_mapIdx, List.getElem?_set]
        by_cases same : ref = i
        · -- the sink takes one more delivery, and the log has one more entry for it
          subst same
          obtain ⟨first, place, rfl⟩ := Option.map_eq_some_iff.mp (here.symm.trans present)
          rw [if_pos rfl, if_pos (told.size ▸ inside), place, deliveriesTo_concat_self, Option.map_some,
            List.foldl_concat]
        · rw [if_neg same, told.found i, deliveriesTo_concat_of_ne same]
      · intro entry member
        rcases List.mem_append.mp member with earlier | last
        · exact told.bound entry earlier
        · rw [List.mem_singleton.mp last]
          exact inside
  · exact told

theorem dispatch {p q : Pipeline} {after : Sinks σ μ ε} {delivery : Delivery μ ε} (told : Told origin sinks)
    (dispatched : p.dispatch delivery sinks = some (q, after)) : Told origin after := by
  unfold Pipeline.dispatch at dispatched
  split at dispatched
  · cases dispatched
  · cases dispatched
    exact told.deliver _ delivery

theorem alloc (told : Told origin sinks) (sink : σ) : Told (origin ++ [sink]) (sinks.alloc sink).2 := by
  have untold : deliveriesTo sinks.log origin.length = [] :=
    deliveriesTo_eq_nil fun entry member => Nat.ne_of_lt (told.bound entry member)
  constructor
  · simp only [Sinks.alloc, List.mapIdx_append, List.mapIdx_cons, List.mapIdx_nil, Nat.zero_add]
    rw [untold, told.cells]
    rfl
  · intro entry member
    rw [List.length_append]
    exact Nat.lt_add_right _ (told.bound entry member)

end Told

end Rediscoro.Pipeline.Sinks

namespace Rediscoro.Pipeline

variable {σ μ ε : Type} [ResponseSink σ μ ε]

/-- Where every sink is of a queued request or complete, deliveries leave it so. -/
theorem Answered.all_served {p q : Pipeline} {sinks after : Sinks σ μ ε} (answered : Answered p sinks q after)
    (served : ∀ i < sinks.cells.length, i ∈ p.refs ∨ sinks.isComplete i = true) :
    ∀ i < after.cells.length, i ∈ q.refs ∨ after.isComplete i = true := by
  intro i inside
  by_cases waits : i ∈ q.refs
  · exact .inl waits
  · right
    rcases served i (answered.later.size ▸ inside) with waited | complete
    · exact answered.served i waited waits
    · exact answered.later.isComplete complete

end Rediscoro.Pipeline

namespace Rediscoro.Connection

open Rediscoro.Semantics Rediscoro.Resp3 Rediscoro.Pipeline

namespace Exchange

variable {σ : Type} [ResponseSink σ Message ErrorInfo] [FloatChars]

/-- What parsing, reclaiming and every reply keep, the loop over the octets keeps. -/
theorem dispatch_invariant (holds : Exchange σ → Prop)
    (parses : ∀ x, holds x → holds { x with parser := x.parser.parseOne.2 })
    (reclaims : ∀ x, holds x → holds { x with parser := x.parser.reclaim })
    (answers : ∀ x delivery pipeline sinks, holds x → x.pipeline.dispatch delivery x.sinks = some (pipeline, sinks) →
      holds { x with pipeline := pipeline, sinks := sinks })
    (fuel : Nat) (memory : Memory) (enough : Sinks σ Message ErrorInfo → Bool) {x : Exchange σ} (start : holds x) :
    holds (dispatch fuel memory enough x).2 := by
  have parsed {x : Exchange σ} {answer : Parser.Answer} {parser : Parser Buffer View}
      (call : x.parser.parseOne = (answer, parser)) (start : holds x) : holds { x with parser := parser } := by
    have kept := parses x start
    rwa [call] at kept
  apply run_invariant (dispatchPass_decreases fuel memory enough) holds (fun result => holds result.2) _ _ x start
  · -- a pass that goes on has delivered a message and reclaimed its tree
    intro x next start again
    unfold dispatchPass at again
    split at again
    · cases again
    · cases again
    · cases again
    · rename_i root parser call
      split at again
      · unfold deliver at again
        split at again
        · split at again
          · cases again
          · rename_i dispatched
            split at again
            · cases again
            · cases again
              exact reclaims _ (answers _ _ _ _ (parsed call start) dispatched)
        · cases again
      · cases again
  · -- a pass that leaves may have handed the parser's error to the request in front
    intro x result start left
    unfold dispatchPass at left
    split at left
    · rename_i errc parser call
      cases left
      unfold onError
      split
      · split
        · exact parsed call start
        · rename_i dispatched
          exact answers _ _ _ _ (parsed call start) dispatched
      · exact parsed call start
    · rename_i call
      cases left
      exact parsed call start
    · rename_i call
      cases left
      exact parsed call start
    · rename_i root parser call
      split at left
      · unfold deliver at left
        split at left
        · split at left
          · cases left
            exact parsed call start
          · rename_i dispatched
            split at left
            · cases left
              exact reclaims _ (answers _ _ _ _ (parsed call start) dispatched)
            · cases left
        · cases left
          exact parsed call start
      · cases left
        exact parsed call start

/-- The log tells of every delivery, and the texts stay in what was committed. -/
theorem dispatch_told {origin : List σ} {x : Exchange σ} (told : x.sinks.Told origin) (inside : x.parser.Inside)
    (fuel : Nat) (memory : Memory) (enough : Sinks σ Message ErrorInfo → Bool) :
    (dispatch fuel memory enough x).2.sinks.Told origin ∧ (dispatch fuel memory enough x).2.parser.Inside := by
  apply dispatch_invariant (fun y : Exchange σ => y.sinks.Told origin ∧ y.parser.Inside)
  · exact fun _ held => ⟨held.1, Parser.parseOne_inside held.2⟩
  · exact fun y held => ⟨held.1, Parser.reclaim_inside y.parser⟩
  · exact fun _ _ _ _ held dispatched => ⟨held.1.dispatch dispatched, held.2⟩
  · exact ⟨told, inside⟩

end Exchange

/-! Sinks of the requests. -/

namespace Sink

variable {ρ : Type} {slotFromMessage : Nat → Message → Except ErrorInfo ρ} {n : Nat}
  {deliveries : List (Delivery Message ErrorInfo)} {sink : Sink ρ}

/-- The sink of a request with so many commands, after these deliveries. -/
def Filled (slotFromMessage : Nat → Message → Except ErrorInfo ρ) (n : Nat)
    (deliveries : List (Delivery Message ErrorInfo)) (sink : Sink ρ) : Prop :=
  ∃ context finish, sink = ⟨slotFromMessage, .filled slotFromMessage n deliveries, context, finish⟩

theorem Filled.complete (held : Filled slotFromMessage n deliveries sink) :
    ResponseSink.isComplete sink = true ↔ deliveries.length = n := by
  obtain ⟨context, finish, rfl⟩ := held
  exact PendingResponse.isComplete_filled n deliveries

theorem Filled.receive (held : Filled slotFromMessage n deliveries sink) (missing : deliveries.length < n)
    (delivery : Delivery Message ErrorInfo) :
    Filled slotFromMessage n (deliveries ++ [delivery]) (Pipeline.receive sink delivery) := by
  obtain ⟨context, finish, rfl⟩ := held
  have unfilled : ¬(PendingResponse.filled slotFromMessage n deliveries).result.isSome = true :=
    fun complete => absurd ((PendingResponse.isComplete_filled n deliveries).mp complete) (Nat.ne_of_lt missing)
  have next : Pipeline.receive (PendingResponse.filled slotFromMessage n deliveries) delivery = _ :=
    PendingResponse.receive_filled missing delivery
  rw [PendingResponse.receive_eq] at next
  have accepted (sink : Sink ρ) : Pipeline.receive sink delivery =
      sink.accept (PendingResponse.slotOf sink.slotFromMessage sink.response.slots.length delivery) := by
    cases delivery <;> rfl
  rw [accepted, accept, if_neg unfilled]
  simp only [next]
  split
  · exact ⟨context, finish, rfl⟩
  · -- the last slot may emit the finish event
    unfold emitTraceFinish
    split
    · exact ⟨_, finish, rfl⟩
    · split
      · exact ⟨_, _, rfl⟩
      · exact ⟨_, finish, rfl⟩

theorem Filled.start {req : Request} (positive : 0 < req.replyCount) (context : Option TraceContext) :
    Filled slotFromMessage req.replyCount [] { Sink.forRequest slotFromMessage req with context := context } := by
  refine ⟨context, none, ?_⟩
  rw [PendingResponse.filled_nil positive]
  rfl

/-- Slot by slot, as long as one is missing. -/
theorem Filled.receives (held : Filled slotFromMessage n deliveries sink) (more : List (Delivery Message ErrorInfo))
    (within : deliveries.length + more.length ≤ n) :
    Filled slotFromMessage n (deliveries ++ more) (more.foldl Pipeline.receive sink) := by
  induction more generalizing deliveries sink with
  | nil => rwa [List.append_nil]
  | cons delivery rest ih =>
    rw [List.length_cons] at within
    have next := held.receive (by omega) delivery
    have later := ih next (by rw [List.length_append, List.length_singleton]; omega)
    rwa [List.append_assoc] at later

theorem Filled.counts (held : Filled slotFromMessage n [] sink) : Counts sink n := by
  intro more within
  have later := held.receives more (by rwa [List.length_nil, Nat.zero_add])
  exact later.complete

end Sink

/-! A connection and its server. -/

variable {ρ : Type}

/-- A request that was accepted while the connection is open. -/
structure Enquiry (ρ : Type) where
  ref : SinkRef
  commands : List Command
  slotFromMessage : Nat → Message → Except ErrorInfo ρ

def Enquiry.words (enquiry : Enquiry ρ) : List (List Bytes) := enquiry.commands.map Command.words

structure Link (ρ : Type) where
  system : System ρ
  asked : List (Enquiry ρ) := []
  /-- The octets that the server has not looked at. -/
  inbox : Bytes := []
  /-- The commands that the server has answered, with its answers. -/
  answered : List Answer := []
  /-- The octets of its answers that the socket has not handed over. -/
  outbox : Bytes := []

/-- No request is made, and no octets pass the socket. -/
def Act.quiet : Act ρ → Bool
  | .enqueue .. => false
  | .writerComplete (.ok _) => false
  | .readerComplete (.ok octets) => octets = []
  | _ => true

namespace Link

inductive Turn (ρ : Type) where
  | act (act : Act ρ)
  | ask (commands : List Command) (slotFromMessage : Nat → Message → Except ErrorInfo ρ)
  | send (n : Nat)
  | answer (words : List Bytes) (value : Sentence)
  | receive (n : Nat)

/-- What the server answers. -/
def Turn.values : Turn ρ → List Sentence
  | .answer _ value => [value]
  | _ => []

/-- A request has a command. -/
def Turn.proper : Turn ρ → Bool
  | .ask commands _ => !commands.isEmpty
  | _ => true

/-- What a read that goes on finds through the views whose storage is gone. -/
def Turn.memory : Turn ρ → Option Memory
  | .act (.readerResume memory) => some memory
  | _ => none

/-- What can happen to an open connection: it is asked something, and a read finds the colon of every verbatim
string, so that no assertion fails. -/
def Fair (link : Link ρ) (turn : Turn ρ) : Prop :=
  link.system.state = .opened ∧ turn.proper = true ∧ ∀ memory ∈ turn.memory, link.system.parser.Colons memory

instance (link : Link ρ) (turn : Turn ρ) : Decidable (link.Fair turn) := inferInstanceAs (Decidable (_ ∧ _ ∧ _))

/-- When a read goes on, no text of the unfinished message is in storage that is gone. -/
def Calm (link : Link ρ) (turn : Turn ρ) : Prop :=
  turn.memory.isSome = true → ∀ node ∈ link.system.parser.tree.nodes, node.type.textual = true →
    node.text.length ≠ 0 → node.text.storage = link.system.parser.input.storage

instance (link : Link ρ) (turn : Turn ρ) : Decidable (link.Calm turn) :=
  inferInstanceAs (Decidable (_ → ∀ node ∈ _, _))

/-- What the commands of a request were answered with, if these requests were accepted before it. -/
def answersTo (link : Link ρ) (before : List (Enquiry ρ)) (enquiry : Enquiry ρ) : List Answer :=
  (link.answered.drop (before.flatMap Enquiry.words).length).take enquiry.words.length

variable [FloatChars] [Inhabited ρ] (fuel : Nat)

/-- `none` where nothing can happen, or where the step of the connection is refused. The octets that the socket
takes of a write are those of the buffer it was given, which is still in front while the connection is open. -/
def step (link : Link ρ) : Turn ρ → Option (Link ρ)
  | .act act => if act.quiet then (link.system.step fuel act).map fun s => { link with system := s } else none
  | .ask commands slotFromMessage =>
      (link.system.step fuel (.enqueue (Request.ofCommands commands) slotFromMessage)).map fun s =>
        { link with
          system := s
          asked :=
            if link.system.sinks.cells.length ∈ s.pipeline.refs then
              link.asked ++ [⟨link.system.sinks.cells.length, commands, slotFromMessage⟩]
            else link.asked }
  | .send n =>
      (link.system.step fuel (.writerComplete (.ok n))).map fun s =>
        { link with system := s, inbox := link.inbox ++ (link.system.pipeline.nextWriteBuffer.getD []).take n }
  | .answer words value =>
      if (Command.message words).encode <+: link.inbox then
        some { link with
          inbox := link.inbox.drop (Command.message words).encode.length
          answered := link.answered ++ [⟨words, value⟩]
          outbox := link.outbox ++ value.encode }
      else none
  | .receive n =>
      if 0 < n ∧ n ≤ link.outbox.length then
        (link.system.step fuel (.readerComplete (.ok (link.outbox.take n)))).map fun s =>
          { link with system := s, outbox := link.outbox.drop n }
      else none

/-! The dialogue behind a link. -/

/-- The references of the accepted requests, in order. -/
def name (link : Link ρ) (i : SinkRef) : SinkRef := ((link.asked[i]?).map Enquiry.ref).getD 0

/-- The parser as a read finds it that was given room. -/
def prepared (parser : Parser Buffer View) : Parser Buffer View :=
  { parser with input := parser.input.prepare 4096 }

/-- What a writer is at, and what the socket has taken of the buffer in front. -/
def Writes (writer : Loop WriteCall) (pipeline : Pipeline) (unreported : Option Nat) : Prop :=
  match writer with
  | .busy { op := .pending, size := size, .. } =>
      unreported = none ∧ ∃ buffer, pipeline.nextWriteBuffer = some buffer ∧ buffer.length = size
  | .busy { op := .ready (.ok n), .. } => unreported = some n
  | .busy { op := .ready (.error _), .. } => True
  | _ => unreported = none

/-- What a reader is at: its octets are not in the parser yet. -/
def Reads (reader : Loop ReadCall) (ready : Parser Buffer View) (outbox : Bytes) (parser : Parser Buffer View)
    (waiting : Bytes) : Prop :=
  match reader with
  | .busy { op := .pending, room := room, .. } =>
      ready = prepared parser ∧ room = ready.input.available ∧ waiting = outbox
  | .busy { op := .ready (.ok octets), .. } =>
      octets ≠ [] → ready = prepared parser ∧ octets.length ≤ ready.input.available ∧ waiting = octets ++ outbox
  | .busy { op := .ready (.error _), .. } => True
  | _ => ready = parser ∧ waiting = outbox

/-- The sink that was made for a request, with its trace context. -/
def Made (enquiry : Enquiry ρ) (sink : Sink ρ) : Prop :=
  ∃ context, sink =
    { Sink.forRequest enquiry.slotFromMessage (Request.ofCommands enquiry.commands) with context := context }

/-- The dialogue is what the connection has been through since it was opened. -/
structure Mirrors (link : Link ρ) (d : Dialogue (Sink ρ)) : Prop where
  up : d.down = false
  pipeline : link.system.pipeline = d.pipeline.relabel link.name
  named : Sinks.Named link.name d.sinks link.system.sinks
  stocked : d.pipeline.Stocked d.sinks
  served : ∀ i < d.sinks.cells.length, i ∈ d.pipeline.refs ∨ d.sinks.isComplete i = true
  made : ∃ origin, d.sinks.Told origin ∧ List.Forall₂ Made link.asked origin
  asked : d.asked = link.asked.mapIdx fun i enquiry => ⟨i, enquiry.commands⟩
  inbox : d.inbox = link.inbox
  answered : d.answered = link.answered
  writes : Writes link.system.writer d.pipeline d.unreported
  reads : Reads link.system.reader link.system.parser link.outbox d.parser d.outbox
  inside : d.parser.Inside

end Link

end Rediscoro.Connection

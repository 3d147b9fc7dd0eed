import Rediscoro.Connection.Opening

/-! As long as a connection is open, it is a dialogue with its server.

From the step of `do_connect` that sets OPEN on, whatever the coroutines of the connection and the socket
do is a turn of a dialogue or none at all.
-/

set_option autoImplicit false

namespace Rediscoro.Connection

open Rediscoro.Semantics Rediscoro.Resp3 Rediscoro.Pipeline

theorem Loop.idle_of_resting {κ : Type} {loop : Loop κ} (rests : loop.resting = true) (call : κ) :
    loop ≠ .busy call := by
  rintro rfl
  cases rests

namespace Link

variable {ρ : Type} {link : Link ρ} {d : Dialogue (Sink ρ)} {s : System ρ}

theorem Writes.rests {writer : Loop WriteCall} {pipeline : Pipeline} {unreported : Option Nat}
    (writes : Writes writer pipeline unreported) (idle : ∀ call, writer ≠ .busy call) : unreported = none := by
  cases writer with
  | busy call => exact absurd rfl (idle call)
  | _ => exact writes

theorem Reads.rests {reader : Loop ReadCall} {ready parser : Parser Buffer View} {outbox waiting : Bytes}
    (reads : Reads reader ready outbox parser waiting) (idle : ∀ call, reader ≠ .busy call) :
    ready = parser ∧ waiting = outbox := by
  cases reader with
  | busy call => exact absurd rfl (idle call)
  | _ => exact reads

/-- The write queue keeps its front. -/
theorem Writes.congr {writer : Loop WriteCall} {pipeline next : Pipeline} {unreported : Option Nat}
    (writes : Writes writer pipeline unreported) (same : next.nextWriteBuffer = pipeline.nextWriteBuffer) :
    Writes writer next unreported := by
  unfold Writes at writes ⊢
  rwa [same]

/-- A request is queued behind the others. -/
theorem Writes.push {writer : Loop WriteCall} {pipeline next : Pipeline} {unreported : Option Nat}
    (writes : Writes writer pipeline unreported) {req : Request} {ref : SinkRef} {deadline : TimePoint}
    (pushed : pipeline.push req ref deadline = some next) : Writes writer next unreported := by
  cases writer with
  | busy call =>
    obtain ⟨sink, size, op⟩ := call
    rcases op with - | (err | n)
    · obtain ⟨idle, buffer, shown, length⟩ := writes
      refine ⟨idle, buffer, ?_, length⟩
      obtain ⟨front, head, rfl⟩ := Option.map_eq_some_iff.mp shown
      rw [push_eq_some pushed, nextWriteBuffer, List.head?_append, head]
      rfl
    · trivial
    · exact writes
  | _ => exact writes

/-- More answers are under way. -/
theorem Reads.append {reader : Loop ReadCall} {ready parser : Parser Buffer View} {outbox waiting : Bytes}
    (reads : Reads reader ready outbox parser waiting) (more : Bytes) :
    Reads reader ready (outbox ++ more) parser (waiting ++ more) := by
  cases reader with
  | busy call =>
    obtain ⟨room, resets, op⟩ := call
    rcases op with - | (err | octets)
    · exact ⟨reads.1, reads.2.1, congrArg (· ++ more) reads.2.2⟩
    · trivial
    · intro nonempty
      obtain ⟨same, fits, whole⟩ := reads nonempty
      exact ⟨same, fits, by rw [whole, List.append_assoc]⟩
  | _ => exact ⟨reads.1, congrArg (· ++ more) reads.2⟩

namespace Mirrors

/-- The loops go on, and the requests are left alone. -/
theorem resume (mirrors : Mirrors link d) (pipeline : s.pipeline = link.system.pipeline)
    (sinks : s.sinks = link.system.sinks) (writes : Writes s.writer d.pipeline d.unreported)
    (reads : Reads s.reader s.parser link.outbox d.parser d.outbox) : Mirrors { link with system := s } d where
  up := mirrors.up
  pipeline := pipeline.trans mirrors.pipeline
  named := ⟨mirrors.named.apart, fun i inside => by
    dsimp only
    rw [sinks]
    exact mirrors.named.found i inside⟩
  stocked := mirrors.stocked
  served := mirrors.served
  made := mirrors.made
  asked := mirrors.asked
  inbox := mirrors.inbox
  answered := mirrors.answered
  writes := writes
  reads := reads
  inside := mirrors.inside

theorem same (mirrors : Mirrors link d) (same : link.system.Same s) : Mirrors { link with system := s } d := by
  apply mirrors.resume same.pipeline same.sinks
  · rw [same.writer]
    exact mirrors.writes
  · rw [same.reader, same.parser]
    exact mirrors.reads

/-- `write_loop` looks for something to write. -/
theorem writeTop (mirrors : Mirrors { link with system := s } d) (rests : ∀ call, s.writer ≠ .busy call)
    (token : Token) : Mirrors { link with system := s.writeTop token } d := by
  have unreported := mirrors.writes.rests rests
  have idle {writer : Loop WriteCall} (rests : ∀ call, writer ≠ .busy call) :
      Writes writer d.pipeline d.unreported := by
    cases writer with
    | busy call => exact absurd rfl (rests call)
    | _ => exact unreported
  unfold System.writeTop
  split
  · exact mirrors.resume rfl rfl (idle (by simp)) mirrors.reads
  · split
    · split
      · exact mirrors.resume rfl rfl (idle (by simp)) mirrors.reads
      · rename_i call issued
        refine mirrors.resume rfl rfl ?_ mirrors.reads
        obtain ⟨front, head, rfl⟩ := Option.map_eq_some_iff.mp issued
        -- the buffer that is written is the one in front
        have shown : d.pipeline.nextWriteBuffer = some front.unwritten := by
          rw [← nextWriteBuffer_relabel, ← mirrors.pipeline, nextWriteBuffer, head]
          rfl
        unfold System.issue
        by_cases connected : s.socketOpen = true
        · rw [if_pos connected]
          exact ⟨unreported, _, shown, rfl⟩
        · rw [if_neg connected]
          trivial
    · exact mirrors.resume rfl rfl (idle (by simp)) mirrors.reads

/-- `read_loop` goes round. -/
theorem readTop (mirrors : Mirrors { link with system := s } d) (rests : ∀ call, s.reader ≠ .busy call)
    (token : Token) : Mirrors { link with system := s.readTop token } d := by
  obtain ⟨parser, waiting⟩ := mirrors.reads.rests rests
  unfold System.readTop
  split
  · exact mirrors.resume rfl rfl mirrors.writes ⟨parser, waiting⟩
  · split
    · refine mirrors.resume rfl rfl mirrors.writes ?_
      unfold System.nextRead System.issue
      by_cases connected : s.socketOpen = true
      · rw [if_pos connected]
        exact ⟨by rw [← parser]; rfl, rfl, waiting⟩
      · rw [if_neg connected]
        trivial
    · exact mirrors.resume rfl rfl mirrors.writes ⟨parser, waiting⟩

section Turns

variable [FloatChars] (fuel : Nat)

/-- A write is reported as it was to the dialogue. -/
theorem report (mirrors : Mirrors link d) {n : Nat} (wakeups : Nat) {pipeline : Pipeline}
    (taken : d.unreported = some n) (applied : link.system.pipeline.onWriteDone n = some pipeline) :
    ∃ d', d.step fuel .report = some d' ∧
      Mirrors { link with
        system := { link.system with writer := .running, pipeline := pipeline, readWakeup := wakeups } } d' := by
  rw [mirrors.pipeline, onWriteDone_relabel] at applied
  obtain ⟨next, done, rfl⟩ := Option.map_eq_some_iff.mp applied
  refine ⟨{ d with pipeline := next, unreported := none }, ?_, ?_⟩
  · simp [Dialogue.step, mirrors.up, taken, Line.step, done]
  · exact { mirrors with
      pipeline := rfl
      named := ⟨mirrors.named.apart, mirrors.named.found⟩
      stocked := mirrors.stocked.perm (refs_onWriteDone done)
      served := fun i inside => (mirrors.served i inside).imp_left (refs_onWriteDone done).mem_iff.mpr
      writes := rfl
      reads := mirrors.reads }

/-- The octets of a read are parsed as those of the dialogue. -/
theorem read (mirrors : Mirrors link d) {call : ReadCall} {memory : Memory} {octets : Bytes} {outcome : Outcome}
    {x : Exchange (Sink ρ)} (busy : link.system.reader = .busy call) (arrived : call.op = .ready (.ok octets))
    (nonempty : octets ≠ []) (parsed : link.system.consume fuel memory octets (fun _ => false) = (outcome, x))
    (waits : outcome = .starved ∨ outcome = .complete) :
    ∃ d', d.step fuel (.read octets.length memory) = some d' ∧
      Mirrors { link with
        system := (({ link.system with reader := .running }.note
          (.committed call.resets link.system.resets)).consumed x).leave call.resets } d' := by
  obtain ⟨room, resets, op⟩ := call
  cases arrived
  have reads := mirrors.reads
  rw [busy] at reads
  obtain ⟨ready, fits, whole⟩ := reads nonempty
  have front : d.outbox.take octets.length = octets := by rw [whole, List.take_left]
  -- both loops parse the same octets
  have alike : Exchange.Alike link.name ⟨d.parser.feed 4096 octets, d.pipeline, d.sinks⟩
      { parser := { link.system.parser with
          input := (link.system.parser.input.write octets).commit octets.length }
        pipeline := link.system.pipeline, sinks := link.system.sinks } :=
    ⟨by rw [ready]; rfl, mirrors.pipeline, mirrors.named, mirrors.stocked⟩
  have ends := alike.dispatch fuel memory
  rw [System.consume] at parsed
  rw [parsed] at ends
  cases result : Exchange.dispatch fuel memory (fun _ => false)
      (⟨d.parser.feed 4096 octets, d.pipeline, d.sinks⟩ : Exchange (Sink ρ)) with
  | mk outcome' z =>
    rw [result] at ends
    obtain ⟨same, after⟩ := ends
    obtain rfl : outcome = outcome' := same
    obtain ⟨origin, told, made⟩ := mirrors.made
    have kept := Exchange.dispatch_told (x := ⟨d.parser.feed 4096 octets, d.pipeline, d.sinks⟩) told
      (Parser.feed_inside mirrors.inside) fuel memory fun _ => false
    have answered := Exchange.dispatch_answered fuel memory (fun _ => false)
      (⟨d.parser.feed 4096 octets, d.pipeline, d.sinks⟩ : Exchange (Sink ρ))
    rw [result] at kept answered
    have received : d.toLine.receive fuel memory octets =
        some { d.toLine with toExchange := z, heard := d.heard ++ octets } := by
      rw [Line.receive, if_neg nonempty, result]
      rcases waits with rfl | rfl <;> rfl
    refine ⟨{ d with
      toLine := { d.toLine with toExchange := z, heard := d.heard ++ octets }
      outbox := d.outbox.drop octets.length }, ?_, ?_⟩
    · have positive := List.length_pos_iff.mpr nonempty
      have enough : octets.length ≤ d.outbox.length := by
        rw [whole, List.length_append]
        exact Nat.le_add_right _ _
      rw [ready] at fits
      have allowed : 0 < octets.length ∧ octets.length ≤ d.outbox.length ∧
          octets.length ≤ (d.parser.input.prepare 4096).available := ⟨positive, enough, fits⟩
      simp [Dialogue.step, mirrors.up, allowed, Line.step, front, received]
    · exact
        { up := mirrors.up
          pipeline := after.pipeline
          named := after.sinks
          stocked := after.stocked
          served := answered.all_served mirrors.served
          made := ⟨origin, kept.1, made⟩
          asked := mirrors.asked
          inbox := mirrors.inbox
          answered := mirrors.answered
          writes := mirrors.writes.congr (by rw [nextWriteBuffer, nextWriteBuffer, answered.pendingWrite])
          reads := ⟨after.parser, by
            dsimp only
            rw [whole, List.drop_left]⟩
          inside := kept.2 }

/-- The socket takes octets of the buffer in front. -/
theorem send (mirrors : Mirrors link d) {call next : WriteCall} {n : Nat} (busy : link.system.writer = .busy call)
    (answered : call.complete (.ok n) = some next) :
    ∃ d', d.step fuel (.send n) = some d' ∧
      Mirrors { link with
        system := { link.system with writer := .busy next }
        inbox := link.inbox ++ (link.system.pipeline.nextWriteBuffer.getD []).take n } d' := by
  obtain ⟨sink, size, op⟩ := call
  have writes := mirrors.writes
  rw [busy] at writes
  cases op with
  | ready result => cases answered
  | pending =>
    obtain ⟨idle, buffer, shown, length⟩ := writes
    simp only [WriteCall.complete] at answered
    split at answered
    · rename_i fits
      cases answered
      have same : link.system.pipeline.nextWriteBuffer = some buffer := by
        rw [mirrors.pipeline, nextWriteBuffer_relabel, shown]
      refine ⟨{ d with unreported := some n, inbox := d.inbox ++ buffer.take n }, ?_, ?_⟩
      · simp [Dialogue.step, mirrors.up, idle, shown, length, fits]
      · exact { mirrors with
          inbox := by rw [mirrors.inbox, same, Option.getD_some]
          writes := rfl
          reads := mirrors.reads }
    · cases answered

/-- The server answers. -/
theorem answer (mirrors : Mirrors link d) {words : List Bytes} (front : (Command.message words).encode <+: link.inbox)
    (value : Sentence) :
    ∃ d', d.step fuel (.answer words value) = some d' ∧
      Mirrors { link with
        inbox := link.inbox.drop (Command.message words).encode.length
        answered := link.answered ++ [⟨words, value⟩]
        outbox := link.outbox ++ value.encode } d' := by
  have front : (Command.message words).encode <+: d.inbox := mirrors.inbox ▸ front
  refine ⟨{ d with
    inbox := d.inbox.drop (Command.message words).encode.length
    answered := d.answered ++ [⟨words, value⟩]
    outbox := d.outbox ++ value.encode }, by simp [Dialogue.step, mirrors.up, front], ?_⟩
  exact { mirrors with
    inbox := by rw [mirrors.inbox]
    answered := by rw [mirrors.answered]
    reads := mirrors.reads.append _ }

omit [FloatChars] in
/-- The socket hands octets over to a read. -/
theorem receive (mirrors : Mirrors link d) {call next : ReadCall} {n : Nat} (busy : link.system.reader = .busy call)
    (answered : call.complete (.ok (link.outbox.take n)) = some next) :
    Mirrors { link with
      system := { link.system with reader := .busy next }
      outbox := link.outbox.drop n } d := by
  obtain ⟨room, resets, op⟩ := call
  have reads := mirrors.reads
  rw [busy] at reads
  cases op with
  | ready result => cases answered
  | pending =>
    obtain ⟨ready, same, waiting⟩ := reads
    simp only [ReadCall.complete] at answered
    split at answered
    · rename_i fits
      cases answered
      exact { mirrors with
        reads := fun _ => ⟨ready, same ▸ fits, by rw [waiting, List.take_append_drop]⟩ }
    · cases answered

end Turns

/-! A request is made. -/

theorem refs_lt (mirrors : Mirrors link d) {ref : SinkRef} (queued : ref ∈ link.system.pipeline.refs) :
    ref < link.system.sinks.cells.length := by
  rw [mirrors.pipeline, refs_relabel] at queued
  obtain ⟨i, member, rfl⟩ := List.mem_map.mp queued
  exact mirrors.named.lt (mirrors.stocked.bound member)

theorem size (mirrors : Mirrors link d) : d.sinks.cells.length = link.asked.length := by
  obtain ⟨origin, told, made⟩ := mirrors.made
  rw [told.size, made.length_eq]

/-- A request that is refused concerns nobody else. -/
theorem refuse (mirrors : Mirrors link d) (pipeline : s.pipeline = link.system.pipeline)
    (sinks : ∀ ref < link.system.sinks.cells.length, s.sinks.cells[ref]? = link.system.sinks.cells[ref]?)
    (writer : s.writer = link.system.writer) (reader : s.reader = link.system.reader)
    (parser : s.parser = link.system.parser) : Mirrors { link with system := s } d :=
  { mirrors with
    pipeline := pipeline.trans mirrors.pipeline
    named := ⟨mirrors.named.apart, fun i inside =>
      (sinks _ (mirrors.named.lt inside)).trans (mirrors.named.found i inside)⟩
    writes := writer ▸ mirrors.writes
    reads := by
      dsimp only
      rw [reader, parser]
      exact mirrors.reads }

section Asking

theorem name_earlier {enquiry : Enquiry ρ} {asked : List (Enquiry ρ)} {i : SinkRef} (inside : i < link.asked.length)
    (behind : asked = link.asked ++ [enquiry]) : Link.name { link with asked := asked } i = link.name i := by
  rw [Link.name, Link.name, behind, List.getElem?_append_left inside]

theorem name_last {enquiry : Enquiry ρ} {asked : List (Enquiry ρ)} (behind : asked = link.asked ++ [enquiry]) :
    Link.name { link with asked := asked } link.asked.length = enquiry.ref := by
  rw [Link.name, behind, List.getElem?_append_right (Nat.le_refl _), Nat.sub_self]
  rfl

/-- A request that is queued is one of the dialogue. -/
theorem accept [FloatChars] (fuel : Nat) (mirrors : Mirrors link d) {sink : Sink ρ}
    {deadline : TimePoint} {pipeline : Pipeline} {enquiry : Enquiry ρ} {asked : List (Enquiry ρ)}
    (made : Made enquiry sink) (own : enquiry.ref = link.system.sinks.cells.length)
    (pushed : link.system.pipeline.push (Request.ofCommands enquiry.commands) enquiry.ref deadline = some pipeline)
    (behind : asked = link.asked ++ [enquiry]) (queued : s.pipeline = pipeline)
    (cells : s.sinks.cells = link.system.sinks.cells ++ [sink]) (writer : s.writer = link.system.writer)
    (reader : s.reader = link.system.reader) (parser : s.parser = link.system.parser) :
    ∃ d', d.step fuel (.ask enquiry.commands sink deadline) = some d' ∧
      Mirrors { link with system := s, asked := asked } d' := by
  have size := mirrors.size
  have earlier {i : SinkRef} (inside : i < d.sinks.cells.length) :
      Link.name { link with asked := asked } i = link.name i := name_earlier (size ▸ inside) behind
  have last : Link.name { link with asked := asked } d.sinks.cells.length = enquiry.ref := by
    rw [size]
    exact name_last behind
  -- the names of the queued requests are the old ones
  have same : link.system.pipeline = d.pipeline.relabel (Link.name { link with asked := asked }) := by
    rw [mirrors.pipeline]
    apply relabel_congr
    intro ref member
    exact (earlier (mirrors.stocked.bound member)).symm
  rw [same, ← last, push_relabel] at pushed
  obtain ⟨next, accepted, renamed⟩ := Option.map_eq_some_iff.mp pushed
  have open' : ResponseSink.isComplete sink = false := by
    obtain ⟨context, rfl⟩ := made
    rfl
  refine ⟨{ d with
    toLine := { d.toLine with
      pipeline := next
      sinks := (d.sinks.alloc sink).2
      tickets := d.tickets ++ [⟨d.sinks.cells.length, Request.ofCommands enquiry.commands⟩] }
    asked := d.asked ++ [⟨d.sinks.cells.length, enquiry.commands⟩] }, ?_, ?_⟩
  · have allocated : (d.sinks.alloc sink).1 = d.sinks.cells.length := rfl
    simp [Dialogue.step, mirrors.up, Line.accept, allocated, accepted]
  · obtain ⟨origin, told, all⟩ := mirrors.made
    have length : (d.sinks.alloc sink).2.cells.length = d.sinks.cells.length + 1 := List.length_append
    exact
      { up := mirrors.up
        pipeline := queued.trans renamed.symm
        named := mirrors.named.concat (fun _ => earlier) (last.trans own) rfl cells
        stocked := mirrors.stocked.push accepted rfl open'
        served := by
          have queue := refs_push accepted
          intro i inside
          rw [length, Nat.lt_succ_iff_lt_or_eq] at inside
          rcases inside with inside | rfl
          · apply (mirrors.served i inside).imp
            · exact fun waits => queue.mem_iff.mpr (List.mem_cons_of_mem _ waits)
            · intro complete
              rw [Sinks.isComplete, Sinks.alloc, List.getElem?_append_left inside]
              exact complete
          · exact .inl (queue.mem_iff.mpr List.mem_cons_self)
        made := ⟨origin ++ [sink], told.alloc sink, by
          dsimp only
          rw [behind]
          exact List.rel_append all (.cons made .nil)⟩
        asked := by
          dsimp only
          rw [mirrors.asked, behind, List.mapIdx_concat, size]
        inbox := mirrors.inbox
        answered := mirrors.answered
        writes := by
          dsimp only
          rw [writer]
          exact mirrors.writes.push accepted
        reads := by
          dsimp only
          rw [reader, parser]
          exact mirrors.reads
        inside := mirrors.inside }

end Asking

end Mirrors

/-! Turn by turn. -/

section Turns

variable [FloatChars] {fuel : Nat} {next last : Link ρ}

/-- The dialogue rests while the link takes the turn, or takes a turn of its own. -/
inductive Advances (fuel : Nat) (d : Dialogue (Sink ρ)) (link : Link ρ) (turn : Turn ρ) (next : Link ρ) : Prop where
  | rests (mirrors : Mirrors next d)
  | takes (move : Dialogue.Turn (Sink ρ)) {d' : Dialogue (Sink ρ)} (lawful : move.Lawful) (sound : d.Sound move)
      (calm : link.Calm turn → d.Calm move) (stepped : d.step fuel move = some d') (mirrors : Mirrors next d')

section Reading

variable {octets : Bytes} {memory : Memory} (ready : link.system.parser = prepared d.parser)

include ready

omit [FloatChars] in
/-- The colons that are found when a read goes on. -/
theorem colons_ready (colons : link.system.parser.Colons memory) : (d.parser.feed 4096 octets).Colons memory := by
  rw [ready] at colons
  intro node member verbatim nonempty
  have here := colons node member verbatim nonempty
  exact here

omit [FloatChars] in
/-- No text of the unfinished message is moved. -/
theorem Mirrors.undisturbed (mirrors : Mirrors link d) (calm : link.Calm (.act (.readerResume memory))) :
    d.parser.Undisturbed 4096 := by
  intro grows node member textual
  by_contra nonempty
  have here := calm rfl
  rw [ready] at here
  have moved : node.text.storage = (d.parser.input.prepare 4096).storage := here node member textual nonempty
  -- the storage that was prepared is new, and the text was there before it
  have before := (mirrors.inside node member).2
  rw [moved, Buffer.storage_prepare, if_pos grows] at before
  exact Nat.not_succ_le_self _ before

end Reading

theorem act_advances {act : Act ρ} (mirrors : Mirrors link d) (quiet : act.quiet = true) (fair : link.Fair (.act act))
    (stays : System.Stays fuel link.system act s) : Advances fuel d link (.act act) { link with system := s } := by
  cases stays with
  | same unchanged => exact .rests (mirrors.same unchanged)
  | enqueue enqueued => cases quiet
  | actorStart token writer reader =>
    have writes := mirrors.writes
    have reads := mirrors.reads
    rw [writer] at writes
    rw [reader] at reads
    exact .rests (mirrors.resume rfl rfl writes reads)
  | writerRun token wakeups rests =>
    have woken : Mirrors { link with system := { link.system with writeWakeup := wakeups } } d :=
      mirrors.resume rfl rfl mirrors.writes mirrors.reads
    exact .rests (woken.writeTop (Loop.idle_of_resting rests) token)
  | @writerComplete call next result busy answered =>
    cases result with
    | ok n => cases quiet
    | error err =>
      -- the loop that is resumed with an error leaves OPEN, so nothing is known of this write any more
      apply Advances.rests
      refine mirrors.resume rfl rfl ?_ mirrors.reads
      obtain ⟨sink, size, op⟩ := call
      cases op with
      | pending =>
        cases answered
        trivial
      | ready result => cases answered
  | @writerResume call n pipeline token wakeups busy done applied =>
    have taken : d.unreported = some n := by
      have writes := mirrors.writes
      obtain ⟨sink, size, op⟩ := call
      cases done
      rwa [busy] at writes
    obtain ⟨d', stepped, after⟩ := mirrors.report fuel wakeups taken applied
    exact .takes .report trivial trivial (fun _ => trivial) stepped
      (after.writeTop (Loop.idle_of_resting rfl) token)
  | readerRun token wakeups rests =>
    have woken : Mirrors { link with system := { link.system with readWakeup := wakeups } } d :=
      mirrors.resume rfl rfl mirrors.writes mirrors.reads
    exact .rests (woken.readTop (Loop.idle_of_resting rests) token)
  | @readerComplete call next result busy answered =>
    apply Advances.rests
    refine mirrors.resume rfl rfl mirrors.writes ?_
    obtain ⟨room, resets, op⟩ := call
    cases op with
    | ready result => cases answered
    | pending =>
      cases result with
      | error err =>
        cases answered
        trivial
      | ok octets =>
        -- the end of the stream brings no octets of the server
        have none : octets = [] := of_decide_eq_true quiet
        simp only [ReadCall.complete] at answered
        split at answered
        · cases answered
          exact fun nonempty => absurd none nonempty
        · cases answered
  | @readerResume call memory octets outcome x token busy arrived nonempty parsed waits =>
    -- the room was prepared when the read was issued, and nothing has touched the parser since
    have ready : link.system.parser = prepared d.parser := by
      have reads := mirrors.reads
      obtain ⟨room, resets, op⟩ := call
      cases arrived
      rw [busy] at reads
      exact (reads nonempty).1
    obtain ⟨d', stepped, after⟩ := mirrors.read fuel busy arrived nonempty parsed waits
    exact .takes (.read octets.length memory) trivial (colons_ready ready (fair.2.2 memory rfl))
      (mirrors.undisturbed ready) stepped (after.readTop (Loop.idle_of_resting rfl) token)

theorem ask_advances {commands : List Command} {slotFromMessage : Nat → Message → Except ErrorInfo ρ}
    {asked : List (Enquiry ρ)} (mirrors : Mirrors link d) (asks : commands ≠ [])
    (enqueued : System.Enqueued fuel link.system (Request.ofCommands commands) slotFromMessage s)
    (refuses : link.system.sinks.cells.length ∉ s.pipeline.refs → asked = link.asked)
    (accepts : link.system.sinks.cells.length ∈ s.pipeline.refs →
      asked = link.asked ++ [⟨link.system.sinks.cells.length, commands, slotFromMessage⟩]) :
    Advances fuel d link (.ask commands slotFromMessage) { link with system := s, asked := asked } := by
  cases enqueued with
  | @rejected errc finish sinks refused same failed =>
    have fresh : link.system.sinks.cells.length ∉ link.system.pipeline.refs :=
      fun queued => Nat.lt_irrefl _ (mirrors.refs_lt queued)
    have others := (Sinks.failAll_refused failed).others
    obtain rfl := refuses fresh
    refine .rests (mirrors.refuse rfl (fun ref inside => ?_) rfl rfl rfl)
    exact (others ref (Nat.ne_of_lt inside)).trans (List.getElem?_append_left inside)
  | @queued pipeline opened pushed =>
    obtain ⟨context, -, cells⟩ :=
      Traffic.cells_install link.system.traffic (Request.ofCommands commands) slotFromMessage
    have queued : link.system.sinks.cells.length ∈ pipeline.refs := (refs_push pushed).mem_iff.mpr List.mem_cons_self
    have positive : 0 < (Request.ofCommands commands).replyCount := by
      rw [Request.replyCount, Request.ofCommands_commandCount]
      exact List.length_pos_iff.mpr asks
    have accepted {t : System ρ} (same : t.pipeline = pipeline)
        (made : t.sinks.cells = link.system.sinks.cells ++
          [{ Sink.forRequest slotFromMessage (Request.ofCommands commands) with context := context }])
        (writer : t.writer = link.system.writer) (reader : t.reader = link.system.reader)
        (parser : t.parser = link.system.parser) :
        Advances fuel d link (.ask commands slotFromMessage) { link with system := t, asked := asked } := by
      obtain ⟨d', stepped, after⟩ := mirrors.accept fuel ⟨context, rfl⟩ rfl pushed (accepts queued) same made writer
        reader parser
      have counts : Counts { Sink.forRequest slotFromMessage (Request.ofCommands commands) with context := context }
          (Request.ofCommands commands).replyCount := (Sink.Filled.start positive context).counts
      have lawful : Dialogue.Turn.Lawful (.ask commands _ link.system.deadline) :=
        ⟨asks, Request.ofCommands_commandCount commands, counts⟩
      exact .takes _ lawful trivial (fun _ => trivial) stepped after
    exact accepted rfl cells rfl rfl rfl

/-- A turn of an open link that stays open is a turn of the dialogue, or none. -/
theorem step_advances [Inhabited ρ] {turn : Turn ρ} (mirrors : Mirrors link d) (exclusive : link.system.life.Exclusive)
    (manned : link.system.life.Manned) (fair : link.Fair turn) (stepped : link.step fuel turn = some next)
    (still : next.system.state = .opened) : Advances fuel d link turn next := by
  cases turn with
  | act act =>
    simp only [step] at stepped
    split at stepped
    · rename_i quiet
      obtain ⟨s, moved, rfl⟩ := Option.map_eq_some_iff.mp stepped
      exact act_advances mirrors quiet fair (System.stays_open exclusive manned fair.1 moved still)
    · cases stepped
  | ask commands slotFromMessage =>
    obtain ⟨s, enqueued, rfl⟩ := Option.map_eq_some_iff.mp stepped
    have asks : commands ≠ [] := by simpa [Turn.proper] using fair.2.1
    exact ask_advances mirrors asks (System.enqueue_cases enqueued) (fun fresh => if_neg fresh)
      fun queued => if_pos queued
  | send n =>
    obtain ⟨s, completed, rfl⟩ := Option.map_eq_some_iff.mp stepped
    simp only [System.step, System.writerComplete] at completed
    split at completed
    · rename_i call busy
      obtain ⟨answer, answered, rfl⟩ := Option.map_eq_some_iff.mp completed
      obtain ⟨d', sent, after⟩ := mirrors.send fuel busy answered
      exact .takes (.send n) trivial trivial (fun _ => trivial) sent after
    · cases completed
  | answer words value =>
    simp only [step] at stepped
    split at stepped
    · rename_i front
      cases stepped
      obtain ⟨d', answered, after⟩ := mirrors.answer fuel front value
      exact .takes (.answer words value) trivial trivial (fun _ => trivial) answered after
    · cases stepped
  | receive n =>
    simp only [step] at stepped
    split at stepped
    · obtain ⟨s, completed, rfl⟩ := Option.map_eq_some_iff.mp stepped
      simp only [System.step, System.readerComplete] at completed
      split at completed
      · rename_i call busy
        obtain ⟨answer, answered, rfl⟩ := Option.map_eq_some_iff.mp completed
        exact .rests (mirrors.receive busy answered)
      · cases completed
    · cases stepped

/-- A turn of the link is a step of its connection, or one of the server. -/
theorem step_system [Inhabited ρ] {turn : Turn ρ} (stepped : link.step fuel turn = some next) :
    next.system = link.system ∨ ∃ act, link.system.step fuel act = some next.system := by
  cases turn with
  | act act =>
    simp only [step] at stepped
    split at stepped
    · obtain ⟨s, moved, rfl⟩ := Option.map_eq_some_iff.mp stepped
      exact .inr ⟨_, moved⟩
    · cases stepped
  | ask commands slotFromMessage =>
    obtain ⟨s, moved, rfl⟩ := Option.map_eq_some_iff.mp stepped
    exact .inr ⟨_, moved⟩
  | send n =>
    obtain ⟨s, moved, rfl⟩ := Option.map_eq_some_iff.mp stepped
    exact .inr ⟨_, moved⟩
  | answer words value =>
    simp only [step] at stepped
    split at stepped
    · cases stepped
      exact .inl rfl
    · cases stepped
  | receive n =>
    simp only [step] at stepped
    split at stepped
    · obtain ⟨s, moved, rfl⟩ := Option.map_eq_some_iff.mp stepped
      exact .inr ⟨_, moved⟩
    · cases stepped

theorem step_values [Inhabited ρ] {turn : Turn ρ} (stepped : link.step fuel turn = some next) :
    next.answered.map Answer.value = link.answered.map Answer.value ++ turn.values := by
  cases turn with
  | answer words value =>
    simp only [step] at stepped
    split at stepped
    · cases stepped
      exact List.map_append
    · cases stepped
  | _ =>
    simp only [step, Option.ite_none_right_eq_some, Option.map_eq_some_iff] at stepped
    grind [Turn.values]

/-- What the server has answered is what it chose to, turn by turn. -/
theorem run_values [Inhabited ρ] {turns : List (Turn ρ)} (run : runFrom (step fuel) link turns = some last) :
    last.answered.map Answer.value = link.answered.map Answer.value ++ turns.flatMap Turn.values := by
  induction turns generalizing link with
  | nil =>
    cases run
    exact (List.append_nil _).symm
  | cons turn rest ih =>
    obtain ⟨next, stepped, later⟩ := runFrom_cons run
    rw [ih later, step_values stepped, List.append_assoc, List.flatMap_cons]

theorem run_extends [Inhabited ρ] {turns : List (Turn ρ)} (run : runFrom (step fuel) link turns = some last) :
    link.system.log <+: last.system.log := by
  induction turns generalizing link with
  | nil =>
    cases run
    exact List.prefix_refl _
  | cons turn rest ih =>
    obtain ⟨next, stepped, later⟩ := runFrom_cons run
    rcases step_system stepped with same | ⟨act, moved⟩
    · exact same ▸ ih later
    · exact (System.step_extends moved).1.trans (ih later)

/-- While the connection is open, its run with the server is one of the dialogue. -/
theorem run_advances [Inhabited ρ] {cfg : Config} {turns : List (Turn ρ)} (mirrors : Mirrors link d)
    (reached : System.Reached fuel cfg link.system) (fair : Guarded (step fuel) Fair link turns)
    (run : runFrom (step fuel) link turns = some last) (opened : last.system.state = .opened)
    (solo : ∀ entry ∈ last.system.log, entry.solo = true) :
    ∃ moves d', (∀ move ∈ moves, move.Lawful) ∧ Guarded (Dialogue.step fuel) Dialogue.Sound d moves ∧
      (Guarded (step fuel) Calm link turns → Guarded (Dialogue.step fuel) Dialogue.Calm d moves) ∧
      runFrom (Dialogue.step fuel) d moves = some d' ∧ Mirrors last d' := by
  induction turns generalizing link d with
  | nil =>
    cases run
    exact ⟨[], d, List.forall_mem_nil _, trivial, fun _ => trivial, rfl, mirrors⟩
  | cons turn rest ih =>
    obtain ⟨next, stepped, later⟩ := runFrom_cons run
    have before : ∀ entry ∈ link.system.log, entry.solo = true :=
      fun entry member => solo entry ((run_extends run).subset member)
    -- the next turn finds the connection open, and so does whoever looks at the end
    have still : next.system.state = .opened := by
      cases rest with
      | nil =>
        cases later
        exact opened
      | cons second others => exact (fair.tail stepped).1.1
    have after : System.Reached fuel cfg next.system := by
      rcases step_system stepped with same | ⟨act, moved⟩
      · exact same ▸ reached
      · exact reached.step moved
    have advances := step_advances mirrors (reached.exclusive before).1 reached.manned fair.1 stepped still
    -- the induction is on the turns of the link; the dialogue takes fewer
    cases advances with
    | rests mirrors =>
      obtain ⟨moves, d', lawful, sound, calm, run, mirrors⟩ := ih mirrors after (fair.tail stepped) later
      exact ⟨moves, d', lawful, sound, fun quiet => calm (quiet.tail stepped), run, mirrors⟩
    | takes move lawful sound calm moved mirrors =>
      obtain ⟨moves, d', all, guarded, quiet, run, mirrors⟩ := ih mirrors after (fair.tail stepped) later
      refine ⟨move :: moves, d', List.forall_mem_cons.mpr ⟨lawful, all⟩, .cons sound moved guarded,
        fun still => .cons (calm still.1) moved (quiet (still.tail stepped)), ?_, mirrors⟩
      rw [runFrom, moved]
      exact run

end Turns

/-! From the opening on. -/

section Opened

variable [FloatChars] {fuel : Nat}

omit [FloatChars] in
theorem start_mirrors (fresh : s.Untouched) : Mirrors { system := s } (Dialogue.start s.parser s.pipeline.limits) where
  up := rfl
  pipeline := fresh.pipeline
  named := ⟨fun _ _ inside => absurd inside (Nat.not_lt_zero _), fun _ inside => absurd inside (Nat.not_lt_zero _)⟩
  stocked := .empty rfl _
  served := fun _ inside => absurd inside (Nat.not_lt_zero _)
  made := ⟨[], ⟨rfl, List.forall_mem_nil _⟩, .nil⟩
  asked := rfl
  inbox := rfl
  answered := rfl
  writes := by
    have writer := fresh.writer
    cases busy : s.writer with
    | busy call =>
      have spent := writer call busy
      obtain ⟨sink, size, op⟩ := call
      rcases op with - | (err | n)
      · cases spent
      · trivial
      · cases spent
    | _ => rfl
  reads := by
    have reader := fresh.reader
    cases busy : s.reader with
    | busy call =>
      have idle := reader call busy
      obtain ⟨room, resets, op⟩ := call
      rcases op with - | (err | octets)
      · cases idle
      · trivial
      · intro nonempty
        simp [ReadCall.promising, nonempty] at idle
    | _ => exact ⟨fresh.parser, rfl⟩
  inside := by
    intro node member
    cases member

omit [FloatChars] in
theorem Made.filled {enquiry : Enquiry ρ} {sink : Sink ρ} (made : Made enquiry sink) (asks : enquiry.commands ≠ []) :
    sink.Filled enquiry.slotFromMessage enquiry.commands.length [] := by
  have count : (Request.ofCommands enquiry.commands).replyCount = enquiry.commands.length :=
    Request.ofCommands_commandCount enquiry.commands
  obtain ⟨context, rfl⟩ := made
  rw [← count]
  apply Sink.Filled.start
  rw [count]
  exact List.length_pos_iff.mpr asks

omit [FloatChars] in
/-- The sink of an accepted request, as it was made and as the deliveries have left it. -/
theorem Mirrors.sink (mirrors : Mirrors link d) {i : Nat} {enquiry : Enquiry ρ}
    (place : link.asked[i]? = some enquiry) :
    ∃ first, Made enquiry first ∧
      d.sinks.cells[i]? = some ((deliveriesTo d.sinks.log i).foldl Pipeline.receive first) ∧
      link.system.sinks.cells[enquiry.ref]? = some ((deliveriesTo d.sinks.log i).foldl Pipeline.receive first) := by
  obtain ⟨origin, told, all⟩ := mirrors.made
  obtain ⟨inside, rfl⟩ := List.getElem?_eq_some_iff.mp place
  have within : i < origin.length := all.length_eq ▸ inside
  have here : d.sinks.cells[i]? = some ((deliveriesTo d.sinks.log i).foldl Pipeline.receive origin[i]) := by
    rw [told.found i, List.getElem?_eq_getElem within]
    rfl
  have named : link.name i = link.asked[i].ref := by
    rw [Link.name, place]
    rfl
  refine ⟨origin[i], all.get inside within, here, ?_⟩
  rw [← named, mirrors.named.found i (mirrors.size ▸ inside)]
  exact here

omit [FloatChars] in
/-- The requests of the dialogue are those of the link. -/
theorem Mirrors.asked_split (mirrors : Mirrors link d) {before after : List (Enquiry ρ)} {enquiry : Enquiry ρ}
    (asked : link.asked = before ++ enquiry :: after) :
    ∃ earlier later, d.asked = earlier ++ ⟨before.length, enquiry.commands⟩ :: later ∧
      d.answersTo earlier ⟨before.length, enquiry.commands⟩ = link.answersTo before enquiry := by
  refine ⟨_, _, by rw [mirrors.asked, asked, List.mapIdx_append, List.mapIdx_cons, Nat.zero_add], ?_⟩
  have words : (before.mapIdx fun i enquiry => (⟨i, enquiry.commands⟩ : Question)).flatMap Question.words =
      before.flatMap Enquiry.words := by
    have each : (before.mapIdx fun i enquiry => (⟨i, enquiry.commands⟩ : Question)).map Question.words =
        before.map Enquiry.words := by
      apply List.ext_getElem?
      intro j
      simp only [List.getElem?_map, List.getElem?_mapIdx, Option.map_map]
      rfl
    rw [List.flatMap_def, each, ← List.flatMap_def]
  rw [Dialogue.answersTo, answersTo, words, mirrors.answered]
  rfl

omit [FloatChars] in
/-- The sink of an accepted request holds what the first of its commands were answered with. -/
theorem Mirrors.filled {still : Prop} {n : Nat} (mirrors : Mirrors link d) (books : Dialogue.Books d)
    (served : d.toLine.Served still fuel d.values n) {before after : List (Enquiry ρ)} {enquiry : Enquiry ρ}
    (asked : link.asked = before ++ enquiry :: after) :
    ∃ k shown sink, link.system.sinks.cells[enquiry.ref]? = some sink ∧
      List.Forall₂ (Message.Renders still) shown
        (((link.answersTo before enquiry).take k).map fun answer => answer.value.message fuel) ∧
      sink.Filled enquiry.slotFromMessage enquiry.commands.length (shown.map Delivery.message) ∧
      (enquiry.ref ∈ link.system.pipeline.refs ∨ shown.length = enquiry.commands.length) := by
  have place : link.asked[before.length]? = some enquiry := by
    rw [asked, List.getElem?_append_right (Nat.le_refl _), Nat.sub_self]
    rfl
  obtain ⟨earlier, later, questions, answers⟩ := mirrors.asked_split asked
  -- as the line is up, nothing but replies was delivered
  have whole : d.sinks.log.take n = d.sinks.log := by
    rcases (Dialogue.log_due served).2 with none | ⟨down, -⟩
    · rw [← List.append_nil (d.sinks.log.take n), ← none, List.take_append_drop]
    · rw [mirrors.up] at down
      cases down
  obtain ⟨k, shown, deliveries, renders⟩ := Dialogue.delivered_own books served questions
  rw [whole] at deliveries
  rw [answers] at renders
  have few : shown.length ≤ enquiry.commands.length := by
    rw [renders.length_eq, List.length_map, List.length_take, Link.answersTo, List.length_take, Enquiry.words,
      List.length_map]
    omega
  -- the sink has taken what the log tells of
  obtain ⟨first, made, here, there⟩ := mirrors.sink place
  rw [deliveries] at here there
  have posed : enquiry.commands ≠ [] := books.posed ⟨before.length, enquiry.commands⟩ (by rw [questions]; simp)
  have filled := (made.filled posed).receives (shown.map Delivery.message)
    (by rwa [List.length_nil, Nat.zero_add, List.length_map])
  rw [List.nil_append] at filled
  refine ⟨k, shown, _, there, renders, filled, ?_⟩
  have named : link.name before.length = enquiry.ref := by
    rw [Link.name, place]
    rfl
  rcases mirrors.served before.length (List.getElem?_eq_some_iff.mp here).1 with waits | complete
  · left
    rw [mirrors.pipeline, refs_relabel, ← named]
    exact List.mem_map_of_mem waits
  · right
    rw [Sinks.isComplete, here] at complete
    rw [← filled.complete.mp complete, List.length_map]

variable [Inhabited ρ] {cfg : Config} {up : System ρ} {turns : List (Turn ρ)} {i : Nat} {oracle : Oracle}

/-- From the step of `do_connect` that sets OPEN on, and as long as OPEN is not left, no order of events gives a request
anything but what its own commands were answered with, and a request that has left the pipeline has got it all. -/
theorem own_replies (reached : System.Reached fuel cfg s) (concludes : s.concludes i = true)
    (connects : s.step fuel (.attemptResume i oracle) = some up)
    (began : up.state = .opened) (calm : ∀ note ∈ up.notes, note.calm = true ∧ note.unhurried = true)
    (fair : Guarded (step fuel) Fair { system := up } turns)
    (run : runFrom (step fuel) { system := up } turns = some link) (opened : link.system.state = .opened)
    (solo : ∀ entry ∈ link.system.log, entry.solo = true)
    (honest : Dialogue.Honest fuel up.parser.limits (turns.flatMap Turn.values)) {before after : List (Enquiry ρ)}
    {enquiry : Enquiry ρ} (asked : link.asked = before ++ enquiry :: after) :
    (link.answersTo before enquiry).map Answer.words <+: enquiry.words ∧
    ∃ k shown sink, link.system.sinks.cells[enquiry.ref]? = some sink ∧
      sink.response.slots = shown.mapIdx enquiry.slotFromMessage ∧
      List.Forall₂ (Message.Renders (Guarded (step fuel) Calm { system := up } turns)) shown
        (((link.answersTo before enquiry).take k).map fun answer => answer.value.message fuel) ∧
      (enquiry.ref ∉ link.system.pipeline.refs →
        shown.length = enquiry.commands.length ∧ sink.response.result = some sink.response.slots) := by
  have before' : ∀ entry ∈ up.log, entry.solo = true := fun entry member =>
    solo entry ((run_extends run).subset member)
  have untouched := System.opened_untouched reached concludes connects began before' calm
  obtain ⟨moves, d, lawful, sound, quiet, ran, mirrors⟩ :=
    run_advances (start_mirrors untouched) (reached.step connects) fair run opened solo
  -- the server has answered the dialogue what it answered the link
  have answers : moves.flatMap Dialogue.Turn.values = turns.flatMap Turn.values := by
    have there := run_values run
    rw [← mirrors.answered] at there
    exact (Dialogue.run_values ran).symm.trans there
  have talk : Dialogue.Reached fuel up.parser up.pipeline.limits moves d := ⟨lawful, answers ▸ honest, sound, ran⟩
  have books := talk.books
  obtain ⟨n, served, -⟩ := talk.understands quiet
  obtain ⟨earlier, later, questions, same⟩ := mirrors.asked_split asked
  refine ⟨same ▸ Dialogue.words_answersTo books questions, ?_⟩
  obtain ⟨k, shown, sink, place, renders, ⟨context, finish, rfl⟩, left⟩ := mirrors.filled books served asked
  refine ⟨k, shown, _, place, ?_, renders, fun gone => ?_⟩
  · apply List.ext_getElem?
    intro j
    rw [PendingResponse.filled, List.getElem?_mapIdx, List.getElem?_mapIdx, List.getElem?_map, Option.map_map]
    rfl
  · have all := left.resolve_left gone
    refine ⟨all, if_pos ?_⟩
    rw [List.length_map, all]

end Opened

/-- Two requests that are made, written, answered and read while the loops of the actor go round. -/
def counted : List (Turn Message) :=
  [.act (.connectResume 0), .act (.controlRun .wakeup 0), .act (.writerRun .wakeup), .act (.readerRun .wakeup),
    .ask [Dialogue.say "INCR"] fun _ msg => .ok msg,
    .ask [Dialogue.say "INCR", Dialogue.say "INCR"] fun _ msg => .ok msg,
    .act (.writerRun .wakeup), .send 14, .act .writerResume, .send 28, .act .writerResume,
    .answer [text "INCR"] (Dialogue.count "1"), .answer [text "INCR"] (Dialogue.count "2"), .receive 6,
    .act .readerResume, .answer [text "INCR"] (Dialogue.count "3"), .receive 6, .act .readerResume]

/-- Both requests have left the pipeline, each with the numbers that its own commands were answered with. -/
theorem own_replies_counted : letI := FloatChars.none
    letI : Inhabited Message := ⟨.null⟩
    ∃ (up : System Message) (link : Link Message) (first second : Enquiry Message), System.Reached 16 {} up ∧
      runFrom (step 16) { system := up } counted = some link ∧ link.asked = [first, second] ∧
      (link.answersTo [first] second).map Answer.value = [Dialogue.count "2", Dialogue.count "3"] ∧
      ∃ sink, link.system.sinks.cells[second.ref]? = some sink ∧
        sink.response.result = some ([(Dialogue.count "2").message 16, (Dialogue.count "3").message 16].mapIdx
          second.slotFromMessage) := by
  let := FloatChars.none
  let : Inhabited Message := ⟨.null⟩
  have runs : (runFrom (System.step 16) (System.start {}) ([.connect, .actorStart, .attemptStart 0] ++
      (dial 0).dropLast : List (Act Message))).any (fun s => (s.step 16 (.attemptResume 0 {})).any fun up =>
        (runFrom (step 16) { system := up } counted).any fun link =>
          decide (s.concludes 0 = true ∧ up.state = .opened ∧
            (∀ note ∈ up.notes, note.calm = true ∧ note.unhurried = true) ∧
            Guarded (step 16) Fair { system := up } counted ∧ Guarded (step 16) Calm { system := up } counted ∧
            link.system.state = .opened ∧ (∀ entry ∈ link.system.log, entry.solo = true) ∧
            up.parser.limits = (Parser.fresh {}).limits ∧ link.asked.map (·.words.length) = [1, 2] ∧
            link.system.pipeline.refs = [])) = true := by decide +kernel
  obtain ⟨s, began, runs⟩ := Option.any_eq_true _ _ |>.mp runs
  obtain ⟨up, connects, runs⟩ := Option.any_eq_true _ _ |>.mp runs
  obtain ⟨link, run, facts⟩ := Option.any_eq_true _ _ |>.mp runs
  obtain ⟨concludes, upState, notes, fair, calm, opened, solo, limits, asked, left⟩ := of_decide_eq_true facts
  obtain ⟨first, others, split, one, rest⟩ := List.map_eq_cons_iff.mp asked
  obtain ⟨second, only, two⟩ := List.map_eq_singleton_iff.mp rest
  have both : link.asked = [first] ++ second :: [] := by rw [split, only]; rfl
  have values : link.answered.map Answer.value =
      [Dialogue.count "1", Dialogue.count "2", Dialogue.count "3"] := run_values run
  have answers : (link.answersTo [first] second).map Answer.value = [Dialogue.count "2", Dialogue.count "3"] := by
    rw [answersTo, List.flatMap_singleton, one, two, List.map_take, List.map_drop, values]
    rfl
  have reached : System.Reached 16 {} s := ⟨_, began⟩
  have honest : Dialogue.Honest 16 up.parser.limits (counted.flatMap Turn.values) := by
    rw [limits]
    exact Dialogue.counts_honest
  obtain ⟨-, k, shown, sink, place, slots, renders, ended⟩ :=
    own_replies reached concludes connects upState notes fair run opened solo honest both
  obtain ⟨all, result⟩ := ended (by simp [left])
  refine ⟨up, link, first, second, reached.step connects, run, both, answers, sink, place, ?_⟩
  have same := Message.eq_of_renders renders calm
  have size := congrArg List.length same
  have length := congrArg List.length answers
  rw [List.length_map] at length
  rw [List.length_map, List.length_take, length, all, ← List.length_map (f := Command.words), ← Enquiry.words, two]
    at size
  rw [List.take_of_length_le (length.trans_le (Nat.le_trans (Nat.le_of_eq size) (Nat.min_le_left ..)))] at same
  have messages := congrArg (List.map (Sentence.message 16)) answers
  rw [List.map_map] at messages
  rw [result, slots, same]
  exact congrArg (fun shown => some (shown.mapIdx second.slotFromMessage)) messages

end Link

end Rediscoro.Connection

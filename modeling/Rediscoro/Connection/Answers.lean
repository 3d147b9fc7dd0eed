import Mathlib.Data.Prod.Lex
import Rediscoro.Connection.Dialogue

/-! What comes of a dialogue.

With a server that answers every command, and whatever the order in which octets are sent, reported,
answered and read: each request gets the replies to its own commands, there is something to do as long as
a reply is missing, and a read fails the connection exactly when an answer is in it to a request whose
write is not reported to be complete.
-/

set_option autoImplicit false

namespace Rediscoro.Connection

open Rediscoro.Semantics Rediscoro.Resp3 Rediscoro.Pipeline

variable {σ : Type}

namespace Dialogue

/-! Whole dialogues. -/

section Runs

variable [FloatChars] [ResponseSink σ Message ErrorInfo] {still : Prop} {fuel : Nat} {parser : Parser Buffer View}
  {limits : Pipeline.Limits} {d next last : Dialogue σ} {turns : List (Turn σ)}

/-- What the server answers in a turn. -/
def Turn.values : Turn σ → List Sentence
  | .answer _ value => [value]
  | _ => []

theorem step_values {turn : Turn σ} (stepped : d.step fuel turn = some next) :
    next.values = d.values ++ turn.values := by
  cases turn with
  | ask commands sink deadline =>
    obtain rfl := ask_cases stepped
    exact (List.append_nil _).symm
  | send n =>
    obtain ⟨buffer, -, -, -, rfl⟩ := send_cases stepped
    exact (List.append_nil _).symm
  | report =>
    obtain ⟨n, line, -, -, rfl⟩ := report_cases stepped
    exact (List.append_nil _).symm
  | answer words value =>
    obtain ⟨-, rfl⟩ := answer_cases stepped
    exact List.map_append
  | read n memory =>
    obtain ⟨line, -, -, -, -, rfl⟩ := read_cases stepped
    exact (List.append_nil _).symm

theorem run_values (run : runFrom (step fuel) d turns = some last) :
    last.values = d.values ++ turns.flatMap Turn.values := by
  induction turns generalizing d with
  | nil =>
    cases run
    exact (List.append_nil _).symm
  | cons turn rest ih =>
    obtain ⟨next, stepped, run⟩ := runFrom_cons run
    rw [ih run, step_values stepped, List.flatMap_cons, List.append_assoc]

theorem Books.run (books : Books d) (lawful : ∀ turn ∈ turns, turn.Lawful)
    (run : runFrom (Dialogue.step fuel) d turns = some last) : Books last := by
  induction turns generalizing d with
  | nil =>
    cases run
    exact books
  | cons turn rest ih =>
    obtain ⟨next, stepped, run⟩ := runFrom_cons run
    rw [List.forall_mem_cons] at lawful
    exact ih (books.step lawful.1 stepped) lawful.2 run

theorem understands_run (books : Books d) (understands : Understands still fuel parser d)
    (honest : Honest fuel parser.limits last.values) (lawful : ∀ turn ∈ turns, turn.Lawful)
    (sound : Guarded (step fuel) Sound d turns) (calm : still → Guarded (step fuel) Calm d turns)
    (run : runFrom (step fuel) d turns = some last) : Understands still fuel parser last := by
  induction turns generalizing d with
  | nil =>
    cases run
    exact understands
  | cons turn rest ih =>
    have before : Honest fuel parser.limits d.values :=
      honest.isPrefix (by rw [run_values run]; exact List.prefix_append _ _)
    obtain ⟨next, stepped, run⟩ := runFrom_cons run
    rw [List.forall_mem_cons] at lawful
    have after := understands_step books understands before lawful.1 sound.1 (fun quiet => (calm quiet).1) stepped
    exact ih (books.step lawful.1 stepped) after lawful.2 (sound.tail stepped)
      (fun quiet => (calm quiet).tail stepped) run

/-- A dialogue that has been reached with a server whose answers are honest, and without a failed assertion. -/
structure Reached (fuel : Nat) (parser : Parser Buffer View) (limits : Pipeline.Limits) (turns : List (Turn σ))
    (d : Dialogue σ) : Prop where
  lawful : ∀ turn ∈ turns, turn.Lawful
  honest : Honest fuel parser.limits (turns.flatMap Turn.values)
  sound : Guarded (step fuel) Sound (start parser limits) turns
  run : runFrom (step fuel) (start parser limits) turns = some d

theorem Reached.books (reached : Reached fuel parser limits turns d) : Books d :=
  Books.run (.start parser limits) reached.lawful reached.run

theorem Reached.answers (reached : Reached fuel parser limits turns d) : Honest fuel parser.limits d.values := by
  have values := run_values reached.run
  rw [values]
  exact reached.honest

theorem Reached.understands (reached : Reached fuel parser limits turns d)
    (calm : still → Guarded (step fuel) Calm (start parser limits) turns) : Understands still fuel parser d :=
  understands_run (.start parser limits) (understands_start still fuel parser limits) reached.answers reached.lawful
    reached.sound calm reached.run

end Runs

/-! Whose reply is whose. -/

section Replies

variable {still : Prop} {fuel : Nat}

/-- The commands that have been answered, with the requests they belong to: the server takes them in order. -/
def due (d : Dialogue σ) : List (SinkRef × Answer) := d.owners.zip d.answered

/-- The delivery shows the answer to its command. -/
def Delivers (still : Prop) (fuel : Nat) (entry : SinkRef × Delivery Message ErrorInfo)
    (due : SinkRef × Answer) : Prop :=
  entry.1 = due.1 ∧ ∃ shown, entry.2 = .message shown ∧ shown.Renders still (due.2.value.message fuel)

/-- What the commands of a request were answered with, if these requests were made before it. -/
def answersTo (d : Dialogue σ) (before : List Question) (question : Question) : List Answer :=
  (d.answered.drop (before.flatMap Question.words).length).take question.words.length

variable {d : Dialogue σ} {before after : List Question} {question : Question}

theorem claims_question (question : Question) :
    question.ticket.claims = List.replicate question.words.length question.ref := by
  rw [Ticket.claims, Question.ticket, Request.replyCount, Request.ofCommands_commandCount, Question.words,
    List.length_map]

theorem length_claims (questions : List Question) :
    ((questions.map Question.ticket).flatMap Ticket.claims).length = (questions.flatMap Question.words).length := by
  induction questions with
  | nil => rfl
  | cons question rest ih =>
    rw [List.map_cons, List.flatMap_cons, List.flatMap_cons, List.length_append, List.length_append, ih,
      claims_question, List.length_replicate]

/-- What a request was answered are the answers to its own commands, in order. -/
theorem words_answersTo (books : Books d) (asked : d.asked = before ++ question :: after) :
    (d.answersTo before question).map Answer.words <+: question.words := by
  obtain ⟨later, words, -⟩ := books.answered_first
  rw [asked, List.flatMap_append, List.flatMap_cons] at words
  have rest := congrArg (List.drop (before.flatMap Question.words).length) words
  rw [List.drop_left] at rest
  have front := congrArg (List.take question.words.length) rest
  rw [List.take_left, List.drop_append, List.take_append, ← List.map_drop, ← List.map_take] at front
  exact ⟨_, front.symm⟩

theorem zip_append_left {α β : Type} (first second : List α) (others : List β) :
    (first ++ second).zip others = first.zip others ++ second.zip (others.drop first.length) := by
  induction first generalizing others with
  | nil => rfl
  | cons head first ih =>
    cases others with
    | nil => simp
    | cons other others => simp [ih]

/-- The answers that are due to a request. -/
theorem due_question (books : Books d) (distinct : (d.asked.map Question.ref).Nodup)
    (asked : d.asked = before ++ question :: after) :
    d.due.filterMap (fun entry => if entry.1 = question.ref then some entry.2 else none) =
      d.answersTo before question := by
  have others {questions : List Question} (apart : question.ref ∉ questions.map Question.ref) (answers : List Answer) :
      (((questions.map Question.ticket).flatMap Ticket.claims).zip answers).filterMap
        (fun entry => if entry.1 = question.ref then some entry.2 else none) = [] := by
    rw [List.filterMap_eq_nil_iff]
    intro entry member
    obtain ⟨ticket, known, owner⟩ := List.mem_flatMap.mp (List.of_mem_zip member).1
    obtain ⟨other, inside, rfl⟩ := List.mem_map.mp known
    rw [claims_question] at owner
    rw [List.eq_of_mem_replicate owner, if_neg]
    exact fun same => apart (List.mem_map.mpr ⟨other, inside, same⟩)
  have own (n : Nat) (answers : List Answer) : ((List.replicate n question.ref).zip answers).filterMap
      (fun entry => if entry.1 = question.ref then some entry.2 else none) = answers.take n := by
    induction n generalizing answers with
    | zero => rfl
    | succ n ih =>
      cases answers with
      | nil => rfl
      | cons answer rest => simp [List.replicate_succ, ih]
  rw [asked, List.map_append, List.map_cons, List.nodup_middle, ← List.map_append, List.nodup_cons, List.map_append,
    List.mem_append, not_or] at distinct
  obtain ⟨⟨earlier, later⟩, -⟩ := distinct
  rw [due, Line.owners, books.tickets, asked, List.map_append, List.flatMap_append, List.map_cons, List.flatMap_cons,
    zip_append_left, zip_append_left, List.filterMap_append, List.filterMap_append, others earlier,
    others later, claims_question, own, length_claims, List.append_nil, List.nil_append, answersTo]

variable [ResponseSink σ Message ErrorInfo]

/-- No two requests have the same sink. -/
theorem Books.distinct {n : Nat} (books : Books d) (served : d.toLine.Served still fuel d.values n) :
    (d.asked.map Question.ref).Nodup := by
  obtain ⟨desk, ledger, ⟨earlier, awaiting, queued, -⟩, -, -, tickets, -⟩ := served.ordered
  have distinct := queued.distinct
  rwa [tickets, books.tickets, List.map_map] at distinct

/-- What has been delivered shows the first answers that are due; when the connection fails for a protocol error, that
error follows. -/
theorem log_due {n : Nat} (served : d.toLine.Served still fuel d.values n) :
    List.Forall₂ (Delivers still fuel) (d.sinks.log.take n) (d.due.take n) ∧
      (d.sinks.log.drop n = [] ∨
        d.down = true ∧ ∃ ref errc, d.sinks.log.drop n = [(ref, .error { code := .protocol errc })]) := by
  obtain ⟨shown, tail, log, renders, ended⟩ := served.delivered
  have within := served.within
  have known := Line.length_shown within renders
  have size := congrArg List.length log
  rw [List.length_map, List.length_append, List.length_map, known] at size
  rw [values, List.length_map] at within
  constructor
  · have owned (j : Nat) (early : j < n) : d.owners[j]? = some (d.sinks.log.get ⟨j, by omega⟩).1 :=
      served.ordered.owner (List.getElem?_eq_getElem (by omega))
    have enough : n ≤ d.owners.length := by
      by_contra few
      have last := owned d.owners.length (by omega)
      rw [List.getElem?_eq_none (Nat.le_refl _)] at last
      cases last
    refine List.forall₂_iff_get.mpr ⟨?_, fun j inside inside' => ?_⟩
    · rw [due, List.length_take, List.length_take, List.length_zip]
      omega
    · rw [List.length_take] at inside
      have early : j < n := by omega
      have owner := owned j early
      rw [List.getElem?_eq_getElem (by omega)] at owner
      -- The payload is the message that was shown, and it renders the answer with the same number.
      have payload := congrArg (fun log => log[j]?) log
      simp only [List.getElem?_map] at payload
      rw [List.getElem?_append_left (by rw [List.length_map]; omega), List.getElem?_map,
        List.getElem?_eq_getElem (by omega), List.getElem?_eq_getElem (by omega)] at payload
      have same :=
        renders.get (i := j) (by omega) (by rw [List.length_map, List.length_take, values, List.length_map]; omega)
      simp only [Delivers, due, List.get_eq_getElem, List.getElem_take, List.getElem_zip]
      refine ⟨(Option.some.inj owner).symm, shown[j], Option.some.inj payload, ?_⟩
      simpa [values] using same
  · rcases ended with rfl | ⟨down, errc, rfl⟩
    · exact .inl (List.drop_eq_nil_of_le (by rw [size]; simp))
    · refine .inr ⟨down, ?_⟩
      have last := congrArg (List.drop n) log
      rw [List.drop_left' (by rw [List.length_map, known]), ← List.map_drop] at last
      obtain ⟨⟨ref, delivery⟩, only, same⟩ := List.map_eq_singleton_iff.mp last
      exact ⟨ref, errc, by rw [only, ← same]⟩

omit [ResponseSink σ Message ErrorInfo] in
/-- Of what is delivered, a request gets what is due to it. -/
theorem delivers_to {entries : List (SinkRef × Delivery Message ErrorInfo)} {dues : List (SinkRef × Answer)}
    (delivers : List.Forall₂ (Delivers still fuel) entries dues) (ref : SinkRef) :
    ∃ shown, deliveriesTo entries ref = shown.map Delivery.message ∧
      List.Forall₂ (Message.Renders still) shown
        ((dues.filterMap fun entry => if entry.1 = ref then some entry.2 else none).map
          fun answer => answer.value.message fuel) := by
  induction delivers with
  | nil => exact ⟨[], rfl, .nil⟩
  | @cons entry due entries dues here _ ih =>
    obtain ⟨shown, same, renders⟩ := ih
    obtain ⟨owner, message, payload, renders'⟩ := here
    by_cases mine : due.1 = ref
    · refine ⟨message :: shown, ?_, ?_⟩
      · rw [deliveriesTo, List.filterMap_cons, if_pos (owner.trans mine), payload]
        exact congrArg (List.cons _) same
      · rw [List.filterMap_cons, if_pos mine]
        exact .cons renders' renders
    · refine ⟨shown, ?_, ?_⟩
      · rw [deliveriesTo, List.filterMap_cons, if_neg (fun same => mine (owner.symm.trans same))]
        exact same
      · rw [List.filterMap_cons, if_neg mine]
        exact renders

/-- What has been delivered to a request shows the first answers to its commands. -/
theorem delivered_own (books : Books d) {n : Nat} (served : d.toLine.Served still fuel d.values n)
    (asked : d.asked = before ++ question :: after) :
    ∃ k shown, deliveriesTo (d.sinks.log.take n) question.ref = shown.map Delivery.message ∧
      List.Forall₂ (Message.Renders still) shown
        (((d.answersTo before question).take k).map fun answer => answer.value.message fuel) := by
  obtain ⟨shown, same, renders⟩ := delivers_to (log_due served).1 question.ref
  have front := (List.take_prefix n d.due).filterMap fun entry =>
    if entry.1 = question.ref then some entry.2 else none
  rw [due_question books (books.distinct served) asked] at front
  rw [List.prefix_iff_eq_take.mp front] at renders
  exact ⟨_, shown, same, renders⟩

/-- In any interleaving each request gets the replies to its own commands, in order: what was answered to its first
command shows in its first delivery, and so on. -/
theorem answers_own [FloatChars] {parser : Parser Buffer View} {limits : Pipeline.Limits} {turns : List (Turn σ)}
    (reached : Reached fuel parser limits turns d) (asked : d.asked = before ++ question :: after) :
    (d.answersTo before question).map Answer.words <+: question.words ∧
    ∃ k shown tail, deliveriesTo d.sinks.log question.ref = shown.map Delivery.message ++ tail ∧
      List.Forall₂ (Message.Renders (Guarded (step fuel) Calm (start parser limits) turns)) shown
        (((d.answersTo before question).take k).map fun answer => answer.value.message fuel) ∧
      (tail = [] ∨ d.down = true ∧ ∃ errc, tail = [.error { code := .protocol errc }]) := by
  refine ⟨words_answersTo reached.books asked, ?_⟩
  obtain ⟨n, served, -⟩ := reached.understands id
  obtain ⟨k, shown, same, renders⟩ := delivered_own reached.books served asked
  refine ⟨k, shown, deliveriesTo (d.sinks.log.drop n) question.ref, ?_, renders, ?_⟩
  · rw [← same, ← deliveriesTo_append, List.take_append_drop]
  · rcases (log_due served).2 with none | ⟨down, ref, errc, last⟩
    · exact .inl (by rw [none]; rfl)
    · rw [last]
      by_cases mine : ref = question.ref
      · exact .inr ⟨down, errc, by simp [deliveriesTo, mine]⟩
      · exact .inl (by simp [deliveriesTo, mine])

end Replies

/-! A counter that three commands ask for. -/

section Counter

def say (word : String) : Command := .argv [text word]

def count (numeral : String) : Sentence := .leaf (.line .integer (text numeral))

/-- Two requests whose octets and answers overlap. The server counts the commands. -/
def overlapping : List (Turn Line.Echo) :=
  [.ask [say "INCR"] { expected := 1 } ⊤, .ask [say "INCR", say "INCR"] { expected := 2 } ⊤, .send 14, .report,
    .answer [text "INCR"] (count "1"), .send 28, .read 4 .zeroed, .report, .answer [text "INCR"] (count "2"),
    .answer [text "INCR"] (count "3"), .read 6 .zeroed]

/-- One request of two commands, of which the first is written. -/
def halfWritten : List (Turn Line.Echo) :=
  [.ask [say "INCR", say "INCR"] { expected := 2 } ⊤, .send 14, .report, .answer [text "INCR"] (count "1")]

theorem count_wellFormed [FloatChars] {numeral : String} (free : findCrlf (text numeral) = none)
    (within : (text numeral).length ≤ ({} : Resp3.Limits).maxRespLineBytes)
    (integer : (parseI64 (text numeral)).isSome = true) : (count numeral).WellFormed {} :=
  .leaf (.line rfl free within (fun _ => integer) nofun)

theorem counts_honest : letI := FloatChars.none
    Honest 16 (Parser.fresh {}).limits [count "1", count "2", count "3"] := by
  let := FloatChars.none
  refine ⟨?_, by decide +kernel, by decide +kernel, by decide +kernel, by decide +kernel⟩
  simp only [List.forall_mem_cons]
  exact ⟨count_wellFormed (by decide +kernel) (by decide +kernel) (by decide +kernel),
    count_wellFormed (by decide +kernel) (by decide +kernel) (by decide +kernel),
    count_wellFormed (by decide +kernel) (by decide +kernel) (by decide +kernel), List.forall_mem_nil _⟩

theorem overlapping_lawful : ∀ turn ∈ overlapping, turn.Lawful := by
  simp only [overlapping, List.forall_mem_cons]
  exact ⟨⟨by simp, rfl, PendingResponse.counts_new Nat.one_pos⟩, ⟨by simp, rfl, PendingResponse.counts_new (by decide)⟩,
    trivial, trivial, trivial, trivial, trivial, trivial, trivial, trivial, trivial, List.forall_mem_nil _⟩

theorem overlapping_reached : letI := FloatChars.none
    ∃ d first second, Reached 16 (.fresh {}) {} overlapping d ∧ d.down = false ∧ d.asked = [first, second] ∧
      (d.answersTo [first] second).map Answer.value = [count "2", count "3"] ∧
      second.words.length = 2 ∧ (deliveriesTo d.sinks.log second.ref).length = 1 := by
  let := FloatChars.none
  have seen : (runFrom (step 16) (start (.fresh {}) {}) overlapping).any (fun d => decide (d.down = false ∧
      d.asked.map (fun question => (question.words.length, (deliveriesTo d.sinks.log question.ref).length)) =
        [(1, 1), (2, 1)])) = true := by decide +kernel
  obtain ⟨d, run, same⟩ := Option.any_eq_true _ _ |>.mp seen
  obtain ⟨up, asked⟩ := of_decide_eq_true same
  obtain ⟨first, rest, split, one, later⟩ := List.map_eq_cons_iff.mp asked
  obtain ⟨second, only, two⟩ := List.map_eq_singleton_iff.mp later
  obtain ⟨one, -⟩ := Prod.mk.inj one
  obtain ⟨two, got⟩ := Prod.mk.inj two
  have values : d.answered.map Answer.value = [count "1", count "2", count "3"] := run_values run
  refine ⟨d, first, second, ⟨overlapping_lawful, counts_honest, by decide +kernel, run⟩, up, by rw [split, only], ?_,
    two, got⟩
  rw [answersTo, List.flatMap_singleton, one, two, List.map_take, List.map_drop, values]
  rfl

theorem halfWritten_lawful : ∀ turn ∈ halfWritten, turn.Lawful := by
  simp only [halfWritten, List.forall_mem_cons]
  exact ⟨⟨by simp, rfl, PendingResponse.counts_new (by decide)⟩, trivial, trivial, trivial, List.forall_mem_nil _⟩

end Counter

/-- The second request has the reply to the first of its commands: the second number, not the first. -/
theorem answers_own_overlapping : letI := FloatChars.none
    ∃ d first second, Reached 16 (.fresh {}) {} overlapping d ∧ d.asked = [first, second] ∧
      (d.answersTo [first] second).map Answer.value = [count "2", count "3"] ∧
      ∃ message, deliveriesTo d.sinks.log second.ref = [.message message] ∧ (count "2").Builds message := by
  let := FloatChars.none
  obtain ⟨d, first, second, reached, up, asked, answers, -, one⟩ := overlapping_reached
  obtain ⟨-, k, shown, tail, delivered, renders, ended⟩ :=
    answers_own reached (show d.asked = [first] ++ second :: [] from asked)
  obtain rfl : tail = [] := ended.resolve_right fun broken => by
    rw [up] at broken
    cases broken.1
  rw [List.append_nil] at delivered
  rw [delivered, List.length_map] at one
  obtain ⟨message, rfl⟩ := List.length_eq_one_iff.mp one
  refine ⟨d, first, second, reached, asked, answers, message, delivered, 16, ?_⟩
  -- What is shown is the message of the first answer.
  have calm : Guarded (step 16) Calm (start (.fresh {}) {}) overlapping := by decide +kernel
  have messages := congrArg (List.map (Sentence.message 16)) answers
  rw [List.map_map] at messages
  have same : [message] = ([count "2", count "3"].map (Sentence.message 16)).take k := by
    rw [Message.eq_of_renders renders calm, List.map_take]
    exact congrArg (List.take k) messages
  have size := congrArg List.length same
  obtain rfl : k = 1 := by
    simp only [List.length_take, List.length_map, List.length_cons, List.length_nil] at size
    omega
  rw [List.singleton_inj.mp same]
  exact Sentence.build_message (by decide +kernel)

/-! When a server that answers brings the connection down. -/

section Early

/-- The parser rejects the octets, behind the values in front of them. -/
def Garbled [FloatChars] (d : Dialogue σ) (octets : Bytes) : Prop :=
  ∃ errc, (d.parser.feed 4096 octets).drain.answer = .error (.protocol errc)

/-- There is an answer among the octets to a command of a request whose write is not reported yet. -/
def Early (d : Dialogue σ) (octets : Bytes) : Prop :=
  ∃ m ≤ d.answered.length, Line.confirmed d.pipeline d.tickets < m ∧ Sentence.encodeAll (d.values.take m) <+: octets

variable [FloatChars] [ResponseSink σ Message ErrorInfo] {still : Prop} {fuel n m : Nat} {parser : Parser Buffer View}
  {memory : Memory} {d next : Dialogue σ}

section Read

variable (books : Books d) (honest : Honest fuel parser.limits d.values)
  (running : d.toLine.Running still fuel (parser.reset.copy .zeroed) d.values m)
  (room : n ≤ (d.parser.input.prepare 4096).available) (calm : still → d.Calm (.read n memory))

omit [ResponseSink σ Message ErrorInfo] [FloatChars] in
theorem Books.arrives (books : Books d) (n : Nat) :
    d.heard ++ (d.outbox.take n ++ d.outbox.drop n) = Sentence.encodeAll d.values := by
  rw [List.take_append_drop]
  exact books.heard

include books honest running room calm

/-- The answers that a read returns, counted. -/
theorem early_iff : Early d (d.heard ++ d.outbox.take n) ↔
    Line.confirmed d.pipeline d.tickets < m + (d.parser.feed 4096 (d.outbox.take n)).drain.roots.length := by
  obtain ⟨kept, follows⟩ := running.held
  have legal := legal_read room memory
  have arrives := books.arrives n
  have front : d.heard ++ d.outbox.take n <+: Sentence.encodeAll d.values := by
    rw [← arrives, ← List.append_assoc]
    exact List.prefix_append _ _
  have returned (k : Nat) (known : k ≤ d.answered.length) :=
    follows.returned_iff honest.stream running.within (m := k) (by rw [values, List.length_map]; exact known) legal calm
      front
  obtain ⟨within, -⟩ := follows.returned running.within legal calm honest.stream.drain.1 arrives
    (honest.stream.bounded arrives)
  rw [values, List.length_map] at within
  constructor
  · rintro ⟨k, known, more, arrived⟩
    exact Nat.lt_of_lt_of_le more ((returned k known).mpr arrived)
  · intro more
    exact ⟨_, within, more, (returned _ within).mp (Nat.le_refl _)⟩

omit calm in
/-- Octets that all fit into one line are never taken for something else than the answers they are. -/
theorem not_garbled (fits : (Sentence.encodeAll d.values).length ≤ parser.limits.maxRespLineBytes)
    (calm : still → d.Calm (.read n memory)) : ¬Garbled d (d.outbox.take n) := by
  rintro ⟨errc, failed⟩
  obtain ⟨kept, follows⟩ := running.held
  have arrives := books.arrives n
  have stream := honest.stream
  obtain ⟨same, -⟩ := (follows.fed (legal_read room memory) calm).2.drain
  rw [failed] at same
  have bounded : (parser.reset.copy .zeroed).input.length + (d.heard ++ d.outbox.take n).length +
      (d.outbox.drop n).length ≤ parser.limits.maxRespLineBytes := by
    rw [← arrives, ← List.append_assoc, List.length_append] at fits
    rw [stream.empty, List.length_nil, Nat.zero_add]
    exact fits
  have whole := (follows.takes.error (.inl bounded) (.inl bounded) same).2
  rw [arrives, stream.drain.2] at whole
  cases whole

end Read

/-- A server that answers makes a read fail the connection exactly when there is an answer among the octets to a
command of a request whose write has not been reported, or the parser takes the octets for something else. In the
first case the deliveries are the replies to the commands of the requests that were reported. -/
theorem fails_iff_early {limits : Pipeline.Limits} {turns : List (Turn σ)}
    (reached : Reached fuel parser limits turns d) (sound : d.Sound (.read n memory))
    (stepped : d.step fuel (.read n memory) = some next) :
    (next.down = true ↔ Early d next.heard ∨ Garbled d (d.outbox.take n)) ∧
      (Early d next.heard →
        List.Forall₂ (Delivers (Guarded (step fuel) Calm (start parser limits) (turns ++ [.read n memory])) fuel)
          next.sinks.log (d.due.take (Line.confirmed d.pipeline d.tickets))) ∧
      ((Sentence.encodeAll d.values).length ≤ parser.limits.maxRespLineBytes → ¬Garbled d (d.outbox.take n)) := by
  have books := reached.books
  have honest := reached.answers
  have up := up_of_step stepped
  have front (quiet : Guarded (step fuel) Calm (start parser limits) (turns ++ [.read n memory])) :
      Guarded (step fuel) Calm (start parser limits) turns := quiet.front
  obtain ⟨m, -, running⟩ := reached.understands front
  have calm (quiet : Guarded (step fuel) Calm (start parser limits) (turns ++ [.read n memory])) :
      d.Calm (.read n memory) := (quiet.behind reached.run).1
  obtain ⟨line, -, room, nonempty, received, rfl⟩ := read_cases stepped
  have early := early_iff books honest (running up) room calm
  refine ⟨?_, ?_, fun fits => not_garbled books honest (running up) room fits calm⟩
  -- both parts follow from what the read makes of the octets: too many answers, all of them, or no RESP3
  all_goals
    obtain ⟨next, received', outcome⟩ := (running up).receives honest.stream (books.arrives n) (legal_read room memory)
      sound calm (apart_of_solicited honest.solicited _ _) nonempty
    obtain rfl : line = next := Option.some.inj (received.symm.trans received')
    obtain ⟨-, -, heard⟩ := Line.receive_keeps received
    dsimp only
    rw [heard, early]
  · rcases outcome with ⟨more, down, -⟩ | ⟨enough, ⟨⟨value, answer⟩, -, onward⟩ | ⟨garbled, down, -⟩⟩
    · exact ⟨fun _ => .inl more, fun _ => down⟩
    · constructor
      · intro down
        rw [onward.up] at down
        cases down
      · rintro (more | ⟨errc, garbled⟩)
        · omega
        · rw [answer] at garbled
          cases garbled
    · exact ⟨fun _ => .inr garbled, fun _ => down⟩
  · intro more
    rcases outcome with ⟨-, -, served, size⟩ | ⟨enough, -⟩
    · obtain ⟨tickets, -, -⟩ := Line.receive_keeps received
      have delivers := (log_due (d := { d with toLine := line, outbox := d.outbox.drop n }) served).1
      rw [List.take_of_length_le (Nat.le_of_eq size)] at delivers
      rwa [due, Line.owners, tickets] at delivers
    · omega

end Early

/-- The answer to the first command is read before the second is written, and fails the connection. -/
theorem fails_iff_early_halfWritten : letI := FloatChars.none
    ∃ d next, Reached 16 (.fresh {}) {} halfWritten d ∧ d.step 16 (.read 4 .zeroed) = some next ∧
      Early d next.heard ∧ next.down = true ∧ next.sinks.log = [] := by
  let := FloatChars.none
  have seen : (runFrom (step 16) (start (.fresh {}) {}) halfWritten).any (fun d =>
      (d.step 16 (.read 4 .zeroed)).any fun next =>
        decide (d.Sound (.read 4 .zeroed) ∧ (Sentence.encodeAll d.values).length ≤ 65536 ∧
          Line.confirmed d.pipeline d.tickets = 0 ∧ next.down = true)) = true := by decide +kernel
  obtain ⟨d, run, seen⟩ := Option.any_eq_true _ _ |>.mp seen
  obtain ⟨next, stepped, same⟩ := Option.any_eq_true _ _ |>.mp seen
  obtain ⟨sound, fits, none, down⟩ := of_decide_eq_true same
  have honest := counts_honest.isPrefix (List.prefix_append [count "1"] [count "2", count "3"])
  have reached : Reached 16 (.fresh {}) {} halfWritten d :=
    ⟨halfWritten_lawful, honest, by decide +kernel, run⟩
  obtain ⟨fails, delivers, clear⟩ := fails_iff_early reached sound stepped
  have early := (fails.mp down).resolve_right (clear fits)
  have log := (delivers early).length_eq
  rw [none] at log
  exact ⟨d, next, reached, stepped, early, down, List.eq_nil_of_length_eq_zero log⟩

/-! Nothing gets stuck. -/

section Progress

variable {d next : Dialogue σ}

/-- The commands that the server has still to answer. -/
def unanswered (d : Dialogue σ) : List (List Bytes) := (d.asked.flatMap Question.words).drop d.answered.length

/-- What is still to be sent, reported and answered, and then what is still to be read. -/
def left (d : Dialogue σ) : Nat ×ₗ Nat :=
  toLex (2 * ((spoken d.unanswered).length - d.inbox.length) + d.unreported.toList.length + d.unanswered.length,
    d.outbox.length)

theorem Books.unanswered (books : Books d) :
    d.asked.flatMap Question.words = d.answered.map Answer.words ++ d.unanswered ∧ d.inbox <+: spoken d.unanswered := by
  obtain ⟨later, asked, inbox⟩ := books.answered_first
  have same : d.unanswered = later := by
    rw [Dialogue.unanswered, asked, ← List.length_map (f := Answer.words)]
    exact List.drop_left
  rw [same]
  exact ⟨asked, inbox⟩

/-- When every request is written, the server has all it is asked. -/
theorem Books.inbox_full (books : Books d) (written : d.pipeline.pendingWrite = []) :
    d.unreported = none ∧ d.inbox = spoken d.unanswered := by
  obtain ⟨earlier, tickets, sent⟩ := books.sent
  have idle : d.unreported = none := by
    cases unreported : d.unreported with
    | none => rfl
    | some n =>
      obtain ⟨buffer, shown, -⟩ := books.reports n unreported
      simp [nextWriteBuffer, written] at shown
  rw [written, List.map_nil, List.append_nil] at tickets
  have none : d.flight = [] := by simp [flight, idle]
  rw [none, written, begun, List.append_nil, List.append_nil, ← tickets, books.tickets, wires_questions,
    books.unanswered.1, spoken_append] at sent
  exact ⟨idle, List.append_cancel_left sent⟩

/-- When all is answered, so are the commands of each request. -/
theorem length_answersTo (books : Books d) (none : d.unanswered = []) {before after : List Question}
    {question : Question} (asked : d.asked = before ++ question :: after) :
    (d.answersTo before question).length = question.words.length := by
  have whole := congrArg List.length books.unanswered.1
  rw [none, asked, List.append_nil, List.flatMap_append, List.flatMap_cons, List.length_append, List.length_append,
    List.length_map] at whole
  rw [answersTo, List.length_take, List.length_drop]
  omega

variable [FloatChars] [ResponseSink σ Message ErrorInfo] {fuel : Nat} {parser : Parser Buffer View}

omit [FloatChars] in
/-- When all is answered and read, every request has its replies. -/
theorem all_delivered {still : Prop} {n : Nat} (books : Books d) (served : d.toLine.Served still fuel d.values n)
    (read : d.values.length ≤ n) (none : d.unanswered = []) {question : Question} (member : question ∈ d.asked) :
    question.words.length ≤ (deliveriesTo d.sinks.log question.ref).length := by
  obtain ⟨before, after, asked⟩ := List.append_of_mem member
  have every : d.due.take n = d.due := by
    rw [values, List.length_map] at read
    apply List.take_of_length_le
    rw [due, List.length_zip]
    omega
  have delivers := (log_due served).1
  rw [every] at delivers
  obtain ⟨shown, same, renders⟩ := delivers_to delivers question.ref
  have size := renders.length_eq
  rw [due_question books (books.distinct served) asked, List.length_map, length_answersTo books none asked] at size
  rw [← size, ← List.length_map (f := Delivery.message (ε := ErrorInfo)), ← same, ← List.take_append_drop n d.sinks.log,
    deliveriesTo_append, List.length_append, List.take_append_drop]
  exact Nat.le_add_right ..

/-- The turn is taken and leaves less to do. -/
def Lessens (fuel : Nat) (d : Dialogue σ) (turn : Turn σ) : Prop :=
  ∃ next, d.step fuel turn = some next ∧ left next < left d

/-- So many octets can be read, and no assertion fails. -/
structure Readable (d : Dialogue σ) (n : Nat) (memory : Memory) : Prop where
  positive : 0 < n
  waiting : n ≤ d.outbox.length
  room : n ≤ (d.parser.input.prepare 4096).available
  sound : d.Sound (.read n memory)

/-- There is something to do, and whatever the server chooses to answer or a read finds, less is left behind it. -/
inductive Progresses (fuel : Nat) (d : Dialogue σ) : Prop where
  | send (n : Nat) (goes : Lessens fuel d (.send n))
  | report (goes : Lessens fuel d .report)
  | answer (words : List Bytes) (goes : ∀ value, Lessens fuel d (.answer words value))
  | read (possible : ∃ n memory, Readable d n memory)
      (goes : ∀ n memory, Readable d n memory → Lessens fuel d (.read n memory))

/-- Octets that the socket can take. -/
theorem progress_send (books : Books d) (up : d.down = false) {front : PendingItem} {rest : List PendingItem}
    (queue : d.pipeline.pendingWrite = front :: rest) (idle : d.unreported = none) :
    Lessens fuel d (.send front.unwritten.length) := by
  have shown : d.pipeline.nextWriteBuffer = some front.unwritten := by simp [nextWriteBuffer, queue]
  have positive : 0 < front.unwritten.length := by
    have unfinished := books.unfinished front (queue ▸ List.mem_cons_self)
    rw [PendingItem.unwritten, List.length_drop]
    omega
  have after := books.send idle shown (Nat.le_refl _)
  refine ⟨{ d with
    unreported := some front.unwritten.length
    inbox := d.inbox ++ front.unwritten.take front.unwritten.length }, by simp [step, up, idle, shown], ?_⟩
  have within := after.unanswered.2.length_le
  simp only [List.take_length, List.length_append, Dialogue.unanswered] at within
  refine Prod.Lex.toLex_lt_toLex.mpr (.inl ?_)
  simp only [Dialogue.unanswered, idle, List.take_length, List.length_append, Option.toList_some, Option.toList_none,
    List.length_cons, List.length_nil]
  omega

/-- The command in front of the inbox can be answered. -/
theorem progress_answer (up : d.down = false) {words : List Bytes} {rest : List (List Bytes)}
    (waits : d.unanswered = words :: rest) (inbox : d.inbox = spoken d.unanswered) (value : Sentence) :
    Lessens fuel d (.answer words value) := by
  have spoken_cons : spoken d.unanswered = (Command.message words).encode ++ spoken rest := by
    rw [waits, spoken, List.map_cons, List.flatten_cons]
    rfl
  have front : (Command.message words).encode <+: d.inbox := by
    rw [inbox, spoken_cons]
    exact List.prefix_append _ _
  refine ⟨{ d with
    inbox := d.inbox.drop (Command.message words).encode.length
    answered := d.answered ++ [⟨words, value⟩]
    outbox := d.outbox ++ value.encode }, by simp [step, up, front], ?_⟩
  have later : (d.asked.flatMap Question.words).drop (d.answered ++ [(⟨words, value⟩ : Answer)]).length = rest := by
    rw [List.length_append, ← List.drop_drop, ← Dialogue.unanswered, waits]
    rfl
  have remains : d.inbox.drop (Command.message words).encode.length = spoken rest := by
    rw [inbox, spoken_cons, List.drop_left]
  refine Prod.Lex.toLex_lt_toLex.mpr (.inl ?_)
  dsimp only [Dialogue.unanswered]
  rw [later, remains, ← Dialogue.unanswered, inbox, waits, List.length_cons]
  omega

/-- Octets that wait are read. -/
theorem progress_read (books : Books d) (understands : Understands False fuel parser d)
    (honest : Honest fuel parser.limits d.values) (up : d.down = false) {n : Nat} {memory : Memory}
    (readable : Readable d n memory) : Lessens fuel d (.read n memory) := by
  have lawful : (Line.Event.read (d.outbox.take n) memory : Line.Event σ).Lawful := trivial
  obtain ⟨line, k, received, -⟩ := understands_event books understands honest up lawful
    (legal_read readable.room memory) readable.sound False.elim (List.take_prefix n d.outbox)
  have possible : 0 < n ∧ n ≤ d.outbox.length ∧ n ≤ (d.parser.input.prepare 4096).available :=
    ⟨readable.positive, readable.waiting, readable.room⟩
  refine ⟨{ d with toLine := line, outbox := d.outbox.drop n }, by simp [step, up, possible, received], ?_⟩
  refine Prod.Lex.toLex_lt_toLex.mpr (.inr ⟨rfl, ?_⟩)
  dsimp only
  rw [List.length_drop]
  have positive := readable.positive
  have waiting := readable.waiting
  omega

/-- As long as some request of a connection that is up lacks a reply, there is something to send, to report, to
answer or to read, and less is left behind it. -/
theorem progress {limits : Pipeline.Limits} {turns : List (Turn σ)} (reached : Reached fuel parser limits turns d)
    (up : d.down = false)
    (lacks : ∃ question ∈ d.asked, (deliveriesTo d.sinks.log question.ref).length < question.words.length) :
    Progresses fuel d := by
  have books := reached.books
  have understands : Understands False fuel parser d := reached.understands False.elim
  have honest := reached.answers
  -- what is queued is written first, what is written is reported, and only then the server is waited for
  cases queue : d.pipeline.pendingWrite with
  | cons front rest =>
    cases unreported : d.unreported with
    | none => exact .send _ (progress_send books up queue unreported)
    | some n =>
      obtain ⟨buffer, shown, fits⟩ := books.reports n unreported
      have lawful : (Line.Event.wrote n : Line.Event σ).Lawful := trivial
      obtain ⟨line, m, reported, -⟩ :=
        understands_silent books understands honest up lawful ⟨buffer, shown, fits⟩ rfl trivial trivial
      refine .report ⟨{ d with toLine := line, unreported := none }, by simp [step, up, unreported, reported], ?_⟩
      refine Prod.Lex.toLex_lt_toLex.mpr (.inl ?_)
      simp only [Dialogue.unanswered, unreported, Option.toList_some, Option.toList_none, List.length_cons,
        List.length_nil]
      omega
  | nil =>
    obtain ⟨idle, inbox⟩ := books.inbox_full queue
    cases later : d.unanswered with
    | cons words rest => exact .answer words (progress_answer up later inbox)
    | nil =>
      by_cases waiting : d.outbox = []
      · -- Everything has been read, so every request has its replies.
        exfalso
        obtain ⟨question, member, lacks⟩ := lacks
        obtain ⟨n, served, running⟩ := understands
        have heard : d.heard = Sentence.encodeAll d.values := by
          rw [← books.heard, waiting, List.append_nil]
        have all : d.values.length ≤ n := ((running up).arrived_iff honest.stream (by rw [heard]) (Nat.le_refl _)).mpr
          (by rw [List.take_length, heard])
        exact Nat.not_lt.mpr (all_delivered books served all later member) lacks
      · refine .read ⟨1, fun _ _ => 58, Nat.one_pos, List.length_pos_iff.mpr waiting, ?_, fun _ _ _ _ => .inr rfl⟩
          fun n memory readable => progress_read books understands honest up readable
        exact Nat.le_trans (by decide) (d.parser.input.le_available_prepare 4096)

end Progress

/-- The second request lacks a reply, and there is something left to read. -/
theorem progress_overlapping : letI := FloatChars.none
    ∃ d, Reached 16 (.fresh {}) {} overlapping d ∧ Progresses 16 d := by
  let := FloatChars.none
  obtain ⟨d, first, second, reached, up, asked, -, words, once⟩ := overlapping_reached
  have member : second ∈ d.asked := by
    rw [asked]
    exact List.mem_cons_of_mem _ List.mem_cons_self
  exact ⟨d, reached, progress reached up ⟨second, member, by rw [words, once]; exact Nat.one_lt_two⟩⟩

end Dialogue

end Rediscoro.Connection

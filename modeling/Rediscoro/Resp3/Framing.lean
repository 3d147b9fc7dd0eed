import Rediscoro.Resp3.Absorb
import Rediscoro.Resp3.ZeroCopy

/-! Framing: a message is returned exactly for the sentences of the grammar.

`Absorb` shows that a sentence in front of the input is parsed. The converse is
an invariant of the loop that looks back: the octets consumed since the call
started spell the headers and the elements that the frames on the stack have
already received.
-/

set_option autoImplicit false

namespace Rediscoro.Resp3

open Rediscoro.Semantics

/-- The number of sentences a frame has received. -/
def Frame.taken (frame : Frame) : Nat :=
  match frame.state with
  | .value => 0
  | .array => frame.produced
  | .mapKey => 2 * frame.produced
  | .mapValue => 2 * frame.produced + 1
  | .attribute => 2 * frame.produced + if frame.hasPendingKey then 1 else 0

theorem Sentence.encodeAll_append (front back : List Sentence) :
    Sentence.encodeAll (front ++ back) = Sentence.encodeAll front ++ Sentence.encodeAll back := by
  induction front with
  | nil => rfl
  | cons sentence front ih => simp only [List.cons_append, Sentence.encodeAll, ih, List.append_assoc]

variable [FloatChars] (limits : Limits)

/-- Attribute blocks, as far as the grammar goes: in front of a sentence they make another one. -/
def Prefixes (octets : Bytes) : Prop := ∀ body, IsSentence limits body → IsSentence limits (octets ++ body)

/-- A frame in the middle of its elements `done`, whose header had the length `expected`. -/
structure Progress (frame : Frame) (numeral : Bytes) (done : List Sentence) : Prop where
  length : Numeral limits numeral frame.expected
  admissible : Admissible limits frame.containerType frame.expected
  formed : ∀ sentence ∈ done, sentence.WellFormed limits
  count : done.length = frame.taken
  unfinished : frame.produced < frame.expected

/-- The octets read so far when frames wait for their next value. -/
inductive Opens : List Frame → Bytes → Prop where
  | bottom : Opens [] []
  | container {frame : Frame} {frames : List Frame} {before blocks numeral : Bytes} {done : List Sentence}
      (below : Opens frames before) (block : Prefixes limits blocks) (value : frame.state ≠ .value)
      (body : frame.state ≠ .attribute) (progress : Progress limits frame numeral done) :
      Opens (frame :: frames)
        (before ++ (blocks ++ (header frame.containerType numeral ++ Sentence.encodeAll done)))
  | attributes {frame : Frame} {frames : List Frame} {before blocks numeral : Bytes} {done : List Sentence}
      (below : Opens frames before) (block : Prefixes limits blocks) (shape : frame.state = .attribute)
      (progress : Progress limits frame numeral done) :
      Opens (frame :: .value :: frames)
        (before ++ (blocks ++ (header frame.containerType numeral ++ Sentence.encodeAll done)))

/-- The octets read so far at the start of a pass. -/
inductive Stacked : List Frame → Bytes → Prop where
  | value {frames : List Frame} {before blocks : Bytes} (below : Opens limits frames before)
      (block : Prefixes limits blocks) : Stacked (.value :: frames) (before ++ blocks)
  | bare {frames : List Frame} {read : Bytes} (waiting : Opens limits frames read) (present : frames ≠ [])
      (covered : Parser.topsValue frames = false) : Stacked frames read

variable {limits}

theorem Prefixes.nil : Prefixes limits [] := fun _ body => body

/-- One more finished block. -/
theorem Prefixes.block {blocks numeral : Bytes} {n : Nat} (earlier : Prefixes limits blocks) (entries : List Sentence)
    (length : Numeral limits numeral n) (admissible : Admissible limits .attribute n)
    (count : entries.length = 2 * n) (formed : ∀ entry ∈ entries, entry.WellFormed limits) :
    Prefixes limits (blocks ++ (header .attribute numeral ++ Sentence.encodeAll entries)) := by
  rintro _ ⟨body, wellFormed, rfl⟩
  rw [List.append_assoc]
  apply earlier
  exact ⟨.attributed numeral entries body, .attributed length admissible count formed wellFormed, rfl⟩

theorem IsSentence.aggregate {kind : Kind} {numeral : Bytes} {n : Nat} (elements : List Sentence)
    (aggregate : kind.isAggregate = true) (length : Numeral limits numeral n) (admissible : Admissible limits kind n)
    (count : elements.length = kind.arity n) (formed : ∀ element ∈ elements, element.WellFormed limits) :
    IsSentence limits (header kind numeral ++ Sentence.encodeAll elements) :=
  ⟨.aggregate kind numeral elements, .aggregate aggregate length admissible count formed, rfl⟩

theorem Stacked.fresh {frames : List Frame} {read : Bytes} (waiting : Opens limits frames read) :
    Stacked limits (.value :: frames) read := by
  have stacked := Stacked.value waiting Prefixes.nil
  rwa [List.append_nil] at stacked

namespace Progress

variable {frame next : Frame} {numeral : Bytes} {done : List Sentence} {sentence : Sentence}

/-- No counter of an unfinished frame wraps. -/
theorem step (progress : Progress limits frame numeral done) : u32 (frame.produced + 1) = frame.produced + 1 := by
  have bound := progress.admissible.lt
  have := progress.unfinished
  exact u32_of_lt (by omega)

variable (progress : Progress limits frame numeral done) (wellFormed : sentence.WellFormed limits)
include progress wellFormed

theorem formed_snoc : ∀ element ∈ done ++ [sentence], element.WellFormed limits := by
  intro element member
  rcases List.mem_append.mp member with earlier | last
  · exact progress.formed element earlier
  · rw [List.mem_singleton.mp last]
    exact wellFormed

theorem receive (expected : next.expected = frame.expected) (kind : next.containerType = frame.containerType)
    (taken : next.taken = frame.taken + 1) (unfinished : next.produced < frame.expected) :
    Progress limits next numeral (done ++ [sentence]) where
  length := expected ▸ progress.length
  admissible := expected ▸ kind ▸ progress.admissible
  formed := progress.formed_snoc wellFormed
  count := by rw [List.length_append, taken, progress.count]; rfl
  unfinished := expected ▸ unfinished

end Progress

namespace Parser

variable {β τ : Type}

/-- What the answer of `attach_to_parent` says about the octets read. -/
def Attached (limits : Limits) (read : Bytes) : Except Stop StepIndex × Parser β τ → Prop
  | (.error _, _) => True
  | (.ok .continueParsing, p) => Stacked limits p.stack read
  | (.ok (.produced _), _) => IsSentence limits read

theorem attachToParent_attached {frames : List Frame} {before octets : Bytes} (opens : Opens limits frames before)
    (value : IsSentence limits octets) (p : Parser β τ) (childIdx : Nat) :
    Attached limits (before ++ octets) (p.attachToParent childIdx frames) := by
  induction opens generalizing octets p childIdx with
  | bottom => exact value
  | @container frame frames before blocks numeral done below block notValue notAttribute progress ih =>
    obtain ⟨sentence, wellFormed, rfl⟩ := value
    have next := progress.step
    have unfinished := progress.unfinished
    -- With this sentence as the last one the container is a value for the frames below.
    have closes (aggregate : frame.containerType.isAggregate = true)
        (count : frame.taken + 1 = frame.containerType.arity frame.expected) (q : Parser β τ) :
        Attached limits
          (before ++ (blocks ++ (header frame.containerType numeral ++ Sentence.encodeAll done)) ++ sentence.encode)
          (q.attachToParent frame.nodeIndex frames) := by
      have whole := block _ (IsSentence.aggregate (done ++ [sentence]) aggregate progress.length
        progress.admissible (by rw [← count, List.length_append, progress.count]; rfl)
        (progress.formed_snoc wellFormed))
      simp only [Sentence.encodeAll_append, Sentence.encodeAll, List.append_nil, ← List.append_assoc] at whole ⊢
      simpa only [List.append_assoc] using ih whole q frame.nodeIndex
    -- Otherwise the frame waits for the next one.
    have stays (frame' : Frame) (expected : frame'.expected = frame.expected)
        (kind : frame'.containerType = frame.containerType) (open' : frame'.state ≠ .value)
        (container : frame'.state ≠ .attribute) (taken : frame'.taken = frame.taken + 1)
        (less : frame'.produced < frame.expected) :
        Stacked limits (.value :: frame' :: frames)
          (before ++ (blocks ++ (header frame.containerType numeral ++ Sentence.encodeAll done)) ++
            sentence.encode) := by
      have waiting := Opens.container below block open' container
        (progress.receive wellFormed expected kind taken less)
      rw [kind] at waiting
      simp only [Sentence.encodeAll_append, Sentence.encodeAll, List.append_nil] at waiting
      simpa only [List.append_assoc] using Stacked.fresh waiting
    rw [attachToParent]
    cases shape : frame.state with
    | value => exact absurd shape notValue
    | «attribute» => exact absurd shape notAttribute
    | array =>
      dsimp only
      split
      · trivial
      · rename_i kinds
        split
        · trivial
        · split
          · rename_i last
            apply closes
            · rcases Decidable.not_not.mp kinds with kind | kind | kind <;> rw [kind] <;> rfl
            · rcases Decidable.not_not.mp kinds with kind | kind | kind <;>
                simp only [Frame.taken, shape, Kind.arity, kind] <;> simp <;> omega
          · rename_i more
            show Stacked limits _ _
            refine stays _ rfl rfl (by simp) (by simp) ?_ ?_
            · simp only [Frame.taken, shape, next]
            · dsimp only
              omega
    | mapKey =>
      dsimp only
      split
      · trivial
      · show Stacked limits _ _
        exact stays _ rfl rfl (by simp) (by simp) (by simp only [Frame.taken, shape]) unfinished
    | mapValue =>
      dsimp only
      split
      · trivial
      · rename_i map
        split
        · trivial
        · split
          · trivial
          · split
            · rename_i last
              apply closes
              · rw [Decidable.not_not.mp map]
                rfl
              · simp only [Frame.taken, shape, Decidable.not_not.mp map, Kind.arity]
                simp
                omega
            · rename_i more
              show Stacked limits _ _
              refine stays _ rfl rfl (by simp) (by simp) ?_ ?_
              · simp only [Frame.taken, shape, next]
                omega
              · dsimp only
                omega
  | @attributes frame frames before blocks numeral done below block shape progress ih =>
    obtain ⟨sentence, wellFormed, rfl⟩ := value
    have next := progress.step
    have unfinished := progress.unfinished
    have stays (frame' : Frame) (expected : frame'.expected = frame.expected)
        (kind : frame'.containerType = frame.containerType) (still : frame'.state = .attribute)
        (taken : frame'.taken = frame.taken + 1) (less : frame'.produced < frame.expected) :
        Stacked limits (.value :: frame' :: .value :: frames)
          (before ++ (blocks ++ (header frame.containerType numeral ++ Sentence.encodeAll done)) ++
            sentence.encode) := by
      have waiting := Opens.attributes below block still (progress.receive wellFormed expected kind taken less)
      rw [kind] at waiting
      simp only [Sentence.encodeAll_append, Sentence.encodeAll, List.append_nil] at waiting
      simpa only [List.append_assoc] using Stacked.fresh waiting
    rw [attachToParent, shape]
    dsimp only
    split
    · trivial
    · rename_i kind
      have kind := Decidable.not_not.mp kind
      split
      · rename_i key
        show Stacked limits _ _
        refine stays _ rfl rfl rfl ?_ unfinished
        simp [Frame.taken, shape, key]
      · rename_i pending
        have pending := Decidable.not_not.mp pending
        split
        · rename_i last
          -- The block is complete and joins those in front of the value that is still to come.
          have admissible := progress.admissible
          rw [kind] at admissible
          have longer := block.block (done ++ [sentence]) progress.length admissible
            (by
              rw [List.length_append, progress.count]
              simp only [Frame.taken, shape, pending, List.length_singleton]
              simp
              omega)
            (progress.formed_snoc wellFormed)
          have stacked := Stacked.value below longer
          rw [kind]
          simp only [Sentence.encodeAll_append, Sentence.encodeAll, List.append_nil, ← List.append_assoc]
            at stacked ⊢
          exact stacked
        · rename_i more
          show Stacked limits _ _
          refine stays _ rfl rfl rfl ?_ ?_
          · simp only [Frame.taken, shape, next, pending]
            simp
            omega
          · dsimp only
            omega

/-- What a pass says about the octets it started with. -/
def Framed (limits : Limits) [Source β τ] (octets : Bytes) : Pass (Parser β τ) (Answer × Parser β τ) → Prop
  | .again p => p.limits = limits ∧ ∃ read, read ++ p.data = octets ∧ Stacked limits p.stack read
  | .leave result => ∀ root, result.1 = .ok (some root) →
      ∃ front, IsSentence limits front ∧ front ++ result.2.data = octets

variable [Source β τ]

theorem fail_framed (octets : Bytes) (p : Parser β τ) (stop : Stop) : Framed limits octets (.leave (p.fail stop)) := by
  cases stop <;> nofun

theorem settle_framed {frames : List Frame} {before value : Bytes} (opens : Opens limits frames before)
    (sentence : IsSentence limits value) {p : Parser β τ} (same : p.limits = limits) (childIdx : Nat) :
    Framed limits (before ++ value ++ p.data) (settle (p.attachToParent childIdx frames)) := by
  have attached := attachToParent_attached opens sentence p childIdx
  obtain ⟨a, stack, only⟩ := attachToParent_only p childIdx frames
  match answer : p.attachToParent childIdx frames with
  | (.error stop, q) => exact fail_framed _ q stop
  | (.ok .continueParsing, q) =>
    rw [answer] at attached only
    subst only
    exact ⟨same, _, rfl, attached⟩
  | (.ok (.produced root), q) =>
    rw [answer] at attached only
    subst only
    exact fun _ _ => ⟨_, attached, rfl⟩

/-- A pass over a value frame: the token in front is a header or a leaf of the grammar. -/
theorem parsePass_framed_value {p : Parser β τ} {frames : List Frame} {before blocks : Bytes}
    (same : p.limits = limits) (stack : p.stack = .value :: frames) (below : Opens limits frames before)
    (block : Prefixes limits blocks) : Framed limits (before ++ blocks ++ p.data) p.parsePass := by
  have spelled := nextToken_spells p.limits p.data
  rw [parsePass_value (topsValue_value stack)]
  subst same
  -- A value that ends here is handed to the frames below.
  have closes {value : Bytes} {used : Nat} (sentence : IsSentence p.limits value)
      (taken : value ++ p.data.drop used = p.data) (q : Parser β τ) (limits : q.limits = p.limits)
      (rest : q.data = p.data.drop used) (childIdx : Nat) :
      Framed p.limits (before ++ blocks ++ p.data) (settle (q.attachToParent childIdx frames)) := by
    have framed := settle_framed below (block _ sentence) limits childIdx
    rw [rest, List.append_assoc, List.append_assoc, taken, ← List.append_assoc] at framed
    exact framed
  generalize nextToken p.limits p.data = token at spelled ⊢
  cases token with
  | more =>
    intro root answer
    cases answer
  | bad error used => exact fail_framed _ _ _
  | leaf node used =>
    obtain ⟨leaf, formed, taken, -, -⟩ := spelled
    simp only [perform, proceed, stack_consume, stack, List.tail_cons]
    refine closes ⟨.leaf leaf, .leaf formed, rfl⟩ taken _ (by rfl) ?_ _
    exact data_consume p used
  | container kind n used =>
    obtain ⟨numeral, aggregate, length, admissible, taken, -⟩ := spelled
    by_cases empty : n = 0
    · subst empty
      have sentence := IsSentence.aggregate [] aggregate length admissible (by cases kind <;> rfl) (by simp)
      simp only [perform, if_pos, proceed, stack_consume, stack, List.tail_cons]
      refine closes sentence (by simpa [Sentence.encodeAll] using taken) _ (by rfl) ?_ _
      exact data_consume p used
    · have progress : Progress p.limits (containerFrame kind n p.tree.nextIndex) numeral [] :=
        ⟨length, admissible, by simp, by by_cases map : kind = .map <;> simp [Frame.taken, containerFrame, map],
          Nat.pos_of_ne_zero empty⟩
      simp only [perform, if_neg empty, proceed, stack, List.tail_cons]
      have waiting := Opens.container below block
        (by by_cases map : kind = .map <;> simp [containerFrame, map])
        (by by_cases map : kind = .map <;> simp [containerFrame, map]) progress
      refine ⟨rfl, _, ?_, .bare waiting (List.cons_ne_nil _ _)
        (by by_cases map : kind = .map <;> simp [topsValue, containerFrame, map])⟩
      refine (congrArg _ (data_consume p used)).trans ?_
      simp only [containerFrame, Sentence.encodeAll, List.append_nil, List.append_assoc, taken]
  | attributes n used =>
    obtain ⟨numeral, length, admissible, taken, -⟩ := spelled
    by_cases empty : n = 0
    · subst empty
      have stacked := Stacked.value below (block.block [] length admissible rfl (by simp))
      simp only [perform, if_pos, proceed, stack]
      refine ⟨rfl, _, ?_, stacked⟩
      refine (congrArg _ (data_consume p used)).trans ?_
      simp only [Sentence.encodeAll, List.append_nil, List.append_assoc, taken]
    · have progress : Progress p.limits (attributeFrame n) numeral [] :=
        ⟨length, admissible, by simp, rfl, Nat.pos_of_ne_zero empty⟩
      have waiting := Opens.attributes below block rfl progress
      simp only [perform, if_neg empty, proceed, stack]
      refine ⟨rfl, _, ?_, .bare waiting (List.cons_ne_nil _ _) rfl⟩
      refine (congrArg _ (data_consume p used)).trans ?_
      simp only [attributeFrame, Sentence.encodeAll, List.append_nil, List.append_assoc, taken]

theorem parsePass_framed {p : Parser β τ} {octets : Bytes} (framed : Framed limits octets (.again p)) :
    Framed limits octets p.parsePass := by
  obtain ⟨same, read, rfl, stacked⟩ := framed
  generalize shape : p.stack = stack at stacked
  cases stacked with
  | value below block => exact parsePass_framed_value same shape below block
  | bare waiting present covered =>
    subst shape
    rw [parsePass_covered present covered]
    exact ⟨same, read, rfl, .fresh waiting⟩

/-- A parser between two messages. -/
structure Idle (p : Parser β τ) : Prop where
  stack : p.stack = []
  healthy : p.failed = false
  consumed : p.treeReady = false

omit [Source β τ] [FloatChars] in
theorem idle_start (limits : Limits) (input : β) : (start limits input : Parser β τ).Idle := ⟨rfl, rfl, rfl⟩

theorem parseOne_idle {p : Parser β τ} (idle : p.Idle) : p.parseOne = parseLoop { p with stack := [.value] } := by
  simp [parseOne, idle.stack, idle.healthy, idle.consumed]

/-- What is returned was spelled out by the octets consumed for it. -/
theorem parseOne_sound {p q : Parser β τ} {root : Nat} (idle : p.Idle) (parsed : p.parseOne = (.ok (some root), q)) :
    ∃ front, IsSentence p.limits front ∧ front ++ q.data = p.data := by
  have framed := run_invariant parsePass_decreases
    (fun r : Parser β τ => Framed p.limits p.data (.again r)) (fun result => Framed p.limits p.data (.leave result))
    (fun _ _ framed again => again ▸ parsePass_framed framed)
    (fun _ _ framed left => left ▸ parsePass_framed framed)
    { p with stack := [.value] } ⟨rfl, [], rfl, .fresh .bottom⟩
  rw [parseOne_idle idle] at parsed
  have same : run parsePass_decreases { p with stack := [.value] } = (.ok (some root), q) := parsed
  rw [same] at framed
  exact framed root rfl

/-- A sentence in front of an idle parser is absorbed, and what follows it stays unread. -/
theorem parseOne_sentence {p : Parser Bytes Text} {sentence : Sentence} {rest : Bytes} (idle : p.Idle)
    (formed : sentence.WellFormed p.limits) (input : p.input = sentence.encode ++ rest)
    (short : p.input.length ≤ Buffer.sizeMax) :
    p.parseOne = (.ok (some (sentence.absorb p.toAssembly).1),
      { p with
        toAssembly := (sentence.absorb p.toAssembly).2, input := rest, stack := [], treeReady := true }) := by
  obtain ⟨q, reaches, settled⟩ := parse_sentence formed { p with stack := [.value] } [] rest rfl rfl input short
  rw [parseOne_idle idle, parseLoop, run_reaches parsePass_decreases reaches]
  exact run_leave _ settled

theorem parseOne_empty {p : Parser β τ} (idle : p.Idle) (empty : p.data = []) :
    p.parseOne = (.ok none, { p with stack := [.value] }) := by
  rw [parseOne_idle idle]
  apply run_leave
  rw [parsePass_value (topsValue_value rfl)]
  have token : nextToken p.limits p.data = .more := by rw [empty]; rfl
  exact congrArg (fun token => proceed (perform { p with stack := [.value] } token)) token

omit [FloatChars] in
theorem copy_idle {p : Parser Buffer View} (memory : Memory) (idle : p.Idle) : (p.copy memory).Idle :=
  ⟨idle.stack, idle.healthy, idle.consumed⟩

/-- One round over the repository's parser: the message is returned and the parser is idle behind it. -/
theorem parseOne_round {p : Parser Buffer View} {front rest : Bytes} (idle : p.Idle)
    (sentence : IsSentence p.limits front) (octets : front ++ rest = p.data) (short : p.data.length ≤ Buffer.sizeMax) :
    ∃ root q, p.parseOne = (.ok (some root), q) ∧ q.data = rest ∧ q.limits = p.limits ∧ q.reclaim.Idle := by
  obtain ⟨sentence, formed, rfl⟩ := sentence
  have copied := parseOne_copy .zeroed p
  rw [parseOne_sentence (copy_idle _ idle) formed octets.symm short] at copied
  obtain ⟨answer, after⟩ := Prod.ext_iff.mp copied
  refine ⟨_, p.parseOne.2, Prod.ext answer.symm rfl, ?_, ?_, rfl, ?_, rfl⟩
  · exact (congrArg (·.input) after).symm
  · exact (congrArg (·.limits) after).symm
  · exact ((congrArg (·.failed) after).symm).trans idle.healthy

/-- What stays unread behind each of the sentences. -/
def leftovers : List Bytes → List Bytes
  | [] => []
  | _ :: rest => rest.flatten :: leftovers rest

/-- Round after round consumes one sentence, until there is none left. -/
theorem drain_sentences {p : Parser Buffer View} {sentences : List Bytes} (idle : p.Idle)
    (formed : ∀ sentence ∈ sentences, IsSentence p.limits sentence) (octets : sentences.flatten = p.data)
    (short : p.data.length ≤ Buffer.sizeMax) :
    p.drain.roots.map (·.parser.data) = leftovers sentences ∧ p.drain.answer = .ok none := by
  induction sentences generalizing p with
  | nil =>
    rw [drain_end (parseOne_empty idle octets.symm) nofun]
    exact ⟨rfl, rfl⟩
  | cons sentence rest ih =>
    have here := formed sentence (List.mem_cons_self ..)
    rw [List.flatten_cons] at octets
    obtain ⟨root, q, parsed, unread, limits, idle'⟩ := parseOne_round idle here octets short
    have fewer := parseOne_root parsed
    have unread' : q.reclaim.data = rest.flatten := (data_reclaim q).trans unread
    obtain ⟨roots, answer⟩ := ih idle'
      (fun other member => by rw [show q.reclaim.limits = q.limits from rfl, limits];
                              exact formed other (List.mem_cons_of_mem _ member))
      unread'.symm (by rw [data_reclaim]; omega)
    rw [drain_root parsed]
    exact ⟨by simp only [List.map_cons, roots, unread, leftovers], answer⟩

/-- The parser returns a message exactly for a sentence in front of its input. -/
theorem parseOne_accepts_exactly (limits : Limits) (room : Nat) (octets : Bytes) (short : octets.length < 2 ^ 32)
    (fits : octets.length ≤ (Buffer.fresh.prepare room).available) :
    let p := (fresh limits).feed room octets
    ((∃ root, p.parseOne.1 = .ok (some root)) ↔
      ∃ front rest, front ++ rest = octets ∧ IsSentence limits front) ∧
    (∀ front rest, front ++ rest = octets → IsSentence limits front →
      p.parseOne.2.data = rest ∧
      ∀ front' rest', front' ++ rest' = octets → IsSentence limits front' → front' = front) ∧
    ∀ sentences : List Bytes, (∀ sentence ∈ sentences, IsSentence limits sentence) → sentences.flatten = octets →
      p.drain.roots.map (·.parser.data) = leftovers sentences ∧ p.drain.answer = .ok none := by
  intro p
  have idle : p.Idle := ⟨rfl, rfl, rfl⟩
  have data : p.data = octets := Buffer.fresh.data_feed fits
  have small : p.data.length ≤ Buffer.sizeMax := by
    rw [data, Buffer.sizeMax]
    omega
  have unread {front rest : Bytes} (whole : front ++ rest = octets) (sentence : IsSentence limits front) :
      p.parseOne.2.data = rest := by
    obtain ⟨root, q, parsed, behind, -, -⟩ := parseOne_round idle sentence (whole.trans data.symm) small
    rw [parsed]
    exact behind
  refine ⟨⟨?_, ?_⟩, ?_, ?_⟩
  · rintro ⟨root, answer⟩
    obtain ⟨front, sentence, whole⟩ := parseOne_sound idle (Prod.ext answer rfl)
    exact ⟨front, _, whole.trans data, sentence⟩
  · rintro ⟨front, rest, whole, sentence⟩
    obtain ⟨root, q, parsed, -, -, -⟩ := parseOne_round idle sentence (whole.trans data.symm) small
    exact ⟨root, by rw [parsed]⟩
  · intro front rest whole sentence
    refine ⟨unread whole sentence, ?_⟩
    intro front' rest' whole' sentence'
    -- Both leave the same octets unread, so they are the same prefix.
    have same : rest' = rest := (unread whole' sentence').symm.trans (unread whole sentence)
    exact List.append_cancel_right (whole'.trans (whole.symm.trans (by rw [same])))
  · intro sentences formed whole
    exact drain_sentences idle formed (whole.trans data.symm) small

/-- The map from `a` to the array of the bulk string `x`, with the attribute `k` of 1. -/
def attributedMap : Sentence :=
  .attributed [49] [.leaf (.line .simpleString [107]), .leaf (.line .integer [49])]
    (.aggregate .map [49]
      [.leaf (.line .simpleString [97]), .aggregate .array [49] [.leaf (.bulk .bulkString [49] [120])]])

theorem attributedMap_wellFormed : attributedMap.WellFormed {} := by
  have one : Numeral {} [49] (1 : Nat) := ⟨by decide, by decide⟩
  have key (octet : UInt8) (free : findCrlf [octet] = none) :
      (Sentence.leaf (.line .simpleString [octet])).WellFormed {} :=
    .leaf (.line rfl free (Nat.le_trans (by decide : 1 ≤ 2) (by decide)) nofun nofun)
  have array : (Sentence.aggregate .array [49] [.leaf (.bulk .bulkString [49] [120])]).WellFormed {} :=
    .aggregate rfl one ⟨by decide, by decide⟩ rfl
      (List.forall_mem_singleton.mpr (.leaf (.bulk rfl one (by decide) nofun)))
  have integer : (Sentence.leaf (.line .integer [49])).WellFormed {} :=
    .leaf (.line rfl (by decide) (by decide) (fun _ => by decide) nofun)
  refine .attributed one ⟨by decide, by decide⟩ rfl ?_ (.aggregate rfl one ⟨by decide, by decide⟩ rfl ?_)
  · exact List.forall_mem_cons.mpr ⟨key 107 (by decide), List.forall_mem_singleton.mpr integer⟩
  · exact List.forall_mem_cons.mpr ⟨key 97 (by decide), List.forall_mem_singleton.mpr array⟩

omit [FloatChars] in
/-- The map and the beginning of another sentence. -/
theorem parseOne_accepts_nested :
    letI := FloatChars.none
    let octets : Bytes := attributedMap.encode ++ [43, 79]
    let p := (fresh {}).feed 4096 octets
    octets.length < 2 ^ 32 ∧ octets.length ≤ (Buffer.fresh.prepare 4096).available ∧
      (∃ root, p.parseOne.1 = .ok (some root)) ∧ p.parseOne.2.data = [43, 79] := by
  let := FloatChars.none
  have fits : (attributedMap.encode ++ [43, 79]).length ≤ (Buffer.fresh.prepare 4096).available :=
    Nat.le_trans (by decide) (Buffer.fresh.le_available_prepare 4096)
  have sentence : IsSentence {} attributedMap.encode := ⟨attributedMap, attributedMap_wellFormed, rfl⟩
  obtain ⟨accepts, unread, -⟩ := parseOne_accepts_exactly {} 4096 (attributedMap.encode ++ [43, 79]) (by decide) fits
  exact ⟨by decide, fits, accepts.mpr ⟨_, _, rfl, sentence⟩, (unread _ _ rfl sentence).1⟩

end Parser

end Rediscoro.Resp3

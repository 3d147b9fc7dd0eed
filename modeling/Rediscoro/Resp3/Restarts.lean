import Rediscoro.Resp3.Calls
import Rediscoro.Resp3.Session

/-! What a parser remembers.

After a `reset` a parser answers as a new one, and after a root was returned and
reclaimed as a new one that was given the unread octets; after an error it answers
nothing but that it has failed. The buffer alone is not restored: it keeps the size
it has grown to. Answers never depend on that. The messages built do when a later
`prepare` moves one of the two buffers under an unfinished message.
-/

set_option autoImplicit false

namespace Rediscoro.Resp3

open Rediscoro.Semantics

/-- The unread octets alone, which keep no text. -/
structure Outline where
  octets : Bytes

instance : Source Outline Unit where
  data input := input.octets
  consume input n := ⟨input.octets.drop n⟩
  text _ _ _ := ()
  compact input := input
  data_consume _ _ := rfl
  data_compact _ := rfl

theorem Buffer.outline_mirror :
    Mirror (fun (_ : Kind) (_ : View) => ()) fun (buf : Buffer) (input : Outline) => input = ⟨buf.data⟩ where
  data := by
    rintro buf input rfl
    rfl
  consume := by
    rintro buf input n rfl
    exact congrArg Outline.mk (buf.data_consume n).symm
  text := fun _ _ _ => rfl

namespace Parser

/-- Everything but the texts. -/
def outline (p : Parser Buffer View) : Parser Outline Unit := p.recast (fun _ _ => ()) ⟨p.data⟩

theorem outline_input {p q : Parser Buffer View} {input other : Buffer} (same : p.outline = q.outline)
    (octets : input.data = other.data) : { p with input := input }.outline = { q with input := other }.outline := by
  have joined : ({ p.outline with input := ⟨input.data⟩ } : Parser Outline Unit) =
      { q.outline with input := ⟨other.data⟩ } := by rw [same, octets]
  exact joined

theorem data_of_outline {p q : Parser Buffer View} (same : p.outline = q.outline) : p.data = q.data :=
  congrArg (fun r : Parser Outline Unit => r.input.octets) same

theorem outline_clear {p q : Parser Buffer View} {input other : Buffer} (same : p.outline = q.outline)
    (octets : input.data = other.data) : (p.clear input).outline = (q.clear other).outline := by
  have joined : p.outline.clear (⟨input.data⟩ : Outline) = q.outline.clear ⟨other.data⟩ := by rw [same, octets]
  exact joined

/-- The outline with the texts filled in. -/
def fill (p : Parser Outline Unit) (tree : RawTree Text) : Parser Bytes Text :=
  { tree := tree
    pendingAttrs := p.pendingAttrs
    input := p.input.octets
    stack := p.stack
    failed := p.failed
    treeReady := p.treeReady
    limits := p.limits }

/-- The same outline and the same texts are the same copy. -/
theorem copy_of_outline {p q : Parser Buffer View} {memory later : Memory} (same : p.outline = q.outline)
    (texts : p.contents memory = q.contents later) : p.copy memory = q.copy later := by
  have filled (r : Parser Buffer View) (memory : Memory) : r.copy memory = r.outline.fill (r.contents memory) := rfl
  rw [filled p, filled q, same, texts]

section Answers

variable [FloatChars]

/-- The answer of `parse_one`; the other calls give none. -/
def answer (p : Parser Buffer View) : ParserOp → List Answer
  | .parseOne => [p.parseOne.1]
  | _ => []

def answers : Parser Buffer View → List ParserOp → List Answer := outputs operate answer

theorem parseOne_outline (p : Parser Buffer View) :
    p.outline.parseOne = (p.parseOne.1, p.parseOne.2.outline) := by
  obtain ⟨input, rfl, same⟩ := parseOne_recast Buffer.outline_mirror (p := p) rfl
  exact same

/-- Parsers with the same outline answer alike and keep the same outline. -/
theorem operate_outline {p q p' q' : Parser Buffer View} (op : ParserOp) (same : p.outline = q.outline)
    (left : p.operate op = some p') (right : q.operate op = some q') :
    p'.outline = q'.outline ∧ p.answer op = q.answer op := by
  have octets : p.input.data = q.input.data := data_of_outline same
  cases op with
  | prepare minSize =>
    -- one of the buffers may move and the other not; the octets in front of the parser are the same
    cases left
    cases right
    refine ⟨outline_input same ?_, rfl⟩
    rw [Buffer.data_prepare, Buffer.data_prepare, octets]
  | commit chunk =>
    rw [operate] at left right
    split at left
    case isFalse => cases left
    split at right
    case isFalse => cases right
    cases left
    cases right
    refine ⟨outline_input same ?_, rfl⟩
    rw [Buffer.data_commit_write _ ‹_›, Buffer.data_commit_write _ ‹_›, octets]
  | parseOne =>
    cases left
    cases right
    have parsed := parseOne_outline p
    rw [same, parseOne_outline q] at parsed
    obtain ⟨answers, outlines⟩ := Prod.mk.inj parsed
    exact ⟨outlines.symm, congrArg (· :: []) answers.symm⟩
  | reclaim =>
    cases left
    cases right
    refine ⟨outline_clear same ?_, rfl⟩
    exact (Buffer.data_compact _).trans (octets.trans (Buffer.data_compact _).symm)
  | reset =>
    cases left
    cases right
    have cleared := outline_clear same ((Buffer.data_reset p.input).trans (Buffer.data_reset q.input).symm)
    exact ⟨congrArg (fun r : Parser Outline Unit => { r with failed := false }) cleared, rfl⟩

theorem answers_outline {p q p' q' : Parser Buffer View} {ops : List ParserOp} (same : p.outline = q.outline)
    (left : runFrom operate p ops = some p') (right : runFrom operate q ops = some q') :
    answers p ops = answers q ops := by
  have agree (p q p' q' : Parser Buffer View) (op : ParserOp) (same : p.outline = q.outline) (_ _ : True)
      (left : p.operate op = some p') (right : q.operate op = some q') :=
    operate_outline op same left right
  exact outputs_related agree same (guarded_true ops) (guarded_true ops) left right

/-! Messages. -/

/-- What `parse_one` answers, a root with its tree as it is found then. -/
def reply (memory : Memory) (p : Parser Buffer View) : ParserOp → List (Except Stop (Option (Nat × RawTree Text)))
  | .parseOne => [p.parseOne.1.map fun found => found.map fun root => (root, p.parseOne.2.contents memory)]
  | _ => []

def replies (memory : Memory) :
    Parser Buffer View → List ParserOp → List (Except Stop (Option (Nat × RawTree Text))) :=
  outputs operate (reply memory)

/-- The same with what `build_message` makes of each root in at most `fuel` passes. -/
def outcomes (memory : Memory) (fuel : Nat) (p : Parser Buffer View) (ops : List ParserOp) :
    List (Except Stop (Option (Option (Except Fault Message)))) :=
  (p.replies memory ops).map fun reply => reply.map fun found => found.map fun root => build fuel root.2 root.1

/-- A `prepare` that moves the buffer finds no text that a message would show in the unfinished one. -/
def Calm (p : Parser Buffer View) : ParserOp → Prop
  | .prepare minSize => p.treeReady = false → p.failed = false → p.input.Grows minSize →
      ∀ node ∈ p.tree.nodes, node.type.textual = true → node.text.length = 0
  | _ => True

instance (p : Parser Buffer View) (op : ParserOp) : Decidable (p.Calm op) :=
  match op with
  | .prepare _ => inferInstanceAs (Decidable (_ → _ → _ → ∀ node ∈ _, _))
  | .commit _ | .parseOne | .reclaim | .reset => inferInstanceAs (Decidable True)

/-- Two parsers that no later call tells apart: the texts matter until the message is
complete or the parser has failed. -/
structure Alike (p q : Parser Buffer View) : Prop where
  outline : p.outline = q.outline
  inside : p.Inside
  inside' : q.Inside
  contents : p.treeReady = false → p.failed = false → ∀ memory later, p.contents memory = q.contents later

namespace Alike

variable {p q : Parser Buffer View}

omit [FloatChars] in
theorem treeReady (alike : p.Alike q) : p.treeReady = q.treeReady :=
  congrArg (fun r : Parser Outline Unit => r.treeReady) alike.outline

omit [FloatChars] in
theorem failed (alike : p.Alike q) : p.failed = q.failed :=
  congrArg (fun r : Parser Outline Unit => r.failed) alike.outline

theorem parseOne (alike : p.Alike q) :
    p.parseOne.2.Alike q.parseOne.2 ∧ ∀ memory later, p.reply memory .parseOne = q.reply later .parseOne := by
  have outline := (operate_outline .parseOne alike.outline rfl rfl).1
  have inside := parseOne_inside alike.inside
  have inside' := parseOne_inside alike.inside'
  by_cases usable : p.treeReady = false ∧ p.failed = false
  · have parsed (memory later : Memory) : q.parseOne.1 = p.parseOne.1 ∧
        q.parseOne.2.copy later = p.parseOne.2.copy memory := by
      have parsed := parseOne_copy memory p
      rw [copy_of_outline alike.outline (alike.contents usable.1 usable.2 memory later),
        parseOne_copy later q] at parsed
      exact Prod.mk.inj parsed
    have contents (memory later : Memory) : q.parseOne.2.contents later = p.parseOne.2.contents memory :=
      congrArg (fun c : Parser Bytes Text => c.tree) (parsed memory later).2
    refine ⟨⟨outline, inside, inside', fun _ _ memory later => (contents memory later).symm⟩, fun memory later => ?_⟩
    rw [reply, reply, (parsed memory later).1, contents memory later]
  · -- neither call looks at the tree
    have stuck {r : Parser Buffer View} (unusable : ¬(r.treeReady = false ∧ r.failed = false)) :
        ∃ error, r.parseOne = (.error error, r) := by
      unfold Parser.parseOne
      cases ready : r.treeReady with
      | true => exact ⟨_, rfl⟩
      | false =>
        cases broken : r.failed with
        | true => exact ⟨_, rfl⟩
        | false => exact absurd ⟨ready, broken⟩ unusable
    obtain ⟨error, left⟩ := stuck usable
    obtain ⟨error', right⟩ := stuck (r := q) (by rwa [← alike.treeReady, ← alike.failed])
    have answers := (operate_outline .parseOne alike.outline rfl rfl).2
    rw [answer, answer, left, right] at answers
    refine ⟨?_, fun memory later => ?_⟩
    · rw [left, right]
      exact alike
    · rw [reply, reply, left, right]
      exact congrArg (fun error => [Except.error error]) (by simpa using answers)

theorem operate {p' q' : Parser Buffer View} {op : ParserOp} (alike : p.Alike q) (calm : p.Calm op) (calm' : q.Calm op)
    (left : p.operate op = some p') (right : q.operate op = some q') :
    p'.Alike q' ∧ ∀ memory later, p.reply memory op = q.reply later op := by
  have outline := (operate_outline op alike.outline left right).1
  cases op with
  | prepare minSize =>
    -- texts that matter are not moved by either of them
    cases left
    cases right
    refine ⟨⟨outline, prepare_inside alike.inside, prepare_inside alike.inside', fun ready failed memory later => ?_⟩,
      fun _ _ => rfl⟩
    rw [contents_prepare memory (calm ready failed), alike.contents ready failed memory later]
    exact (contents_prepare later (calm' (alike.treeReady ▸ ready) (alike.failed ▸ failed))).symm
  | commit chunk =>
    rw [Parser.operate] at left right
    split at left
    case isFalse => cases left
    split at right
    case isFalse => cases right
    cases left
    cases right
    refine ⟨⟨outline, commit_inside alike.inside, commit_inside alike.inside', fun ready failed memory later => ?_⟩,
      fun _ _ => rfl⟩
    rw [contents_commit memory alike.inside, contents_commit later alike.inside']
    exact alike.contents ready failed memory later
  | parseOne =>
    cases left
    cases right
    exact alike.parseOne
  | reclaim | reset =>
    cases left
    cases right
    exact ⟨⟨outline, List.forall_mem_nil _, List.forall_mem_nil _, fun _ _ _ _ => rfl⟩, fun _ _ => rfl⟩

theorem outcomes {p' q' : Parser Buffer View} {ops : List ParserOp} (alike : p.Alike q)
    (calm : Guarded Parser.operate Calm p ops) (calm' : Guarded Parser.operate Calm q ops)
    (left : runFrom Parser.operate p ops = some p') (right : runFrom Parser.operate q ops = some q')
    (memory later : Memory) (fuel : Nat) : outcomes memory fuel p ops = outcomes later fuel q ops := by
  have agree (p q p' q' : Parser Buffer View) (op : ParserOp) (alike : p.Alike q) (calm : p.Calm op)
      (calm' : q.Calm op) (left : p.operate op = some p') (right : q.operate op = some q') :
      p'.Alike q' ∧ p.reply memory op = q.reply later op := by
    obtain ⟨alike', same⟩ := alike.operate calm calm' left right
    exact ⟨alike', same memory later⟩
  have replies : p.replies memory ops = q.replies later ops := outputs_related agree alike calm calm' left right
  rw [Parser.outcomes, Parser.outcomes, replies]

end Alike

/-! Failures. -/

section Failures

variable {β τ : Type}

/-- The loop goes on in good health, or leaves; what it leaves has failed after a
protocol error, and is in good health after anything else it answers. -/
def Marked : Pass (Parser β τ) (Answer × Parser β τ) → Prop
  | .again p => p.treeReady = false ∧ p.failed = false
  | .leave (.error (.protocol _), p) => p.treeReady = false ∧ p.failed = true
  | .leave (.error _, _) => True
  | .leave (.ok _, p) => p.failed = false

omit [FloatChars] in
theorem fail_marked {p : Parser β τ} (incomplete : p.treeReady = false) (stop : Stop) :
    Marked (.leave (p.fail stop)) := by
  cases stop with
  | protocol error => exact ⟨incomplete, rfl⟩
  | assertion | outOfRange => trivial

omit [FloatChars] in
theorem proceed_marked {p : Parser β τ} (fine : p.treeReady = false ∧ p.failed = false)
    (answer : Except Stop (Option StepIndex)) : Marked (proceed (answer, p)) := by
  rcases answer with stop | _ | _ | index
  · exact fail_marked fine.1 stop
  · exact fine.2
  · exact fine
  · obtain ⟨assembly, stack, only⟩ := attachToParent_only p index p.stack.tail
    have fine' : (p.attachToParent index p.stack.tail).2.treeReady = false ∧
        (p.attachToParent index p.stack.tail).2.failed = false := by
      rw [only]
      exact fine
    simp only [proceed]
    generalize p.attachToParent index p.stack.tail = settled at fine' ⊢
    rcases settled with ⟨stop | _ | root, q⟩
    · exact fail_marked fine'.1 stop
    · exact fine'
    · exact fine'.2

variable [Source β τ]

omit [FloatChars] in
theorem perform_flags (p : Parser β τ) (token : Token) :
    (p.perform token).2.treeReady = p.treeReady ∧ (p.perform token).2.failed = p.failed := by
  cases token with
  | container type len used =>
    simp only [perform]
    split <;> exact ⟨rfl, rfl⟩
  | _ => exact ⟨rfl, rfl⟩

theorem parsePass_marked {p : Parser β τ} (fine : p.treeReady = false ∧ p.failed = false) : Marked p.parsePass := by
  by_cases empty : p.stack = []
  · simp only [parsePass, empty]
    exact fail_marked fine.1 _
  · cases top : topsValue p.stack with
    | true =>
      obtain ⟨ready, failed⟩ := perform_flags p (nextToken p.limits p.data)
      rw [parsePass_value top]
      exact proceed_marked ⟨ready.trans fine.1, failed.trans fine.2⟩ _
    | false =>
      rw [parsePass_covered empty top]
      exact fine

theorem parseLoop_marked {p : Parser β τ} (fine : p.treeReady = false ∧ p.failed = false) :
    Marked (.leave p.parseLoop) := by
  refine run_invariant parsePass_decreases (fun q : Parser β τ => q.treeReady = false ∧ q.failed = false)
    (fun result => Marked (.leave result)) ?_ ?_ p fine
  · intro q next fine again
    have marked := parsePass_marked fine
    rwa [again] at marked
  · intro q result fine left
    have marked := parsePass_marked fine
    rwa [left] at marked

/-- A message in the way stays there; any other call leaves the parser marked. -/
theorem parseOne_marked (p : Parser β τ) :
    p.parseOne.1 = .error (.protocol .treeNotConsumed) ∨ Marked (.leave p.parseOne) := by
  unfold parseOne
  cases ready : p.treeReady with
  | true => exact .inl rfl
  | false =>
    cases failed : p.failed with
    | true => exact .inr ⟨ready, failed⟩
    | false => exact .inr (parseLoop_marked ⟨rfl, rfl⟩)

end Failures

/-- Only a reset helps a parser that has failed. -/
theorem answers_failed {p : Parser Buffer View} {ops : List ParserOp} (failed : p.treeReady = false ∧ p.failed = true)
    (kept : .reset ∉ ops) :
    ∀ given ∈ answers p ops, given = .error (.protocol .parserFailed) := by
  unfold answers
  refine outputs_invariant (fun q : Parser Buffer View => q.treeReady = false ∧ q.failed = true)
    (fun given : Answer => given = .error (.protocol .parserFailed)) ?_ failed
  intro p next op member stuck stepped
  have parsed : p.parseOne = (.error (.protocol .parserFailed), p) := by
    rw [parseOne, stuck.1, stuck.2]
    rfl
  cases op with
  | prepare minSize =>
    cases stepped
    exact ⟨stuck, List.forall_mem_nil _⟩
  | commit chunk =>
    rw [operate] at stepped
    split at stepped
    · cases stepped
      exact ⟨stuck, List.forall_mem_nil _⟩
    · cases stepped
  | parseOne =>
    cases stepped
    rw [answer, parsed]
    exact ⟨stuck, fun shown listed => List.mem_singleton.mp listed⟩
  | reclaim =>
    cases stepped
    exact ⟨⟨rfl, stuck.2⟩, List.forall_mem_nil _⟩
  | reset => exact absurd member kept

/-! Restarts. -/

/-- The same calls, all accepted by both parsers, answer the same; and if no `prepare`
moves a buffer under an unfinished message, they give the same messages. -/
def Repeats (p q : Parser Buffer View) (ops ops' : List ParserOp) : Prop :=
  (runFrom operate p ops).isSome = true → (runFrom operate q ops').isSome = true →
    answers p ops = answers q ops' ∧
      (Guarded operate Calm p ops → Guarded operate Calm q ops' →
        ∀ memory later fuel, outcomes memory fuel p ops = outcomes later fuel q ops')

theorem Alike.repeats {p q : Parser Buffer View} (alike : p.Alike q) (ops : List ParserOp) : Repeats p q ops ops := by
  intro accepted accepted'
  obtain ⟨p', left⟩ := Option.isSome_iff_exists.mp accepted
  obtain ⟨q', right⟩ := Option.isSome_iff_exists.mp accepted'
  exact ⟨answers_outline alike.outline left right, fun calm calm' => alike.outcomes calm calm' left right⟩

omit [FloatChars] in
theorem reset_alike (p : Parser Buffer View) : p.reset.Alike (fresh p.limits) where
  outline := congrArg (fun octets => (start p.limits ⟨octets⟩ : Parser Outline Unit)) p.input.data_reset
  inside := nofun
  inside' := nofun
  contents := fun _ _ _ _ => rfl

omit [FloatChars] in
/-- What is left after a message is what a new parser has to which the unread octets were committed. -/
theorem reclaim_alike {p : Parser Buffer View} {room : Nat} (healthy : p.failed = false)
    (fits : p.data.length ≤ (Buffer.fresh.prepare room).available) :
    p.reclaim.Alike ((fresh p.limits).feed room p.data) where
  outline := by
    have left : p.reclaim.outline = { start p.limits (⟨p.reclaim.data⟩ : Outline) with failed := p.failed } := rfl
    have right : ((fresh p.limits).feed room p.data).outline =
        start p.limits (⟨(Buffer.fresh.feed room p.data).data⟩ : Outline) := rfl
    rw [left, right, healthy, data_reclaim, Buffer.data_feed _ fits]
    rfl
  inside := nofun
  inside' := nofun
  contents := fun _ _ _ _ => rfl

/-- The two calls that commit octets answer nothing. -/
theorem Repeats.fed {p q : Parser Buffer View} {room : Nat} {octets : Bytes} {ops : List ParserOp}
    (repeats : octets.length ≤ (q.input.prepare room).available → Repeats p (q.feed room octets) ops ops) :
    Repeats p q ops (.prepare room :: .commit octets :: ops) := by
  intro accepted accepted'
  have prepared : q.operate (.prepare room) = some { q with input := q.input.prepare room } := rfl
  obtain ⟨last, run⟩ := Option.isSome_iff_exists.mp accepted'
  rw [runFrom, prepared] at run
  obtain ⟨next, committed, run⟩ := runFrom_cons run
  have fits : octets.length ≤ (q.input.prepare room).available := by
    by_contra beyond
    rw [operate, if_neg beyond] at committed
    cases committed
  obtain rfl : q.feed room octets = next := by
    rw [operate, if_pos fits] at committed
    exact Option.some.inj committed
  have replied (later : Memory) :
      replies later q (.prepare room :: .commit octets :: ops) = replies later (q.feed room octets) ops := by
    rw [replies, outputs_cons prepared, outputs_cons committed]
    rfl
  obtain ⟨answered, built⟩ := repeats fits accepted (Option.isSome_iff_exists.mpr ⟨last, run⟩)
  refine ⟨?_, fun calm calm' memory later fuel => ?_⟩
  · rw [answered, answers, outputs_cons prepared, outputs_cons committed]
    rfl
  · rw [built calm ((calm'.tail prepared).tail committed) memory later, outcomes, outcomes, replied]

/-- Nothing of a message or a connection is left after a reset, after a reclaimed root, or in the
answers of a parser that has failed. -/
theorem no_state_leaks (p : Parser Buffer View) :
    (∀ ops, Repeats p.reset (fresh p.limits) ops ops) ∧
    (∀ root, p.parseOne.1 = .ok (some root) → ∀ room ops, Repeats p.parseOne.2.reclaim (fresh p.limits) ops
      (.prepare room :: .commit p.parseOne.2.data :: ops)) ∧
    (∀ error, p.parseOne.1 = .error (.protocol error) → error ≠ .treeNotConsumed → ∀ ops, .reset ∉ ops →
      ∀ given ∈ answers p.parseOne.2 ops, given = .error (.protocol .parserFailed)) := by
  have limits := (parseOne_keeps p).1
  have marked := parseOne_marked p
  refine ⟨fun ops => (reset_alike p).repeats ops, ?_, ?_⟩
  · intro root parsed room ops
    apply Repeats.fed
    intro fits
    have healthy : p.parseOne.2.failed = false := by
      match p.parseOne, parsed, marked with
      | (.ok (some _), q), _, marked => exact marked.resolve_left nofun
    rw [← limits]
    exact (reclaim_alike healthy fits).repeats ops
  · intro error parsed other ops kept
    apply answers_failed _ kept
    match p.parseOne, parsed, marked with
    | (.error (.protocol _), q), rfl, marked =>
      exact marked.resolve_left fun same => other (Stop.protocol.inj (Except.error.inj same))

/-- The calls for a list of pieces, with `parse_one` behind each. -/
def calls (cut : List (Nat × Bytes)) : List ParserOp :=
  cut.flatMap fun piece => [.prepare piece.1, .commit piece.2, .parseOne]

/-- A parser whose buffer has grown before. -/
def grown : Parser Buffer View := { fresh {} with input := Buffer.fresh.prepare 4097 }

omit [FloatChars] in
/-- The new parser's buffer moves under the first string, the larger one of the old parser does not. -/
theorem grown_differs :
    letI := FloatChars.none
    runFrom operate (fresh {}) [.prepare 4097] = some grown ∧
      outcomes .zeroed 16 grown.reset (calls Reader.splitReply) = [.ok none, .ok (some (some (.ok Reader.okPair)))] ∧
      outcomes .zeroed 16 (fresh {}) (calls Reader.splitReply) =
        [.ok none, .ok (some (some (.ok (Reader.stringPair [0, 0] (Reader.wire "OK")))))] := by
  let := FloatChars.none
  have old : replies .zeroed grown.reset (calls Reader.splitReply) =
      [.ok none, .ok (some (0, Reader.okTree (Reader.wire "OK") (Reader.wire "OK")))] := by decide +kernel
  have new : replies .zeroed (fresh {}) (calls Reader.splitReply) =
      [.ok none, .ok (some (0, Reader.okTree [0, 0] (Reader.wire "OK")))] := by decide +kernel
  refine ⟨rfl, ?_, ?_⟩
  · rw [outcomes, old]
    rfl
  · rw [outcomes, new]
    rfl

omit [FloatChars] in
theorem grown_repeats :
    letI := FloatChars.none
    answers grown.reset (calls Reader.headedReply) = [.ok none, .ok (some 0)] ∧
      ∀ memory later fuel, outcomes memory fuel grown.reset (calls Reader.headedReply) =
        outcomes later fuel (fresh {}) (calls Reader.headedReply) := by
  let := FloatChars.none
  have repeats := (no_state_leaks grown).1 (calls Reader.headedReply) (by decide +kernel) (by decide +kernel)
  exact ⟨by decide +kernel, repeats.2 (by decide +kernel) (by decide +kernel)⟩

end Answers

end Parser

end Rediscoro.Resp3

import Rediscoro.Resp3.Buildable

/-! Streams of sentences.

A parser between two messages returns, for the sentences in front of its input, what
each of them makes of an empty tree, and every root it returns is that of a sentence in
front. What is read in pieces is what is read at once, up to where an error stops it.
`build_message` gives every such root a message with the value of its sentence.
-/

set_option autoImplicit false

namespace Rediscoro.Resp3

open Rediscoro.Semantics

namespace Message

theorem bare_collect {kind : Kind} (aggregate : kind.isAggregate = true) (elements : List Message) :
    (Message.collect kind elements).bare = .collect kind [] := by
  cases kind with
  | array | set | push | map => rfl
  | _ => cases aggregate

/-- A value whose type octet is that of a push. -/
def isPush : Message → Bool
  | .sequence kind _ _ => kind = .push
  | .scalar (.null source) _ => source = .push
  | _ => false

/-- The text of an error reply. -/
def failure : Message → Option Bytes
  | .scalar (.simpleError text) _ => some text
  | .scalar (.bulkError text) _ => some text
  | _ => none

theorem isPush_bare (message : Message) : message.bare.isPush = message.isPush := by
  cases message with
  | scalar value attrs => cases value <;> rfl
  | sequence kind elements attrs => rfl
  | map entries attrs => rfl

theorem failure_bare (message : Message) : message.bare.failure = message.failure := by
  cases message with
  | scalar value attrs => cases value <;> rfl
  | sequence kind elements attrs => rfl
  | map entries attrs => rfl

end Message

namespace Sentence

/-- The root and the tree that the sentence alone is parsed to. -/
def root (sentence : Sentence) : Nat × RawTree Text := ((sentence.absorb {}).1, (sentence.absorb {}).2.tree)

/-- What `build_message` makes of the sentence. -/
def Builds (sentence : Sentence) (message : Message) : Prop :=
  ∃ fuel, build fuel sentence.root.2 sentence.root.1 = some (.ok message)

/-- So many passes of `build_message` are enough for the sentence. -/
def builtIn (fuel : Nat) (sentence : Sentence) : Bool :=
  match build fuel sentence.root.2 sentence.root.1 with
  | some (.ok _) => true
  | _ => false

/-- The message that is built in so many passes, if they are enough. -/
def message (fuel : Nat) (sentence : Sentence) : Message :=
  match build fuel sentence.root.2 sentence.root.1 with
  | some (.ok message) => message
  | _ => .null

theorem build_message {fuel : Nat} {sentence : Sentence} (built : sentence.builtIn fuel = true) :
    build fuel sentence.root.2 sentence.root.1 = some (.ok (sentence.message fuel)) := by
  unfold builtIn at built
  unfold message
  split at built
  · rename_i done
    rw [done]
  · cases built

theorem Builds.unique {sentence : Sentence} {one other : Message} (first : sentence.Builds one)
    (second : sentence.Builds other) : one = other := by
  obtain ⟨_, left⟩ := first
  obtain ⟨_, right⟩ := second
  exact Except.ok.inj (iterate_deterministic left right)

/-! The node of a sentence. -/

theorem cores_tracks : Assembly.Tracks fun a b =>
    a.tree.nodes.map RawNode.core <+: b.tree.nodes.map RawNode.core where
  refl _ := List.prefix_rfl
  trans := List.IsPrefix.trans
  pushNode a node := by
    rw [cores_pushNode, List.map_append]
    exact List.prefix_append ..
  pushPending _ _ := List.prefix_rfl
  adoptElement a parent childIdx := cores_adoptElement a parent childIdx ▸ List.prefix_rfl
  adoptEntry a parent childIdx := cores_adoptEntry a parent childIdx ▸ List.prefix_rfl

/-- A node that was pushed is found under its index, up to its windows. -/
theorem core_pushed {a b : Assembly Text} {node : RawNode Text}
    (later : (a.pushNode node).tree.nodes.map RawNode.core <+: b.tree.nodes.map RawNode.core)
    (small : b.tree.nodes.length ≤ 2 ^ 32) :
    ∃ found, b.tree.nodes[a.tree.nextIndex]? = some found ∧ found.core = node.core := by
  rw [cores_pushNode, List.map_append] at later
  obtain ⟨tail, same⟩ := later
  have size := congrArg List.length same
  simp only [List.length_append, List.length_map, List.map_cons, List.map_nil, List.length_singleton] at size
  have index : a.tree.nextIndex = a.tree.nodes.length := u32_of_lt (by omega)
  have here : (b.tree.nodes.map RawNode.core)[a.tree.nodes.length]? = some node.core := by
    rw [← same]
    simp
  rw [List.getElem?_map] at here
  obtain ⟨found, there, core⟩ := Option.map_eq_some_iff.mp here
  exact ⟨found, index ▸ there, core⟩

theorem initialMessage_header {kind : Kind} (aggregate : kind.isAggregate = true) (len nextLink : Nat) :
    initialMessage (headerNode kind len nextLink) = .ok (.collect kind []) := by
  have length : (len : Int) ≠ -1 := by omega
  cases kind with
  | array | set | push | map =>
    simp only [initialMessage, headerNode, Parser.containerNode, RawNode.map, length]
    rfl
  | _ => cases aggregate

variable [FloatChars] {limits : Limits}

/-- The node of a sentence, which is that of a container or the last one. -/
theorem node_absorb {sentence : Sentence} (formed : sentence.WellFormed limits) (a : Assembly Text)
    (small : (sentence.absorb a).2.tree.nodes.length ≤ 2 ^ 32) :
    ∃ node, (sentence.absorb a).2.tree.nodes[(sentence.absorb a).1]? = some node ∧
      initialMessage node = .ok sentence.meaning.bare ∧
      (node.type.isAggregate = true ∨ (sentence.absorb a).1 + 1 = (sentence.absorb a).2.tree.nodes.length) := by
  induction formed generalizing a with
  | @leaf body formed =>
    have later : (a.pushNode body.rawNode).tree.nodes.map RawNode.core <+:
        ((Sentence.leaf body).absorb a).2.tree.nodes.map RawNode.core := List.prefix_rfl
    have size : ((Sentence.leaf body).absorb a).2.tree.nodes.length = a.tree.nodes.length + 1 :=
      a.length_pushNode body.rawNode
    have index : ((Sentence.leaf body).absorb a).1 = a.tree.nodes.length := u32_of_lt (by omega)
    obtain ⟨node, found, core⟩ := core_pushed later small
    refine ⟨node, found, ?_, .inr (by omega)⟩
    rw [← initialMessage_core, core, initialMessage_core]
    exact initialMessage_rawNode formed
  | @aggregate kind numeral n elements aggregate length admissible count formed ih =>
    have each (element : Sentence) (_ : element ∈ elements) := absorb_tracks cores_tracks element
    have kept : ∀ frame b, b.tree.nodes.map RawNode.core <+:
        (if kind = .map then absorbEntries elements frame b
          else absorbElements elements frame b).tree.nodes.map RawNode.core := by
      intro frame b
      split
      · exact absorbEntries_tracks cores_tracks each frame b
      · exact absorbElements_tracks cores_tracks each frame b
    simp only [absorb] at small ⊢
    obtain ⟨node, found, core⟩ := core_pushed (kept _ _) small
    have type : node.type = kind := congrArg RawNode.type core
    refine ⟨node, found, ?_, .inl (by rw [type]; exact aggregate)⟩
    rw [← initialMessage_core, core, initialMessage_core, initialMessage_header aggregate, meaning,
      Message.bare_collect aggregate]
  | attributed length admissible count formed body ih ihBody => exact ihBody _ small

/-- The parser returns the tree of a sentence with its root completed last. -/
theorem whole {sentence : Sentence} (formed : sentence.WellFormed limits) (short : sentence.encode.length < 2 ^ 32) :
    Parser.Whole sentence.root ∧ sentence.root.2.nodes.length ≤ 2 ^ 32 := by
  let p : Parser Bytes Text := .start limits sentence.encode
  have load : p.load ≤ sentence.encode.length := Nat.le_of_eq (Nat.zero_add _)
  have regular : p.Regular sentence.encode.length := ⟨⟨[], [], Sound.start, .inr rfl⟩, load, nofun⟩
  have small : p.input.length ≤ Buffer.sizeMax := by
    show sentence.encode.length ≤ _
    rw [Buffer.sizeMax]
    omega
  have parsed := Parser.parseOne_sentence (Parser.idle_start limits sentence.encode) formed
    (List.append_nil _).symm small
  have nodes := (regular.parseOne short).within
  rw [parsed] at nodes
  have few : (sentence.absorb {}).2.tree.nodes.length + 0 ≤ sentence.encode.length := nodes
  refine ⟨regular.root short parsed, ?_⟩
  show (sentence.absorb {}).2.tree.nodes.length ≤ _
  omega

/-- `build_message` gives the sentence a message with the value of its node. -/
theorem builds_node {sentence : Sentence} (formed : sentence.WellFormed limits)
    (short : sentence.encode.length < 2 ^ 32) :
    ∃ message node, sentence.Builds message ∧ sentence.root.2.nodes[sentence.root.1]? = some node ∧
      initialMessage node = .ok message.bare ∧ message.bare = sentence.meaning.bare ∧
      (node.type.isAggregate = true ∨ sentence.root.1 + 1 = sentence.root.2.nodes.length) := by
  obtain ⟨whole, few⟩ := whole formed short
  obtain ⟨message, yields, node, found, initial⟩ := whole.yields
  obtain ⟨node', found', initial', place⟩ := node_absorb formed {} few
  obtain rfl : node = node' := Option.some.inj (found.symm.trans found')
  exact ⟨message, node, yields.build, found, initial, Except.ok.inj (initial.symm.trans initial'), place⟩

theorem bare_message {fuel : Nat} {sentence : Sentence} (formed : sentence.WellFormed limits)
    (short : sentence.encode.length < 2 ^ 32) (built : sentence.builtIn fuel = true) :
    (sentence.message fuel).bare = sentence.meaning.bare := by
  obtain ⟨message, -, builds, -, -, bare, -⟩ := builds_node formed short
  rw [Builds.unique ⟨fuel, build_message built⟩ builds, bare]

/-- Sentences with the same tree are errors with the same text, or none. -/
theorem failure_root {sentence other : Sentence} (formed : sentence.WellFormed limits)
    (formed' : other.WellFormed limits) (short : sentence.encode.length < 2 ^ 32)
    (short' : other.encode.length < 2 ^ 32) (same : sentence.root = other.root) :
    sentence.meaning.failure = other.meaning.failure := by
  obtain ⟨message, -, builds, -, -, bare, -⟩ := builds_node formed short
  obtain ⟨message', -, builds', -, -, bare', -⟩ := builds_node formed' short'
  have builds : other.Builds message := by
    obtain ⟨fuel, built⟩ := builds
    rw [same] at built
    exact ⟨fuel, built⟩
  rw [← Message.failure_bare, ← bare, Builds.unique builds builds', bare', Message.failure_bare]

/-- Enough passes for each of them are enough for all. -/
theorem exists_builtIn {sentences : List Sentence}
    (formed : ∀ sentence ∈ sentences, sentence.WellFormed limits)
    (short : ∀ sentence ∈ sentences, sentence.encode.length < 2 ^ 32) :
    ∃ enough, ∀ fuel, enough ≤ fuel → ∀ sentence ∈ sentences, sentence.builtIn fuel = true := by
  induction sentences with
  | nil => exact ⟨0, fun _ _ => nofun⟩
  | cons sentence rest ih =>
    rw [List.forall_mem_cons] at formed short
    obtain ⟨message, -, ⟨first, done⟩, -⟩ := builds_node formed.1 short.1
    obtain ⟨enough, later⟩ := ih formed.2 short.2
    refine ⟨max first enough, fun fuel within => List.forall_mem_cons.mpr ⟨?_, later fuel (by omega)⟩⟩
    have more : build fuel sentence.root.2 sentence.root.1 = some (.ok message) := iterate_of_le done (by omega)
    rw [builtIn, more]

omit [FloatChars] in
theorem encodeAll_take_isPrefix (sentences : List Sentence) (n : Nat) :
    encodeAll (sentences.take n) <+: encodeAll sentences := by
  have whole := encodeAll_append (sentences.take n) (sentences.drop n)
  rw [List.take_append_drop] at whole
  rw [whole]
  exact List.prefix_append ..

omit [FloatChars] in
theorem length_encode_le {sentence : Sentence} {sentences : List Sentence} (member : sentence ∈ sentences) :
    sentence.encode.length ≤ (encodeAll sentences).length := by
  induction sentences with
  | nil => cases member
  | cons other rest ih =>
    rw [encodeAll, List.length_append]
    rcases List.mem_cons.mp member with rfl | later
    · exact Nat.le_add_right ..
    · exact Nat.le_add_left_of_le (ih later)

omit [FloatChars] in
theorem encode_ne_nil (sentence : Sentence) : sentence.encode ≠ [] := by
  cases sentence with
  | leaf body => cases body <;> simp [encode, Leaf.encode, header]
  | aggregate kind numeral elements => simp [encode, header]
  | attributed numeral entries value => simp [encode, header]

/-- A sentence ends where its octets say. -/
theorem encode_append_inj {sentence other : Sentence} {rest behind : Bytes} (formed : sentence.WellFormed limits)
    (formed' : other.WellFormed limits) (same : sentence.encode ++ rest = other.encode ++ behind)
    (short : (sentence.encode ++ rest).length ≤ Buffer.sizeMax) : rest = behind := by
  have parsed := Parser.parseOne_sentence (Parser.idle_start limits (sentence.encode ++ rest)) formed rfl short
  rw [Parser.parseOne_sentence (Parser.idle_start limits (sentence.encode ++ rest)) formed' same short] at parsed
  exact (congrArg (fun answer => answer.2.input) parsed).symm

/-- Sentences in front of others have the octets of as many of these. -/
theorem encodeAll_isPrefix {values others : List Sentence} (formed : ∀ value ∈ values, value.WellFormed limits)
    (formed' : ∀ other ∈ others, other.WellFormed limits) (short : (encodeAll values).length ≤ Buffer.sizeMax)
    (front : encodeAll others <+: encodeAll values) :
    others.length ≤ values.length ∧ encodeAll others = encodeAll (values.take others.length) := by
  induction others generalizing values with
  | nil => exact ⟨Nat.zero_le _, rfl⟩
  | cons other others ih =>
    rw [List.forall_mem_cons] at formed'
    obtain ⟨behind, whole⟩ := front
    rw [encodeAll, List.append_assoc] at whole
    cases values with
    | nil =>
      have empty := (List.append_eq_nil_iff.mp whole).1
      exact absurd empty (encode_ne_nil other)
    | cons value values =>
      rw [List.forall_mem_cons] at formed
      rw [encodeAll] at whole short
      have rest := encode_append_inj formed'.1 formed.1 whole (by rw [whole]; exact short)
      rw [rest] at whole
      obtain ⟨count, same⟩ := ih formed.2 formed'.2 (by rw [List.length_append] at short; omega) ⟨behind, rest⟩
      refine ⟨Nat.succ_le_succ count, ?_⟩
      rw [List.length_cons, List.take_succ_cons, encodeAll, encodeAll, same, List.append_cancel_right whole]

end Sentence

namespace Parser

variable [FloatChars] {p : Parser Bytes Text}

/-- A parser between two messages that holds nothing of one. -/
structure Vacant (p : Parser Bytes Text) : Prop where
  idle : p.Idle
  assembly : p.toAssembly = {}

omit [FloatChars] in
theorem Vacant.input (vacant : p.Vacant) (input : Bytes) : { p with input := input }.Vacant :=
  ⟨⟨vacant.idle.stack, vacant.idle.healthy, vacant.idle.consumed⟩, vacant.assembly⟩

/-- A sentence in front is returned, and the parser is as before, behind it. -/
theorem drain_sentence {sentence : Sentence} {rest : Bytes} (vacant : p.Vacant)
    (formed : sentence.WellFormed p.limits) (input : p.input = sentence.encode ++ rest)
    (short : p.input.length ≤ Buffer.sizeMax) :
    p.drain.trees = sentence.root :: { p with input := rest }.drain.trees ∧
      p.drain.answer = { p with input := rest }.drain.answer := by
  have parsed := parseOne_sentence vacant.idle formed input short
  have behind : reclaim { p with
      toAssembly := (sentence.absorb p.toAssembly).2, input := rest, stack := [], treeReady := true } =
      { p with input := rest } := by
    obtain ⟨⟨stack, healthy, consumed⟩, assembly⟩ := vacant
    cases p
    cases stack
    cases healthy
    cases consumed
    cases assembly
    rfl
  rw [drain_root parsed, behind]
  refine ⟨?_, rfl⟩
  rw [vacant.assembly]
  rfl

theorem drain_encoded {sentences : List Sentence} {rest : Bytes} (vacant : p.Vacant)
    (formed : ∀ sentence ∈ sentences, sentence.WellFormed p.limits)
    (input : p.input = Sentence.encodeAll sentences ++ rest) (short : p.input.length ≤ Buffer.sizeMax) :
    p.drain.trees = sentences.map Sentence.root ++ { p with input := rest }.drain.trees ∧
      p.drain.answer = { p with input := rest }.drain.answer := by
  induction sentences generalizing p with
  | nil =>
    obtain rfl : p.input = rest := input
    exact ⟨rfl, rfl⟩
  | cons sentence others ih =>
    rw [List.forall_mem_cons] at formed
    rw [Sentence.encodeAll, List.append_assoc] at input
    obtain ⟨trees, answer⟩ := drain_sentence vacant formed.1 input short
    have shorter : (Sentence.encodeAll others ++ rest).length ≤ Buffer.sizeMax := by
      rw [input, List.length_append] at short
      exact Nat.le_trans (Nat.le_add_left ..) short
    obtain ⟨later, ended⟩ := ih (p := { p with input := Sentence.encodeAll others ++ rest }) (vacant.input _)
      formed.2 rfl shorter
    rw [trees, later, answer, ended]
    exact ⟨rfl, rfl⟩

/-- Whatever the input is, what is returned for it are sentences in front of it. -/
theorem drain_spelled (vacant : p.Vacant) (short : p.input.length ≤ Buffer.sizeMax) :
    ∃ sentences : List Sentence, (∀ sentence ∈ sentences, sentence.WellFormed p.limits) ∧
      p.drain.trees = sentences.map Sentence.root ∧ Sentence.encodeAll sentences <+: p.input := by
  induction size : p.input.length using Nat.strongRecOn generalizing p with
  | _ bound ih =>
    rcases parsed : p.parseOne with ⟨stop | _ | root, q⟩
    case ok.some =>
      obtain ⟨front, ⟨sentence, formed, rfl⟩, octets⟩ := parseOne_sound vacant.idle parsed
      have fewer : q.data.length < p.input.length := parseOne_root parsed
      obtain ⟨trees, -⟩ := drain_sentence vacant formed octets.symm short
      obtain ⟨others, each, later, ⟨rest, behind⟩⟩ := ih q.data.length (size ▸ fewer)
        (p := { p with input := q.data }) (vacant.input _) (Nat.le_of_lt (Nat.lt_of_lt_of_le fewer short)) rfl
      refine ⟨sentence :: others, List.forall_mem_cons.mpr ⟨formed, each⟩, ?_, rest, ?_⟩
      · rw [trees, later]
        rfl
      · rw [Sentence.encodeAll, List.append_assoc, behind]
        exact octets
    all_goals
      rw [drain_end parsed (by simp)]
      exact ⟨[], List.forall_mem_nil _, rfl, List.nil_prefix⟩

/-! Reading in pieces. -/

/-- So many octets never reach the line limit, or have lengths that fit. -/
def Bounded (p : Parser Bytes Text) (size : Nat) : Prop := size ≤ p.limits.maxRespLineBytes ∨ size ≤ Buffer.sizeMax

/-- `p` is the parser `first` after it was given the octets and returned the trees. -/
structure Takes (first : Parser Bytes Text) (octets : Bytes) (trees : List (Nat × RawTree Text))
    (p : Parser Bytes Text) : Prop where
  limits : p.limits = first.limits
  fewer : p.input.length ≤ first.input.length + octets.length
  later : ∀ more, first.Bounded (first.input.length + octets.length + more.length) →
    trees ++ (p.append more).drain.trees = (first.append (octets ++ more)).drain.trees ∧
      (p.append more).drain.answer = (first.append (octets ++ more)).drain.answer

theorem takes_start (p : Parser Bytes Text) : Takes p [] [] p :=
  ⟨rfl, Nat.le_refl _, fun _ _ => ⟨rfl, rfl⟩⟩

variable {first : Parser Bytes Text} {octets chunk : Bytes} {trees : List (Nat × RawTree Text)}

omit [FloatChars] in
theorem append_append (p : Parser Bytes Text) (one two : Bytes) :
    (p.append one).append two = p.append (one ++ two) := by
  simp only [append, List.append_assoc]

theorem Takes.roomy (takes : Takes first octets trees p) {more : Bytes}
    (bounded : first.Bounded (first.input.length + (octets ++ chunk).length + more.length)) :
    (p.append chunk).Roomy more := by
  have fewer := takes.fewer
  rw [List.length_append] at bounded
  rcases bounded with bounded | bounded
  · refine .inl ?_
    show ((p.input ++ chunk) ++ more).length ≤ p.limits.maxRespLineBytes
    rw [takes.limits, List.length_append, List.length_append]
    omega
  · refine .inr ?_
    show (p.input ++ chunk).length ≤ _
    rw [List.length_append]
    omega

/-- One more piece, after which more octets are asked for. -/
theorem Takes.next {value : Option Nat} (takes : Takes first octets trees p)
    (ended : (p.append chunk).drain.answer = .ok value) :
    Takes first (octets ++ chunk) (trees ++ (p.append chunk).drain.trees) (p.append chunk).drain.parser := by
  have kept := drain_keeps (p.append chunk)
  refine ⟨kept.1.trans takes.limits, ?_, ?_⟩
  · have fewer := takes.fewer
    have within : (p.append chunk).drain.parser.input.length ≤ (p.input ++ chunk).length := kept.2
    rw [List.length_append] at within ⊢
    omega
  · intro more bounded
    obtain ⟨onward, answer⟩ := drain_append_resume (takes.roomy bounded) ended
    rw [append_append] at onward answer
    have whole := takes.later (chunk ++ more) (by
      rw [List.length_append, ← Nat.add_assoc] at bounded ⊢
      exact bounded)
    rw [List.append_assoc, List.append_assoc, ← onward, ← answer]
    exact whole

/-- What was returned up to a piece is what is returned first, with anything behind. -/
theorem Takes.isPrefix (takes : Takes first octets trees p) {more : Bytes}
    (bounded : first.Bounded (first.input.length + (octets ++ chunk).length + more.length)) :
    trees ++ (p.append chunk).drain.trees <+: (first.append (octets ++ (chunk ++ more))).drain.trees := by
  have onward := drain_append_isPrefix (takes.roomy bounded)
  have whole := (takes.later (chunk ++ more) (by
    rw [List.length_append, ← Nat.add_assoc] at bounded ⊢
    exact bounded)).1
  rw [append_append] at onward
  rw [← whole]
  exact (List.prefix_append_right_inj trees).mpr onward

/-- An error that does not depend on what is behind ends the whole input too. -/
theorem Takes.error {stop : Stop} (takes : Takes first octets trees p) {more : Bytes}
    (bounded : first.Bounded (first.input.length + (octets ++ chunk).length + more.length))
    (decided : first.input.length + (octets ++ chunk).length + more.length ≤ first.limits.maxRespLineBytes ∨
      ∀ errc, stop ≠ .protocol errc)
    (ended : (p.append chunk).drain.answer = .error stop) :
    trees ++ (p.append chunk).drain.trees = (first.append (octets ++ (chunk ++ more))).drain.trees ∧
      (first.append (octets ++ (chunk ++ more))).drain.answer = .error stop := by
  have fewer := takes.fewer
  have within : ((p.append chunk).input ++ more).length ≤ (p.append chunk).limits.maxRespLineBytes ∨
      ∀ errc, stop ≠ .protocol errc := by
    refine decided.imp_left fun decided => ?_
    show ((p.input ++ chunk) ++ more).length ≤ p.limits.maxRespLineBytes
    rw [List.length_append] at decided
    rw [takes.limits, List.length_append, List.length_append]
    omega
  obtain ⟨onward, answer⟩ := drain_append_error (takes.roomy bounded) within ended
  obtain ⟨whole, same⟩ := takes.later (chunk ++ more) (by
    rw [List.length_append, ← Nat.add_assoc] at bounded ⊢
    exact bounded)
  rw [append_append] at onward answer
  rw [← whole, ← same, onward]
  exact ⟨rfl, answer⟩

/-! Values in a row. -/

/-- These values are sent to a parser that holds nothing, and there are enough passes for the message of each. -/
structure Stream (fuel : Nat) (first : Parser Bytes Text) (values : List Sentence) : Prop where
  vacant : first.Vacant
  empty : first.input = []
  formed : ∀ value ∈ values, value.WellFormed first.limits
  small : ∀ value ∈ values, value.encode.length < 2 ^ 32
  short : (Sentence.encodeAll values).length ≤ Buffer.sizeMax
  built : ∀ value ∈ values, value.builtIn fuel = true

namespace Stream

variable {fuel : Nat} {values : List Sentence} (stream : Stream fuel first values)

include stream

theorem input (octets : Bytes) : (first.append octets).input = octets := by
  rw [append, stream.empty]
  rfl

/-- The whole stream is parsed to its values. -/
theorem drain : (first.append (Sentence.encodeAll values)).drain.trees = values.map Sentence.root ∧
    (first.append (Sentence.encodeAll values)).drain.answer = .ok none := by
  have input : (first.append (Sentence.encodeAll values)).input = Sentence.encodeAll values ++ [] := by
    rw [List.append_nil]
    exact stream.input _
  have small : (first.append (Sentence.encodeAll values)).input.length ≤ Buffer.sizeMax := by
    rw [stream.input]
    exact stream.short
  obtain ⟨trees, answer⟩ := drain_encoded (p := first.append (Sentence.encodeAll values)) (stream.vacant.input _)
    stream.formed input small
  have rest := parseOne_empty (p := { first.append (Sentence.encodeAll values) with input := [] })
    (stream.vacant.input []).idle rfl
  rw [trees, answer, drain_end rest (by simp)]
  exact ⟨List.append_nil _, rfl⟩

theorem bounded {rest : Bytes} (arrives : octets ++ (chunk ++ rest) = Sentence.encodeAll values) :
    first.Bounded (first.input.length + (octets ++ chunk).length + rest.length) := by
  have short := stream.short
  rw [← arrives, ← List.append_assoc, List.length_append] at short
  refine .inr ?_
  rw [stream.empty, List.length_nil, Nat.zero_add]
  exact short

/-- As many values are returned for a part of the stream as there are in it to their ends. -/
theorem arrived_iff {m : Nat} (arrives : octets <+: Sentence.encodeAll values) (within : m ≤ values.length) :
    m ≤ (first.append octets).drain.trees.length ↔ Sentence.encodeAll (values.take m) <+: octets := by
  have input := stream.input octets
  have short : octets.length ≤ Buffer.sizeMax := arrives.length_le.trans stream.short
  constructor
  · intro enough
    obtain ⟨others, formed, trees, front⟩ := drain_spelled (p := first.append octets) (stream.vacant.input _)
      (by rw [input]; exact short)
    rw [input] at front
    obtain ⟨-, same⟩ := Sentence.encodeAll_isPrefix stream.formed formed stream.short (front.trans arrives)
    rw [trees, List.length_map] at enough
    have fewer := Sentence.encodeAll_take_isPrefix (values.take others.length) m
    rw [List.take_take, Nat.min_eq_left enough, ← same] at fewer
    exact fewer.trans front
  · rintro ⟨rest, whole⟩
    have trees := (drain_encoded (p := first.append octets) (stream.vacant.input _)
      (fun value member => stream.formed value (List.mem_of_mem_take member)) (input.trans whole.symm)
      (by rw [input]; exact short)).1
    rw [trees, List.length_append, List.length_map, List.length_take, Nat.min_eq_left within]
    exact Nat.le_add_right _ _

end Stream

end Parser

end Rediscoro.Resp3

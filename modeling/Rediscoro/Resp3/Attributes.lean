import Rediscoro.Resp3.RoundTrip

/-! Attribute blocks in front of a scalar.

The entries of a block become pending pair by pair, and whatever node is created
next takes what is pending. Behind the last pair that is the value the block
stands in front of; behind every other pair it is the key of the next one. So a
value gets the last pair of its block, whose key carries the pair before it, and
so on down to the first.
-/

set_option autoImplicit false

namespace Rediscoro.Resp3

open Rediscoro.Semantics

/-- A node created while `pending` waits for it. -/
def RawNode.dressed (node : RawNode Text) (pending : PendingAttributes) : RawNode Text :=
  if pending.count = 0 then node else { node with firstAttr := pending.first, attrCount := pending.count }

/-- Nothing is pending, or a pair is. -/
inductive PendingAttributes.Regular : PendingAttributes → Prop where
  | none : Regular {}
  | pair (first : Nat) : Regular ⟨first, 2⟩

/-! The nodes and the pending pair that a block of leaves leaves behind. -/

namespace Block

def entries (pairs : List (Leaf × Leaf)) : List Sentence := pairs.flatMap fun pair => [.leaf pair.1, .leaf pair.2]

/-- The index of a pair's key is also the position of its link. -/
def nodes : PendingAttributes → Nat → List (Leaf × Leaf) → List (RawNode Text)
  | _, _, [] => []
  | pending, base, pair :: rest =>
      pair.1.rawNode.dressed pending :: pair.2.rawNode :: nodes ⟨base, 2⟩ (base + 2) rest

def pending : PendingAttributes → Nat → List (Leaf × Leaf) → PendingAttributes
  | before, _, [] => before
  | _, base, _ :: rest => pending ⟨base, 2⟩ (base + 2) rest

theorem pending_regular {before : PendingAttributes} (regular : before.Regular) (base : Nat)
    (pairs : List (Leaf × Leaf)) : (pending before base pairs).Regular := by
  induction pairs generalizing before base with
  | nil => exact regular
  | cons pair rest ih => exact ih (.pair base) (base + 2)

theorem length_nodes (before : PendingAttributes) (base : Nat) (pairs : List (Leaf × Leaf)) :
    (nodes before base pairs).length = 2 * pairs.length := by
  induction pairs generalizing before base with
  | nil => rfl
  | cons pair rest ih =>
    rw [nodes, List.length_cons, List.length_cons, ih, List.length_cons]
    omega

theorem pushNode_dressed {a : Assembly Text} (regular : a.pendingAttrs.Regular) (node : RawNode Text)
    (small : a.tree.nodes.length < 2 ^ 32) :
    a.pushNode node = { tree := { a.tree with nodes := a.tree.nodes ++ [node.dressed a.pendingAttrs] } } := by
  obtain ⟨⟨nodes, links⟩, pending⟩ := a
  cases regular with
  | none => rfl
  | pair first =>
    have here : (nodes ++ [node]).modify (u32 nodes.length) (fun node =>
        { node with firstAttr := first, attrCount := 2 }) =
        nodes ++ [{ node with firstAttr := first, attrCount := 2 }] := by
      rw [u32_of_lt small]
      exact Sentence.modify_middle _
    simp only [Assembly.pushNode, Assembly.attachPending, RawTree.push, RawTree.update, RawTree.nextIndex,
      RawNode.dressed]
    rw [if_neg (by decide), if_neg (by decide), here]

/-- What the parser holds behind the pairs of a block: each pair is linked where its nodes are. -/
theorem absorbAttributes_entries {pairs : List (Leaf × Leaf)} {base : Nat} {a : Assembly Text}
    (regular : a.pendingAttrs.Regular) (nodes : a.tree.nodes.length = base) (links : a.tree.links = List.range base)
    (small : base + 2 * pairs.length < 2 ^ 32) :
    Sentence.absorbAttributes (entries pairs) a =
      { tree := ⟨a.tree.nodes ++ Block.nodes a.pendingAttrs base pairs, List.range (base + 2 * pairs.length)⟩
        pendingAttrs := pending a.pendingAttrs base pairs } := by
  induction pairs generalizing base a with
  | nil =>
    simp [entries, Sentence.absorbAttributes, Block.nodes, pending, ← links]
  | cons pair rest ih =>
    rw [List.length_cons] at small
    have key := pushNode_dressed regular pair.1.rawNode (by omega)
    have value := pushNode_dressed (a := { tree := { a.tree with
      nodes := a.tree.nodes ++ [pair.1.rawNode.dressed a.pendingAttrs] } }) .none pair.2.rawNode
      (by simp only [List.length_append, List.length_singleton]; omega)
    have index : u32 a.tree.nodes.length = base ∧ u32 (a.tree.nodes.length + 1) = base + 1 := by
      rw [nodes]
      exact ⟨u32_of_lt (by omega), u32_of_lt (by omega)⟩
    have first : u32 base = base := u32_of_lt (by omega)
    -- The two links of the pair are the indices of its nodes, so the links stay in step with the nodes.
    have linked : List.range base ++ [base] ++ [base + 1] = List.range (base + 2) := by
      rw [← List.range_succ, ← List.range_succ]
    have step : Sentence.absorbAttributes (entries (pair :: rest)) a =
        Sentence.absorbAttributes (entries rest)
          { tree := ⟨a.tree.nodes ++ [pair.1.rawNode.dressed a.pendingAttrs, pair.2.rawNode], List.range (base + 2)⟩
            pendingAttrs := ⟨base, 2⟩ } := by
      simp only [entries, List.flatMap_cons, List.cons_append, List.nil_append, Sentence.absorbAttributes,
        Sentence.absorb, key, value]
      simp [Assembly.pushPending, RawTree.link, RawTree.nextIndex, RawTree.nextLink, links, index, first,
        RawNode.dressed, List.append_assoc, ← linked]
      rfl
    rw [step, ih (.pair base) (by simp [nodes]) rfl (by omega)]
    simp only [Block.nodes, pending, List.append_assoc, List.cons_append, List.nil_append, List.length_cons]
    rw [Nat.mul_add, Nat.add_assoc base 2, Nat.add_comm 2]

/-! What the builder makes of it. -/

/-- The attributes that the pair before a key becomes, for the leaves of a block. -/
def nest (attrs : Option (List (Message × Message))) (pair : Leaf × Leaf) : Option (List (Message × Message)) :=
  some [(.scalar pair.1.meaning attrs, .scalar pair.2.meaning none)]

/-- The pending links lead to the messages of these attributes. -/
inductive Carries (tree : RawTree Text) : PendingAttributes → Option (List (Message × Message)) → Prop where
  | none : Carries tree {} none
  | pair {first : Nat} {key value : Message} (window : Window tree first 0 [key, value]) :
      Carries tree ⟨first, 2⟩ (some [(key, value)])

variable {tree : RawTree Text} [FloatChars] {limits : Limits}

theorem yields_dressed {leaf : Leaf} {node : Nat} {before : PendingAttributes}
    {attrs : Option (List (Message × Message))} (formed : leaf.WellFormed limits) (carries : Carries tree before attrs)
    (found : tree.nodes[node]? = some (leaf.rawNode.dressed before)) :
    Yields tree node (.scalar leaf.meaning attrs) := by
  cases carries with
  | none => exact yields_leaf formed found
  | @pair first key value window =>
    have childless : (leaf.rawNode.dressed ⟨first, 2⟩).childCount = 0 := by cases leaf <;> rfl
    have paired : (leaf.rawNode.dressed ⟨first, 2⟩).attrCount = 2 := rfl
    have started : Draft.start (leaf.rawNode.dressed ⟨first, 2⟩) = .ok { result := .scalar leaf.meaning none } := by
      have initial : initialMessage (leaf.rawNode.dressed ⟨first, 2⟩) = initialMessage leaf.rawNode := rfl
      simp [Draft.start, initial, initialMessage_rawNode formed, childless, paired]
    exact yields_node [] [key, value] found started childless.symm trivial rfl rfl window rfl rfl

/-- Behind a block the last pair is pending, with everything before it inside its key. -/
theorem carries_block {pairs : List (Leaf × Leaf)} {base bound : Nat} {before : PendingAttributes}
    {attrs : Option (List (Message × Message))}
    (formed : ∀ pair ∈ pairs, pair.1.WellFormed limits ∧ pair.2.WellFormed limits)
    (links : tree.links = List.range bound) (within : base + 2 * pairs.length ≤ bound) (small : bound < 2 ^ 32)
    (placed : ∀ i node, (nodes before base pairs)[i]? = some node → tree.nodes[base + i]? = some node)
    (carries : Carries tree before attrs) : Carries tree (pending before base pairs) (pairs.foldl nest attrs) := by
  induction pairs generalizing base before attrs with
  | nil => exact carries
  | cons pair rest ih =>
    rw [List.length_cons] at within
    obtain ⟨⟨key, value⟩, later⟩ := List.forall_mem_cons.mp formed
    have link (k : Nat) (less : base + k < bound) : tree.links[u32 (base + k)]? = some (base + k) := by
      rw [links, u32_of_lt (by omega), List.getElem?_range less]
    have keyYields := yields_dressed key carries (placed 0 _ rfl)
    have valueYields := yields_leaf value (placed 1 _ rfl)
    refine ih later (by omega) ?_
      (.pair ⟨⟨_, link 0 (by omega), keyYields⟩, ⟨_, link 1 (by omega), valueYields⟩, trivial⟩)
    intro i node found
    rw [Nat.add_assoc, Nat.add_comm 2 i]
    exact placed (i + 2) node found

end Block

/-! Blocks of scalars. -/

namespace Message

def plain (value : Scalar) : Message := .scalar value none

/-- The octets of a block of pairs and the value behind it. -/
def encodeAttributed (pairs : List (Scalar × Scalar)) (value : Scalar) : Bytes :=
  header .attribute (decimal pairs.length) ++
    (pairs.flatMap fun pair => (plain pair.1).encode ++ (plain pair.2).encode) ++ (plain value).encode

/-- The value with exactly the pairs as its attributes. -/
def attributed (pairs : List (Scalar × Scalar)) (value : Scalar) : Message :=
  .scalar value (some (pairs.map fun pair => (plain pair.1, plain pair.2)))

/-- The value with the last pair, the key of which has the pair before it, and so on. -/
def nested (pairs : List (Scalar × Scalar)) (value : Scalar) : Message :=
  .scalar value (pairs.foldl (fun attrs pair => some [(.scalar pair.1 attrs, plain pair.2)]) none)

/-- However long the block, the value gets one pair. -/
theorem foldl_single (pair : Scalar × Scalar) (rest : List (Scalar × Scalar))
    (attrs : Option (List (Message × Message))) :
    ∃ entry : Message × Message, (pair :: rest).foldl
      (fun attrs pair => some [(Message.scalar pair.1 attrs, plain pair.2)]) attrs = some [entry] := by
  induction rest generalizing pair attrs with
  | nil => exact ⟨_, rfl⟩
  | cons next rest ih => exact ih next _

theorem nested_eq_iff {pairs : List (Scalar × Scalar)} (nonempty : pairs ≠ []) (value : Scalar) :
    nested pairs value = attributed pairs value ↔ pairs.length = 1 := by
  constructor
  · intro same
    obtain ⟨pair, rest, rfl⟩ := List.exists_cons_of_ne_nil nonempty
    obtain ⟨entry, single⟩ := foldl_single pair rest none
    have attrs := (Message.scalar.inj same).2
    rw [single] at attrs
    have length := congrArg List.length (Option.some.inj attrs)
    rw [List.length_map] at length
    exact length.symm
  · intro one
    obtain ⟨pair, rfl⟩ := List.length_eq_one_iff.mp one
    rfl

end Message

namespace Block

variable {pairs : List (Scalar × Scalar)} {value : Scalar}

def leaves (pairs : List (Scalar × Scalar)) : List (Leaf × Leaf) := pairs.map fun pair => (pair.1.leaf, pair.2.leaf)

def sentence (pairs : List (Scalar × Scalar)) (value : Scalar) : Sentence :=
  .attributed (decimal pairs.length) (entries (leaves pairs)) (.leaf value.leaf)

theorem encode_sentence (pairs : List (Scalar × Scalar)) (value : Scalar) :
    (sentence pairs value).encode = Message.encodeAttributed pairs value := by
  have each : Sentence.encodeAll (entries (leaves pairs)) =
      pairs.flatMap fun pair => (Message.plain pair.1).encode ++ (Message.plain pair.2).encode := by
    induction pairs with
    | nil => rfl
    | cons pair rest ih =>
      rw [List.flatMap_cons, ← ih]
      simp [leaves, entries, Sentence.encodeAll, Sentence.encode, Message.plain, Message.encode, Message.sentence]
  rw [sentence, Sentence.encode, each]
  rfl

variable [FloatChars] {limits : Limits}

omit [FloatChars] in
theorem length_entries (pairs : List (Leaf × Leaf)) : (entries pairs).length = 2 * pairs.length := by
  induction pairs with
  | nil => rfl
  | cons pair rest ih =>
    rw [entries, List.flatMap_cons, List.length_append, List.length_cons, ← entries, ih]
    simp only [List.length_cons, List.length_nil]
    omega

theorem leaves_wellFormed (encodable : ∀ pair ∈ pairs, pair.1.Encodable limits ∧ pair.2.Encodable limits) :
    ∀ pair ∈ leaves pairs, pair.1.WellFormed limits ∧ pair.2.WellFormed limits := by
  intro pair member
  obtain ⟨scalars, inside, rfl⟩ := List.mem_map.mp member
  obtain ⟨key, value⟩ := encodable scalars inside
  exact ⟨Scalar.leaf_wellFormed key, Scalar.leaf_wellFormed value⟩

theorem sentence_wellFormed (encodable : ∀ pair ∈ pairs, pair.1.Encodable limits ∧ pair.2.Encodable limits)
    (scalar : value.Encodable limits) (length : Length limits .attribute pairs.length) :
    (sentence pairs value).WellFormed limits := by
  refine .attributed length.numeral length.admissible ?_ ?_ (.leaf (Scalar.leaf_wellFormed scalar))
  · rw [length_entries]
    simp [leaves, Kind.arity]
  · intro entry member
    obtain ⟨pair, inside, here⟩ := List.mem_flatMap.mp member
    obtain ⟨key, value⟩ := leaves_wellFormed encodable pair inside
    simp only [List.mem_cons, List.not_mem_nil, or_false] at here
    rcases here with rfl | rfl
    · exact .leaf key
    · exact .leaf value

theorem foldl_nest (encodable : ∀ pair ∈ pairs, pair.1.Encodable limits ∧ pair.2.Encodable limits)
    (attrs : Option (List (Message × Message))) :
    (leaves pairs).foldl nest attrs =
      pairs.foldl (fun attrs pair => some [(.scalar pair.1 attrs, Message.plain pair.2)]) attrs := by
  induction pairs generalizing attrs with
  | nil => rfl
  | cons pair rest ih =>
    obtain ⟨⟨key, value⟩, later⟩ := List.forall_mem_cons.mp encodable
    rw [List.foldl_cons, ← ih later]
    simp only [leaves, List.map_cons, List.foldl_cons, nest, Scalar.meaning_leaf key, Scalar.meaning_leaf value]
    rfl

end Block

namespace Parser

variable [FloatChars]

/-- What is built for a value behind a block of pairs. -/
theorem parseOne_block {limits : Limits} {pairs : List (Scalar × Scalar)} {value : Scalar}
    (encodable : ∀ pair ∈ pairs, pair.1.Encodable limits ∧ pair.2.Encodable limits)
    (scalar : value.Encodable limits) (length : Length limits .attribute pairs.length) (room : Nat)
    (short : (Message.encodeAttributed pairs value).length ≤ Buffer.sizeMax)
    (fits : (Message.encodeAttributed pairs value).length ≤ (Buffer.fresh.prepare room).available) (memory : Memory) :
    let p := (fresh limits).feed room (Message.encodeAttributed pairs value)
    ∃ root fuel, p.parseOne.1 = .ok (some root) ∧
      build fuel (p.parseOne.2.contents memory) root = some (.ok (Message.nested pairs value)) := by
  intro p
  have few : 2 * pairs.length < 2 ^ 32 := by
    have representable := length.admissible.representable
    simp only [isRepresentableLength, if_neg (Int.not_lt.mpr (Int.natCast_nonneg _)), maxU32] at representable
    have bound := of_decide_eq_true representable
    omega
  have size : (Block.leaves pairs).length = pairs.length := List.length_map _
  have idle : (p.copy memory).Idle := copy_idle memory (blank_feed limits room _).toIdle
  have data : (p.copy memory).input = (Block.sentence pairs value).encode ++ [] := by
    rw [List.append_nil, Block.encode_sentence]
    exact Buffer.fresh.data_feed fits
  have parsed := parseOne_sentence idle (Block.sentence_wellFormed encodable scalar length) data
    (by rw [data, List.append_nil, Block.encode_sentence]; exact short)
  -- The block's nodes fill the tree from its start; the value's node comes last.
  have blank : (p.copy memory).toAssembly = {} := rfl
  have block : Sentence.absorbAttributes (Block.entries (Block.leaves pairs)) {} =
      { tree := ⟨Block.nodes {} 0 (Block.leaves pairs), List.range (2 * pairs.length)⟩
        pendingAttrs := Block.pending {} 0 (Block.leaves pairs) } := by
    have small : 0 + 2 * (Block.leaves pairs).length < 2 ^ 32 := by omega
    have empty : ({} : Assembly Text).tree.nodes.length = 0 := rfl
    rw [Block.absorbAttributes_entries .none empty rfl small, size, Nat.zero_add]
    rfl
  have sized : (Block.nodes {} 0 (Block.leaves pairs)).length = 2 * pairs.length := by
    rw [Block.length_nodes, size]
  have absorbed : (Block.sentence pairs value).absorb {} = (2 * pairs.length,
      { tree := ⟨Block.nodes {} 0 (Block.leaves pairs) ++
          [value.leaf.rawNode.dressed (Block.pending {} 0 (Block.leaves pairs))], List.range (2 * pairs.length)⟩
          }) := by
    rw [Block.sentence, Sentence.absorb, block, Sentence.absorb,
      Block.pushNode_dressed (Block.pending_regular .none _ _) _ (by rw [sized]; exact few)]
    simp only [RawTree.nextIndex, sized, u32_of_lt few]
  rw [blank, absorbed, parseOne_copy] at parsed
  obtain ⟨answer, after⟩ := Prod.ext_iff.mp parsed
  have contents : p.parseOne.2.contents memory = ⟨Block.nodes {} 0 (Block.leaves pairs) ++
      [value.leaf.rawNode.dressed (Block.pending {} 0 (Block.leaves pairs))], List.range (2 * pairs.length)⟩ :=
    congrArg (·.tree) after
  have carries : Block.Carries (p.parseOne.2.contents memory) (Block.pending {} 0 (Block.leaves pairs))
      ((Block.leaves pairs).foldl Block.nest none) := by
    refine Block.carries_block (Block.leaves_wellFormed encodable) (congrArg (·.links) contents) (by omega) few ?_
      .none
    intro i node found
    rw [contents, Nat.zero_add]
    exact List.getElem?_append_left (List.getElem?_eq_some_iff.mp found).1 ▸ found
  have root : (p.parseOne.2.contents memory).nodes[2 * pairs.length]? =
      some (value.leaf.rawNode.dressed (Block.pending {} 0 (Block.leaves pairs))) := by
    rw [contents, ← sized]
    exact List.getElem?_concat_length
  have yields := Block.yields_dressed (Scalar.leaf_wellFormed scalar) carries root
  rw [Scalar.meaning_leaf scalar, Block.foldl_nest encodable] at yields
  obtain ⟨fuel, built⟩ := yields.build
  exact ⟨2 * pairs.length, fuel, answer, built⟩

/-- A block attaches whole to the value behind it exactly when it is one pair. -/
theorem attributes_attach_iff {limits : Limits} {pairs : List (Scalar × Scalar)} {value : Scalar}
    (nonempty : pairs ≠ []) (encodable : ∀ pair ∈ pairs, pair.1.Encodable limits ∧ pair.2.Encodable limits)
    (scalar : value.Encodable limits) (length : Length limits .attribute pairs.length) (room : Nat)
    (short : (Message.encodeAttributed pairs value).length ≤ Buffer.sizeMax)
    (fits : (Message.encodeAttributed pairs value).length ≤ (Buffer.fresh.prepare room).available) (memory : Memory) :
    let p := (fresh limits).feed room (Message.encodeAttributed pairs value)
    (∃ root fuel, p.parseOne.1 = .ok (some root) ∧
      build fuel (p.parseOne.2.contents memory) root = some (.ok (Message.attributed pairs value))) ↔
        pairs.length = 1 := by
  intro p
  obtain ⟨root, fuel, answer, built⟩ := parseOne_block encodable scalar length room short fits memory
  rw [← Message.nested_eq_iff nonempty value]
  constructor
  · rintro ⟨other, enough, answer', built'⟩
    obtain rfl : other = root := Option.some.inj (Except.ok.inj (answer'.symm.trans answer))
    exact Except.ok.inj (iterate_deterministic built built')
  · intro same
    rw [← same]
    exact ⟨root, fuel, answer, built⟩

end Parser

/-! Two pairs in front of a string. -/

section Pairs

def label (octet : UInt8) : Scalar := .simpleString [octet]

theorem label_encodable [FloatChars] {octet : UInt8} (letter : octet = 97 ∨ octet = 98 ∨ octet = 118) :
    (label octet).Encodable {} := by
  rcases letter with rfl | rfl | rfl <;> exact .simpleString ⟨by decide, by decide⟩

/-- `|2 +a +b +b +a +v`: the string gets the second pair, and the key of that pair the first. -/
theorem twoPairs_nested :
    letI := FloatChars.none
    let pairs := [(label 97, label 98), (label 98, label 97)]
    let p := (Parser.fresh {}).feed 4096 (Message.encodeAttributed pairs (label 118))
    (∃ root fuel, p.parseOne.1 = .ok (some root) ∧ build fuel (p.parseOne.2.contents .zeroed) root = some (.ok
      (.scalar (label 118) (some [(.scalar (label 98) (some [(Message.plain (label 97), Message.plain (label 98))]),
        Message.plain (label 97))])))) ∧
    ¬ ∃ root fuel, p.parseOne.1 = .ok (some root) ∧
      build fuel (p.parseOne.2.contents .zeroed) root = some (.ok (Message.attributed pairs (label 118))) := by
  let := FloatChars.none
  intro pairs p
  have encodable : ∀ pair ∈ pairs, pair.1.Encodable {} ∧ pair.2.Encodable {} := by
    have first : (label 97).Encodable {} := label_encodable (.inl rfl)
    have second : (label 98).Encodable {} := label_encodable (.inr (.inl rfl))
    exact List.forall_mem_cons.mpr ⟨⟨first, second⟩, List.forall_mem_cons.mpr ⟨⟨second, first⟩, by simp⟩⟩
  have scalar : (label 118).Encodable {} := label_encodable (.inr (.inr rfl))
  have length : Length {} .attribute pairs.length := ⟨⟨by decide, by decide⟩, by decide⟩
  have fits : (Message.encodeAttributed pairs (label 118)).length ≤ (Buffer.fresh.prepare 4096).available :=
    Nat.le_trans (by decide) (Buffer.fresh.le_available_prepare 4096)
  obtain ⟨root, fuel, answer, built⟩ := Parser.parseOne_block encodable scalar length 4096 (by decide) fits .zeroed
  refine ⟨⟨root, fuel, answer, built⟩, ?_⟩
  rintro ⟨other, enough, answer', built'⟩
  obtain rfl : other = root := Option.some.inj (Except.ok.inj (answer'.symm.trans answer))
  have same := Except.ok.inj (iterate_deterministic built built')
  exact absurd ((Message.nested_eq_iff (by simp [pairs]) (label 118)).mp same) (by simp [pairs])

/-- `|1 +a +b +v`. -/
theorem onePair_attached :
    letI := FloatChars.none
    let pairs := [(label 97, label 98)]
    let p := (Parser.fresh {}).feed 4096 (Message.encodeAttributed pairs (label 118))
    ∃ root fuel, p.parseOne.1 = .ok (some root) ∧
      build fuel (p.parseOne.2.contents .zeroed) root = some (.ok (Message.attributed pairs (label 118))) := by
  let := FloatChars.none
  intro pairs p
  have encodable : ∀ pair ∈ pairs, pair.1.Encodable {} ∧ pair.2.Encodable {} :=
    List.forall_mem_cons.mpr ⟨⟨label_encodable (.inl rfl), label_encodable (.inr (.inl rfl))⟩, by simp⟩
  have fits : (Message.encodeAttributed pairs (label 118)).length ≤ (Buffer.fresh.prepare 4096).available :=
    Nat.le_trans (by decide) (Buffer.fresh.le_available_prepare 4096)
  exact (Parser.attributes_attach_iff (by simp [pairs]) encodable (label_encodable (.inr (.inr rfl)))
    ⟨⟨by decide, by decide⟩, by decide⟩ 4096 (by decide) fits .zeroed).mpr rfl

end Pairs

end Rediscoro.Resp3

import Rediscoro.Resp3.Encoding
import Rediscoro.Resp3.Framing

/-! Decoding what was encoded.

All containers append to one vector of links, and a container's window of it is
fixed by where it starts. Elements behind the first one that have links of their own
push them into the window of their parent, so `build_message` gives a message back
exactly when, in every container, only the first element (in a map, the first entry)
has elements of its own. What it builds otherwise is not as deep as what was sent.
-/

set_option autoImplicit false

namespace Rediscoro.Resp3

open Rediscoro.Semantics

namespace Message

/-- A message without elements. -/
def flat : Message → Bool
  | .scalar .. => true
  | .sequence _ elements _ => elements.isEmpty
  | .map entries _ => entries.isEmpty

/-- In every container only the first element, or the first entry of a map, has elements of its own. -/
inductive HeadNested : Message → Prop where
  | scalar (value : Scalar) (attrs : Option (List (Message × Message))) : HeadNested (.scalar value attrs)
  | sequence {kind : SequenceKind} {elements : List Message} {attrs : Option (List (Message × Message))}
      (first : ∀ element ∈ elements.head?, HeadNested element)
      (others : ∀ element ∈ elements.tail, element.flat = true) : HeadNested (.sequence kind elements attrs)
  | map {entries : List (Message × Message)} {attrs : Option (List (Message × Message))}
      (firstKey : ∀ entry ∈ entries.head?, HeadNested entry.1)
      (firstValue : ∀ entry ∈ entries.head?, HeadNested entry.2)
      (others : ∀ entry ∈ entries.tail, entry.1.flat = true ∧ entry.2.flat = true) : HeadNested (.map entries attrs)

mutual

/-- How deep the elements of a message are nested. -/
def height : Message → Nat
  | .scalar .. => 0
  | .sequence _ elements _ => heights elements
  | .map entries _ => entryHeights entries

def heights : List Message → Nat
  | [] => 0
  | element :: rest => max (element.height + 1) (heights rest)

def entryHeights : List (Message × Message) → Nat
  | [] => 0
  | (key, value) :: rest => max (max (key.height + 1) (value.height + 1)) (entryHeights rest)

end

theorem flat_iff (message : Message) : message.flat = true ↔ message.height = 0 := by
  cases message with
  | scalar value attrs => simp [flat, height]
  | sequence kind elements attrs => cases elements <;> simp [flat, height, heights]
  | map entries attrs => cases entries <;> simp [flat, height, entryHeights]

theorem headNested_of_flat {message : Message} (flat : message.flat = true) : message.HeadNested := by
  cases message with
  | scalar value attrs => exact .scalar value attrs
  | sequence kind elements attrs =>
    obtain rfl : elements = [] := List.isEmpty_iff.mp flat
    exact .sequence nofun nofun
  | map entries attrs =>
    obtain rfl : entries = [] := List.isEmpty_iff.mp flat
    exact .map nofun nofun nofun

theorem heights_le {elements : List Message} {bound : Nat} (less : ∀ element ∈ elements, element.height < bound) :
    heights elements ≤ bound := by
  induction elements with
  | nil => exact Nat.zero_le _
  | cons element rest ih =>
    have here := less element (List.mem_cons_self ..)
    have later := ih fun other member => less other (List.mem_cons_of_mem _ member)
    rw [heights]
    omega

end Message

/-! Both kinds of containers at once: their elements, listed. -/

/-- The elements before which a container has no link. -/
def Kind.group (kind : Kind) : Nat := if kind = .map then 2 else 1

section Collect

variable {kind : Kind} {elements others : List Message}

theorem entryHeights_entriesOf : ∀ elements : List Message, elements.length % 2 = 0 →
    Message.entryHeights (entriesOf elements) = Message.heights elements
  | [], _ => rfl
  | [_], even => by simp at even
  | key :: value :: rest, even => by
    have later := entryHeights_entriesOf rest (by simp only [List.length_cons] at even; omega)
    simp only [entriesOf, Message.entryHeights, Message.heights, later]
    omega

theorem entriesOf_injective : ∀ {elements others : List Message}, elements.length = others.length →
    elements.length % 2 = 0 → entriesOf elements = entriesOf others → elements = others
  | [], [], _, _, _ => rfl
  | [_], _, _, even, _ => by simp at even
  | key :: value :: rest, [], length, _, _ => by simp at length
  | key :: value :: rest, [_], length, _, _ => by simp at length
  | key :: value :: rest, key' :: value' :: rest', length, even, same => by
    simp only [entriesOf, List.cons.injEq, Prod.mk.injEq] at same
    obtain ⟨⟨rfl, rfl⟩, same⟩ := same
    rw [entriesOf_injective (by simpa using length) (by simp only [List.length_cons] at even; omega) same]

theorem forall_entriesOf (holds : Message → Prop) : ∀ elements : List Message, elements.length % 2 = 0 →
    ((∀ entry ∈ entriesOf elements, holds entry.1 ∧ holds entry.2) ↔ ∀ element ∈ elements, holds element)
  | [], _ => by simp [entriesOf]
  | [_], even => by simp at even
  | key :: value :: rest, even => by
    have later := forall_entriesOf holds rest (by simp only [List.length_cons] at even; omega)
    simp only [entriesOf, List.forall_mem_cons, later, and_assoc]

theorem headNested_sequence {own : SequenceKind} : (Message.sequence own elements none).HeadNested ↔
    (∀ element ∈ elements.take 1, element.HeadNested) ∧ ∀ element ∈ elements.drop 1, element.flat = true := by
  constructor
  · rintro (_ | ⟨first, others⟩)
    cases elements with
    | nil => exact ⟨nofun, nofun⟩
    | cons element rest => exact ⟨fun other member => by simp_all, others⟩
  · rintro ⟨first, others⟩
    refine .sequence ?_ (by rwa [List.drop_one] at others)
    intro element here
    cases elements with
    | nil => cases here
    | cons element rest => exact first _ (by simp_all)

theorem headNested_map (even : elements.length % 2 = 0) : (Message.map (entriesOf elements) none).HeadNested ↔
    (∀ element ∈ elements.take 2, element.HeadNested) ∧ ∀ element ∈ elements.drop 2, element.flat = true := by
  match elements with
  | [] => exact ⟨fun _ => ⟨nofun, nofun⟩, fun _ => .map nofun nofun nofun⟩
  | [_] => simp at even
  | key :: value :: rest =>
    have later := forall_entriesOf (fun message => message.flat = true) rest
      (by simp only [List.length_cons] at even; omega)
    constructor
    · rintro (_ | _ | ⟨firstKey, firstValue, others⟩)
      refine ⟨?_, later.mp others⟩
      have := firstKey (key, value) rfl
      have := firstValue (key, value) rfl
      simp_all
    · rintro ⟨first, others⟩
      refine .map ?_ ?_ (later.mpr others)
      · rintro _ ⟨⟩
        exact first key (by simp)
      · rintro _ ⟨⟩
        exact first value (by simp)

variable (aggregate : kind.isAggregate = true) (even : kind = .map → elements.length % 2 = 0)
include aggregate even

theorem height_collect : (Message.collect kind elements).height = Message.heights elements := by
  cases kind with
  | array | set | push => rfl
  | map => exact entryHeights_entriesOf elements (even rfl)
  | _ => cases aggregate

theorem collect_injective (length : elements.length = others.length)
    (same : Message.collect kind elements = Message.collect kind others) : elements = others := by
  cases kind with
  | array | set | push => exact (Message.sequence.inj same).2.1
  | map => exact entriesOf_injective length (even rfl) (Message.map.inj same).1
  | _ => cases aggregate

theorem headNested_collect : (Message.collect kind elements).HeadNested ↔
    (∀ element ∈ elements.take kind.group, element.HeadNested) ∧
      ∀ element ∈ elements.drop kind.group, element.flat = true := by
  cases kind with
  | array | set | push => exact headNested_sequence
  | map => exact headNested_map (even rfl)
  | _ => cases aggregate

end Collect

/-! What `build_message` makes of leaves and containers. -/

section Nodes

variable {tree : RawTree Text}

theorem Yields.unique {node : Nat} {one other : Message} (first : Yields tree node one)
    (second : Yields tree node other) : one = other := by
  obtain ⟨_, left⟩ := first.build
  obtain ⟨_, right⟩ := second.build
  exact Except.ok.inj (iterate_deterministic left right)

theorem receiveAll_sequence (own : SequenceKind) (index : Nat) (messages elements : List Message) :
    Draft.receiveAll own.kind .child index messages { result := .sequence own elements none } =
      .ok { result := .sequence own (elements ++ messages) none } := by
  induction messages generalizing index elements with
  | nil => rw [Draft.receiveAll, List.append_nil]
  | cons message rest ih =>
    have pushed : Draft.receive own.kind ⟨.child, index⟩ message { result := .sequence own elements none } =
        .ok { result := .sequence own (elements ++ [message]) none } := by
      cases own <;> rfl
    simp only [Draft.receiveAll, pushed, ih, List.append_assoc, List.cons_append, List.nil_append]

theorem receiveAll_map : ∀ (messages : List Message) (index : Nat) (entries : List (Message × Message)),
    index % 2 = 0 → messages.length % 2 = 0 →
    Draft.receiveAll .map .child index messages { result := .map entries none } =
      .ok { result := .map (entries ++ entriesOf messages) none }
  | [], _, _, _, _ => by rw [Draft.receiveAll, entriesOf, List.append_nil]; simp
  | [_], _, _, _, even => by simp at even
  | key :: value :: rest, index, entries, slot, even => by
    have later := receiveAll_map rest (index + 2) (entries ++ [(key, value)]) (by omega)
      (by simp only [List.length_cons] at even; omega)
    simp only [Draft.receiveAll, Draft.receive, Draft.receiveChild, slot, if_true,
      show ¬ (index + 1) % 2 = 0 by omega, if_false, Message.pushEntry]
    rw [later, entriesOf, List.append_assoc]
    rfl

/-- A container node yields what its window holds. -/
theorem yields_container {kind : Kind} {elements : List Sentence} {base at' : Nat} {messages : List Message}
    (aggregate : kind.isAggregate = true) (even : kind = .map → elements.length % 2 = 0)
    (found : tree.nodes[base]? = some (Sentence.container kind elements base at'))
    (count : messages.length = elements.length)
    (window : Window tree (at' + Sentence.lead kind elements (base + 1)) 0 messages) :
    Yields tree base (.collect kind messages) := by
  have start (own : SequenceKind) (same : kind = own.kind) :
      Draft.start (Sentence.container kind elements base at') = .ok { result := .sequence own [] none } := by
    subst same
    cases own <;> simp [Draft.start, initialMessage, Sentence.container, headerNode, Parser.containerNode,
      RawNode.map, SequenceKind.kind]
  have sequence (own : SequenceKind) (same : kind = own.kind) :
      Yields tree base (.sequence own messages none) := by
    have received := receiveAll_sequence own 0 messages []
    rw [← same] at received
    exact yields_bare messages found (start own same) rfl count window received
  cases kind with
  | array => exact sequence .array rfl
  | set => exact sequence .set rfl
  | push => exact sequence .push rfl
  | map =>
    have start : Draft.start (Sentence.container .map elements base at') = .ok { result := .map [] none } := by
      simp [Draft.start, initialMessage, Sentence.container, headerNode, Parser.containerNode, RawNode.map, even]
    exact yields_bare messages found start rfl count window
      (receiveAll_map messages 0 [] rfl (count ▸ even rfl))
  | _ => cases aggregate

theorem initialMessage_rawNode [FloatChars] {limits : Limits} {leaf : Leaf} (formed : leaf.WellFormed limits) :
    initialMessage leaf.rawNode = .ok (.scalar leaf.meaning none) := by
  cases formed with
  | @line kind text lineKind free short integer double =>
    have text' : (header kind text).tail.take text.length = text := by
      rw [header, List.tail_cons, List.take_left]
    cases kind with
    | simpleString | simpleError | bigNumber | integer | doubleNumber =>
      simp [initialMessage, Leaf.rawNode, Leaf.node, Leaf.meaning, RawNode.map, Source.text, Kind.textual,
        Leaf.encode, text', isTypedNullKind]
    | _ => cases lineKind
  | null => rfl
  | boolean value => rfl
  | @bulk kind numeral payload bulkKind length within verbatim =>
    have text' : ((Leaf.bulk kind numeral payload).encode.drop (1 + numeral.length + 2)).take payload.length =
        payload := by
      rw [Leaf.encode, List.append_assoc, ← header_length kind numeral, List.drop_left, List.take_left]
    cases kind with
    | bulkString | bulkError =>
      simp [initialMessage, Leaf.rawNode, Leaf.node, Leaf.meaning, RawNode.map, Source.text, Kind.textual, text']
    | verbatimString =>
      simp [initialMessage, Leaf.rawNode, Leaf.node, Leaf.meaning, RawNode.map, Source.text, Kind.textual,
        text', Except.map, decodeVerbatim, verbatim]
    | _ => cases bulkKind
  | @typedNull kind numeral nullable length =>
    cases kind with
    | bulkString | bulkError | verbatimString | array | set | push | map => rfl
    | _ => rcases nullable with no | no <;> cases no

theorem yields_leaf [FloatChars] {limits : Limits} {leaf : Leaf} {base : Nat} (formed : leaf.WellFormed limits)
    (found : tree.nodes[base]? = some leaf.rawNode) : Yields tree base (.scalar leaf.meaning none) := by
  have childless : leaf.rawNode.childCount = 0 ∧ leaf.rawNode.attrCount = 0 := by cases leaf <;> exact ⟨rfl, rfl⟩
  have start : Draft.start leaf.rawNode = .ok { result := .scalar leaf.meaning none } := by
    simp [Draft.start, initialMessage_rawNode formed, childless]
  exact yields_bare [] found start childless.2 childless.1.symm trivial rfl

end Nodes

/-! What the nodes and links of a sentence yield. -/

/-- The node yields a message that is less deep than `bound`. -/
def Lower (tree : RawTree Text) (node bound : Nat) : Prop := ∃ message, Yields tree node message ∧
    message.height < bound

/-- The node of the sentence yields its meaning exactly if nested elements come first, and no
link of the sentence yields anything as deep as the sentence. -/
structure Faithful (tree : RawTree Text) (sentence : Sentence) (base : Nat) : Prop where
  node : ∃ message, Yields tree base message ∧ message.height ≤ sentence.meaning.height ∧
    (message = sentence.meaning ↔ sentence.meaning.HeadNested)
  below : ∀ link ∈ sentence.links base, Lower tree link sentence.meaning.height

/-- Sentences one after another, from the index `base` on. -/
def FaithfulAll (tree : RawTree Text) : List Sentence → Nat → Prop
  | [], _ => True
  | sentence :: rest, base => Faithful tree sentence base ∧ FaithfulAll tree rest (base + sentence.size)

/-- The indices of sentences one after another. -/
def indices : List Sentence → Nat → List Nat
  | [], _ => []
  | sentence :: rest, base => base :: indices rest (base + sentence.size)

section Links

variable {tree : RawTree Text}

theorem Lower.mono {node bound bound' : Nat} (lower : Lower tree node bound) (le : bound ≤ bound') :
    Lower tree node bound' := by
  obtain ⟨message, yields, less⟩ := lower
  exact ⟨message, yields, Nat.lt_of_lt_of_le less le⟩

theorem Faithful.lower {sentence : Sentence} {base : Nat} (faithful : Faithful tree sentence base) :
    Lower tree base (sentence.meaning.height + 1) := by
  obtain ⟨message, yields, height, -⟩ := faithful.node
  exact ⟨message, yields, Nat.lt_succ_of_le height⟩

theorem linkElements_lower {elements : List Sentence} {base : Nat} (faithful : FaithfulAll tree elements base) :
    ∀ link ∈ Sentence.linkElements elements base, Lower tree link (Message.heights (Sentence.meanings elements)) := by
  induction elements generalizing base with
  | nil => nofun
  | cons element rest ih =>
    intro link member
    simp only [Sentence.linkElements, List.mem_append, List.mem_cons] at member
    simp only [Sentence.meanings, Message.heights]
    rcases member with inside | rfl | later
    · exact (faithful.1.below link inside).mono (by omega)
    · exact faithful.1.lower.mono (by omega)
    · exact (ih faithful.2 link later).mono (by omega)

theorem linkEntries_lower {elements : List Sentence} {base : Nat} (faithful : FaithfulAll tree elements base) :
    ∀ link ∈ Sentence.linkEntries elements base, Lower tree link (Message.heights (Sentence.meanings elements)) := by
  induction elements using Sentence.entries_induction generalizing base with
  | nil | single => nofun
  | entry key value rest ih =>
    obtain ⟨ofKey, ofValue, ofRest⟩ := faithful
    intro link member
    simp only [Sentence.linkEntries, List.mem_append, List.mem_cons] at member
    simp only [Sentence.meanings, Message.heights]
    rcases member with (inKey | inValue) | rfl | rfl | later
    · exact (ofKey.below link inKey).mono (by omega)
    · exact (ofValue.below link inValue).mono (by omega)
    · exact ofKey.lower.mono (by omega)
    · exact ofValue.lower.mono (by omega)
    · exact (ih ofRest link later).mono (by omega)

/-- Elements without links of their own are linked one after another. -/
theorem linkElements_indices {elements : List Sentence} (bare : ∀ element ∈ elements, ∀ base, element.links base = [])
    (base : Nat) : Sentence.linkElements elements base = indices elements base := by
  induction elements generalizing base with
  | nil => rfl
  | cons element rest ih =>
    rw [Sentence.linkElements, indices, bare element (List.mem_cons_self ..),
      ih fun other member => bare other (List.mem_cons_of_mem _ member), List.nil_append]

theorem linkEntries_indices {elements : List Sentence} (even : elements.length % 2 = 0)
    (bare : ∀ element ∈ elements, ∀ base, element.links base = []) (base : Nat) :
    Sentence.linkEntries elements base = indices elements base := by
  induction elements using Sentence.entries_induction generalizing base with
  | nil => rfl
  | single key => simp at even
  | entry key value rest ih =>
    rw [Sentence.linkEntries, indices, indices, bare key (by simp), bare value (by simp),
      ih (by simp only [List.length_cons] at even; omega) fun other member => bare other (by simp [member])]
    rfl

/-- Some link takes the place of an element that is deeper than what the link yields. -/
def Displaced (tree : RawTree Text) (elements : List Sentence) (links : List Nat) : Prop :=
  ∃ (position : Nat) (element : Sentence) (link : Nat), elements[position]? = some element ∧
    links[position]? = some link ∧ Lower tree link element.meaning.height

theorem Displaced.cons {elements : List Sentence} {links : List Nat} (displaced : Displaced tree elements links)
    (element : Sentence) (link : Nat) : Displaced tree (element :: elements) (link :: links) := by
  obtain ⟨position, other, found, here, there, lower⟩ := displaced
  exact ⟨position + 1, other, found, here, there, lower⟩

omit tree in
theorem links_eq_nil {sentence : Sentence} (plain : sentence.Plain) (base : Nat) :
    sentence.links base = [] ↔ sentence.meaning.flat = true := by
  cases plain with
  | leaf body => exact ⟨fun _ => rfl, fun _ => rfl⟩
  | @aggregate kind numeral elements aggregate even plain =>
    have none (meanings : List Message) (length : meanings.length = elements.length) :
        (Message.collect kind meanings).flat = true ↔ meanings = [] := by
      rw [Message.flat_iff, height_collect aggregate fun map => length ▸ even map]
      cases meanings <;> simp [Message.heights]
    rw [Sentence.meaning, none _ (Sentence.length_meanings elements), Sentence.links]
    rcases elements with _ | ⟨_, _ | ⟨_, _⟩⟩
    · split <;> simp [Sentence.linkEntries, Sentence.linkElements, Sentence.meanings]
    · rw [if_neg fun map => absurd (even map) (by simp)]
      simp [Sentence.linkElements, Sentence.meanings]
    · split <;> simp [Sentence.linkEntries, Sentence.linkElements, Sentence.meanings]

theorem linkElements_displaced {elements : List Sentence} {base : Nat} (faithful : FaithfulAll tree elements base)
    (plain : ∀ element ∈ elements, element.Plain) (nested : ∃ element ∈ elements, ¬ element.meaning.flat = true) :
    Displaced tree elements (Sentence.linkElements elements base) := by
  induction elements generalizing base with
  | nil => obtain ⟨_, member, _⟩ := nested; cases member
  | cons element rest ih =>
    rw [Sentence.linkElements]
    cases own : element.links base with
    | nil =>
      -- The element is linked in its own place, so the nested one comes later.
      have flat := (links_eq_nil (plain element (List.mem_cons_self ..)) base).mp own
      obtain ⟨other, member, deep⟩ := nested
      refine Displaced.cons (ih faithful.2 (fun other member => plain other (List.mem_cons_of_mem _ member)) ?_) _ _
      rcases List.mem_cons.mp member with rfl | later
      · exact absurd flat deep
      · exact ⟨other, later, deep⟩
    | cons link links =>
      exact ⟨0, element, link, rfl, rfl, faithful.1.below link (by rw [own]; exact List.mem_cons_self ..)⟩

theorem linkEntries_displaced {elements : List Sentence} {base : Nat} (faithful : FaithfulAll tree elements base)
    (even : elements.length % 2 = 0) (plain : ∀ element ∈ elements, element.Plain)
    (nested : ∃ element ∈ elements, ¬ element.meaning.flat = true) :
    Displaced tree elements (Sentence.linkEntries elements base) := by
  induction elements using Sentence.entries_induction generalizing base with
  | nil => obtain ⟨_, member, _⟩ := nested; cases member
  | single key => simp at even
  | entry key value rest ih =>
    obtain ⟨ofKey, ofValue, ofRest⟩ := faithful
    rw [Sentence.linkEntries]
    cases ownKey : key.links base with
    | cons link links =>
      exact ⟨0, key, link, rfl, rfl, ofKey.below link (by rw [ownKey]; exact List.mem_cons_self ..)⟩
    | nil =>
      have flatKey := (links_eq_nil (plain key (by simp)) base).mp ownKey
      cases ownValue : value.links (base + key.size) with
      | nil =>
        have flatValue := (links_eq_nil (plain value (by simp)) (base + key.size)).mp ownValue
        obtain ⟨other, member, deep⟩ := nested
        refine ((ih ofRest (by simp only [List.length_cons] at even; omega)
          (fun other member => plain other (by simp [member])) ?_).cons value _).cons key _
        simp only [List.mem_cons] at member
        rcases member with rfl | rfl | later
        · exact absurd flatKey deep
        · exact absurd flatValue deep
        · exact ⟨other, later, deep⟩
      | cons link links =>
        -- The value's slot holds a later link of the value, or the key, which is flat.
        cases links with
        | cons next links =>
          exact ⟨1, value, next, rfl, rfl, ofValue.below next (by rw [ownValue]; simp)⟩
        | nil =>
          have deep : ¬ value.meaning.flat = true := by
            intro flat
            have bare := (links_eq_nil (plain value (by simp)) (base + key.size)).mpr flat
            rw [ownValue] at bare
            cases bare
          have positive : value.meaning.height ≠ 0 := fun zero => deep ((Message.flat_iff _).mpr zero)
          refine ⟨1, value, base, rfl, rfl, ofKey.lower.mono ?_⟩
          rw [(Message.flat_iff _).mp flatKey]
          omega

end Links

/-! The window of a container. -/

/-- The links that a container takes for its elements. -/
def window (kind : Kind) (elements : List Sentence) (base : Nat) : List Nat :=
  ((if kind = .map then Sentence.linkEntries elements base else Sentence.linkElements elements base).drop
    (Sentence.lead kind elements base)).take elements.length

section Windows

variable {tree : RawTree Text} {kind : Kind} {elements : List Sentence} {base : Nat}

theorem length_indices (elements : List Sentence) (base : Nat) : (indices elements base).length = elements.length := by
  induction elements generalizing base with
  | nil => rfl
  | cons element rest ih => rw [indices, List.length_cons, List.length_cons, ih]

theorem length_linkElements_ge (elements : List Sentence) (base : Nat) :
    elements.length ≤ (Sentence.linkElements elements base).length := by
  induction elements generalizing base with
  | nil => exact Nat.zero_le _
  | cons element rest ih =>
    have later := ih (base + element.size)
    simp only [Sentence.linkElements, List.length_append, List.length_cons]
    omega

theorem length_linkEntries_ge {elements : List Sentence} (even : elements.length % 2 = 0) (base : Nat) :
    elements.length ≤ (Sentence.linkEntries elements base).length := by
  induction elements using Sentence.entries_induction generalizing base with
  | nil => exact Nat.zero_le _
  | single key => simp at even
  | entry key value rest ih =>
    have later := ih (by simp only [List.length_cons] at even; omega) (base + key.size + value.size)
    simp only [Sentence.linkEntries, List.length_append, List.length_cons]
    omega

/-- The window of a sequence: its first element, and whatever was linked after it. -/
theorem window_sequence (sequence : kind ≠ .map) (element : Sentence) (rest : List Sentence) (base : Nat) :
    window kind (element :: rest) base =
      base :: (Sentence.linkElements rest (base + element.size)).take rest.length := by
  rw [window, if_neg sequence, Sentence.linkElements, Sentence.lead, if_neg sequence, Nat.add_zero, List.drop_left,
    List.length_cons, List.take_succ_cons]

/-- The window of a map: its first entry, and whatever was linked after it. -/
theorem window_map (key value : Sentence) (rest : List Sentence) (base : Nat) :
    window .map (key :: value :: rest) base =
      base :: (base + key.size) ::
        (Sentence.linkEntries rest (base + key.size + value.size)).take rest.length := by
  rw [window, if_pos rfl, Sentence.linkEntries, Sentence.lead, if_pos rfl, List.head?_cons, Option.elim_some,
    ← List.length_append, List.drop_left, List.length_cons, List.length_cons, List.take_succ_cons,
    List.take_succ_cons]

theorem Displaced.take {tree : RawTree Text} {elements : List Sentence} {links : List Nat}
    (displaced : Displaced tree elements links) : Displaced tree elements (links.take elements.length) := by
  obtain ⟨position, element, link, here, there, lower⟩ := displaced
  refine ⟨position, element, link, here, ?_, lower⟩
  rw [List.getElem?_take_of_lt (List.getElem?_eq_some_iff.mp here).1, there]

theorem window_lower (kind : Kind) (faithful : FaithfulAll tree elements base) :
    ∀ link ∈ window kind elements base, Lower tree link (Message.heights (Sentence.meanings elements)) := by
  intro link member
  have inside := List.mem_of_mem_drop (List.mem_of_mem_take member)
  split at inside
  · exact linkEntries_lower faithful link inside
  · exact linkElements_lower faithful link inside

variable (even : kind = .map → elements.length % 2 = 0)
include even

theorem length_window : (window kind elements base).length = elements.length := by
  cases elements with
  | nil => rfl
  | cons element rest =>
    by_cases map : kind = .map
    · subst map
      match rest, even rfl with
      | [], odd => simp at odd
      | value :: rest, even =>
        have enough := length_linkEntries_ge (show rest.length % 2 = 0 by simp at even; omega)
          (base + element.size + value.size)
        rw [window_map, List.length_cons, List.length_cons, List.length_take, Nat.min_eq_left enough]
        rfl
    · have enough := length_linkElements_ge rest (base + element.size)
      rw [window_sequence map, List.length_cons, List.length_take, Nat.min_eq_left enough]
      rfl

/-- Where the later elements are flat the window lists the container's elements. -/
theorem window_indices (plain : ∀ element ∈ elements, element.Plain)
    (flat : ∀ element ∈ elements.drop kind.group, element.meaning.flat = true) :
    window kind elements base = indices elements base := by
  have bare (rest : List Sentence) (inside : ∀ element ∈ rest, element ∈ elements.drop kind.group) :
      ∀ element ∈ rest, ∀ base, element.links base = [] := fun element member base =>
    (links_eq_nil (plain element (List.mem_of_mem_drop (inside element member))) base).mpr
      (flat element (inside element member))
  cases elements with
  | nil => simp [window, Sentence.linkEntries, Sentence.linkElements, indices]
  | cons element rest =>
    by_cases map : kind = .map
    · subst map
      have even := even rfl
      cases rest with
      | nil => simp at even
      | cons value rest =>
        have bare := bare rest (fun _ member => member)
        rw [window_map, linkEntries_indices (by simp at even; omega) bare, List.take_of_length_le]
        · rfl
        · exact Nat.le_of_eq (length_indices _ _)
    · have bare := bare rest (by rw [Kind.group, if_neg map]; exact fun _ member => member)
      rw [window_sequence map, linkElements_indices bare, List.take_of_length_le]
      · rfl
      · exact Nat.le_of_eq (length_indices _ _)

/-- Otherwise some element has lost its place. -/
theorem window_displaced (plain : ∀ element ∈ elements, element.Plain) (faithful : FaithfulAll tree elements base)
    (nested : ∃ element ∈ elements.drop kind.group, ¬ element.meaning.flat = true) :
    Displaced tree elements (window kind elements base) := by
  cases elements with
  | nil => obtain ⟨_, member, _⟩ := nested; simp at member
  | cons element rest =>
    by_cases map : kind = .map
    · subst map
      match rest, even rfl, faithful, plain, nested with
      | [], odd, _, _, _ => simp at odd
      | value :: rest, even, ⟨_, _, faithful⟩, plain, nested =>
        rw [window_map]
        refine ((linkEntries_displaced faithful (by simp at even; omega) ?_ nested).take.cons value _).cons element _
        exact fun other member => plain other (by simp [member])
    · rw [Kind.group, if_neg map] at nested
      rw [window_sequence map]
      refine (linkElements_displaced faithful.2 ?_ nested).take.cons element _
      exact fun other member => plain other (by simp [member])

end Windows

section Containers

variable {tree : RawTree Text} {kind : Kind} {elements : List Sentence} {base : Nat}

/-- One message for each link. -/
def YieldsAll (tree : RawTree Text) (links : List Nat) (messages : List Message) : Prop :=
  ∀ position link : Nat, links[position]? = some link →
    ∃ message, messages[position]? = some message ∧ Yields tree link message

theorem exists_messages {links : List Nat} {bound : Nat} (lower : ∀ link ∈ links, Lower tree link bound) :
    ∃ messages : List Message, messages.length = links.length ∧ (∀ message ∈ messages, message.height < bound) ∧
      YieldsAll tree links messages := by
  induction links with
  | nil => exact ⟨[], rfl, nofun, nofun⟩
  | cons link rest ih =>
    obtain ⟨message, yields, less⟩ := lower link (List.mem_cons_self ..)
    obtain ⟨messages, length, bounded, each⟩ := ih fun other member => lower other (List.mem_cons_of_mem _ member)
    refine ⟨message :: messages, congrArg Nat.succ length, ?_, ?_⟩
    · intro other member
      rcases List.mem_cons.mp member with rfl | later
      · exact less
      · exact bounded other later
    · intro position other found
      cases position with
      | zero =>
        cases found
        exact ⟨message, rfl, yields⟩
      | succ position => exact each position other found

theorem window_of_links {links : List Nat} {messages : List Message} {first : Nat} (next : Nat)
    (length : messages.length = links.length)
    (linked : ∀ position link : Nat, links[position]? = some link →
      tree.links[u32 (first + (next + position))]? = some link)
    (each : YieldsAll tree links messages) :
    Window tree first next messages := by
  induction messages generalizing links next with
  | nil => trivial
  | cons message rest ih =>
    cases links with
    | nil => cases length
    | cons link links =>
      obtain ⟨_, ⟨⟩, yields⟩ := each 0 link rfl
      refine ⟨⟨link, linked 0 link rfl, yields⟩, ih (next + 1) (Nat.succ.inj length) ?_ ?_⟩
      · intro position other found
        rw [show next + 1 + position = next + (position + 1) by omega]
        exact linked (position + 1) other found
      · intro position other found
        exact each (position + 1) other found

/-- In a window that lists the elements, every element yields its meaning or not as it does on its own. -/
theorem messages_eq_iff {messages : List Message} (faithful : FaithfulAll tree elements base)
    (length : messages.length = elements.length)
    (each : YieldsAll tree (indices elements base) messages) :
    messages = Sentence.meanings elements ↔ ∀ element ∈ elements, element.meaning.HeadNested := by
  induction elements generalizing base messages with
  | nil => simpa [Sentence.meanings] using length
  | cons element rest ih =>
    cases messages with
    | nil => cases length
    | cons message messages =>
      obtain ⟨_, ⟨⟩, yields⟩ := each 0 base rfl
      obtain ⟨built, here, -, iff⟩ := faithful.1.node
      obtain rfl := yields.unique here
      have later := ih faithful.2 (Nat.succ.inj length) fun position link found => each (position + 1) link found
      simp only [Sentence.meanings, List.cons.injEq, List.forall_mem_cons, iff, later]

theorem Displaced.ne {links : List Nat} {messages : List Message} (displaced : Displaced tree elements links)
    (each : YieldsAll tree links messages) :
    messages ≠ Sentence.meanings elements := by
  rintro rfl
  obtain ⟨position, element, link, here, there, shallow, yields, less⟩ := displaced
  obtain ⟨message, found, yields'⟩ := each position link there
  have meaning : (Sentence.meanings elements)[position]? = some element.meaning := by
    rw [Sentence.meanings_eq_map, List.getElem?_map, here]
    rfl
  rw [found] at meaning
  rw [yields.unique yields', Option.some.inj meaning] at less
  exact Nat.lt_irrefl _ less

theorem faithful_container {numeral : Bytes} {at' : Nat} (aggregate : kind.isAggregate = true)
    (even : kind = .map → elements.length % 2 = 0) (plain : ∀ element ∈ elements, element.Plain)
    (found : tree.nodes[base]? = some (Sentence.container kind elements base at'))
    (linked : ∀ position link : Nat, (window kind elements (base + 1))[position]? = some link →
      tree.links[u32 (at' + Sentence.lead kind elements (base + 1) + position)]? = some link)
    (faithful : FaithfulAll tree elements (base + 1)) : Faithful tree (.aggregate kind numeral elements) base := by
  have length := Sentence.length_meanings elements
  have evenMeanings : kind = .map → (Sentence.meanings elements).length % 2 = 0 := length ▸ even
  have height : (Sentence.aggregate kind numeral elements).meaning.height =
      Message.heights (Sentence.meanings elements) := by
    rw [Sentence.meaning, height_collect aggregate evenMeanings]
  obtain ⟨messages, count, bounded, each⟩ := exists_messages (window_lower kind faithful)
  rw [length_window even] at count
  have evenMessages : kind = .map → messages.length % 2 = 0 := count ▸ even
  refine ⟨⟨.collect kind messages, ?_, ?_, ?_⟩, ?_⟩
  · refine yields_container aggregate even found count (window_of_links 0 ?_ ?_ each)
    · rw [count, length_window even]
    · simpa only [Nat.zero_add] using linked
  · rw [height, height_collect aggregate evenMessages]
    exact Message.heights_le bounded
  · -- The window is right exactly if the later elements are flat.
    rw [Sentence.meaning, headNested_collect aggregate evenMeanings, Sentence.meanings_eq_map, ← List.map_take,
      ← List.map_drop, List.forall_mem_map, List.forall_mem_map, ← Sentence.meanings_eq_map]
    by_cases flat : ∀ element ∈ elements.drop kind.group, element.meaning.flat = true
    · rw [window_indices even plain flat] at each
      have iff := messages_eq_iff faithful count each
      constructor
      · intro same
        have nested := iff.mp (collect_injective aggregate evenMessages (count.trans length.symm) same)
        exact ⟨fun element member => nested element (List.mem_of_mem_take member), flat⟩
      · rintro ⟨first, -⟩
        refine congrArg _ (iff.mpr ?_)
        intro element member
        rw [← List.take_append_drop kind.group elements, List.mem_append] at member
        rcases member with early | late
        · exact first element early
        · exact Message.headNested_of_flat (flat element late)
    · have displaced := window_displaced even plain faithful (by simpa using flat)
      constructor
      · intro same
        exact absurd (collect_injective aggregate evenMessages (count.trans length.symm) same) (displaced.ne each)
      · rintro ⟨-, others⟩
        exact absurd others flat
  · intro link member
    rw [height]
    rw [Sentence.links] at member
    split at member
    · exact linkEntries_lower faithful link member
    · exact linkElements_lower faithful link member

end Containers

/-! Sentences in a tree that holds their layout. -/

/-- The nodes and links of the sentence lie in the tree, at these positions. -/
structure Placed (tree : RawTree Text) (nodes : List (RawNode Text)) (links : List Nat) (base at' : Nat) : Prop where
  nodes : ∃ before after, tree.nodes = before ++ nodes ++ after ∧ before.length = base
  links : ∃ before after, tree.links = before ++ links ++ after ∧ before.length = at'

section Placement

variable {tree : RawTree Text} {nodes others : List (RawNode Text)} {links more : List Nat} {base at' : Nat}

theorem Placed.left (placed : Placed tree (nodes ++ others) (links ++ more) base at') :
    Placed tree nodes links base at' := by
  obtain ⟨⟨before, after, same, length⟩, ⟨before', after', same', length'⟩⟩ := placed
  refine ⟨⟨before, others ++ after, ?_, length⟩, ⟨before', more ++ after', ?_, length'⟩⟩
  · rw [same]; simp only [List.append_assoc]
  · rw [same']; simp only [List.append_assoc]

theorem Placed.right (placed : Placed tree (nodes ++ others) (links ++ more) base at') :
    Placed tree others more (base + nodes.length) (at' + links.length) := by
  obtain ⟨⟨before, after, same, length⟩, ⟨before', after', same', length'⟩⟩ := placed
  refine ⟨⟨before ++ nodes, after, ?_, ?_⟩, ⟨before' ++ links, after', ?_, ?_⟩⟩
  · rw [same]; simp only [List.append_assoc]
  · rw [List.length_append, length]
  · rw [same']; simp only [List.append_assoc]
  · rw [List.length_append, length']

theorem Placed.head {node : RawNode Text} (placed : Placed tree (node :: nodes) links base at') :
    tree.nodes[base]? = some node ∧ Placed tree nodes links (base + 1) at' := by
  obtain ⟨⟨before, after, same, length⟩, placed⟩ := placed
  subst length
  refine ⟨by rw [same]; simp, ⟨before ++ [node], after, by rw [same]; simp, by simp⟩, placed⟩

theorem Placed.skip (links : List Nat) (placed : Placed tree nodes (links ++ more) base at') :
    Placed tree nodes more base (at' + links.length) := by
  obtain ⟨place, before, after, same, rfl⟩ := placed
  exact ⟨place, before ++ links, after, by rw [same]; simp only [List.append_assoc], List.length_append⟩

theorem Placed.link (placed : Placed tree nodes links base at') {position link : Nat}
    (found : links[position]? = some link) : tree.links[at' + position]? = some link := by
  obtain ⟨-, before, after, same, rfl⟩ := placed
  have inside := (List.getElem?_eq_some_iff.mp found).1
  rw [same, List.append_assoc, List.getElem?_append_right (Nat.le_add_right ..), Nat.add_sub_cancel_left,
    List.getElem?_append_left inside, found]

/-- Where it is placed, the sentence is faithful. -/
def PlacedFaithful (tree : RawTree Text) (sentence : Sentence) : Prop :=
  ∀ base at', Placed tree (sentence.nodes base at') (sentence.links base) base at' → Faithful tree sentence base

variable {elements : List Sentence} (plain : ∀ element ∈ elements, element.Plain)
  (each : ∀ element ∈ elements, PlacedFaithful tree element)
include plain each

theorem faithfulAll_elements
    (placed : Placed tree (Sentence.elementNodes elements base at') (Sentence.linkElements elements base) base at') :
    FaithfulAll tree elements base := by
  induction elements generalizing base at' with
  | nil => trivial
  | cons element rest ih =>
    have size := Sentence.length_nodes (plain element (List.mem_cons_self ..)) base at'
    rw [Sentence.elementNodes, Sentence.linkElements] at placed
    refine ⟨each element (List.mem_cons_self ..) base at' placed.left, ?_⟩
    have later := placed.right
    rw [size] at later
    exact ih (fun other member => plain other (List.mem_cons_of_mem _ member))
      (fun other member => each other (List.mem_cons_of_mem _ member)) (later.skip [base])

theorem faithfulAll_entries (even : elements.length % 2 = 0)
    (placed : Placed tree (Sentence.entryNodes elements base at') (Sentence.linkEntries elements base) base at') :
    FaithfulAll tree elements base := by
  induction elements using Sentence.entries_induction generalizing base at' with
  | nil => trivial
  | single key => simp at even
  | entry key value rest ih =>
    have ofKey := Sentence.length_nodes (plain key (by simp))
    have ofValue := Sentence.length_nodes (plain value (by simp))
    simp only [Sentence.entryNodes, Sentence.linkEntries, List.append_assoc] at placed
    have second := placed.right
    rw [ofKey] at second
    have later := second.right
    rw [ofValue] at later
    refine ⟨each key (by simp) base at' placed.left, each value (by simp) _ _ second.left, ?_⟩
    exact ih (fun other member => plain other (by simp [member])) (fun other member => each other (by simp [member]))
      (by simp only [List.length_cons] at even; omega) (later.skip [base, base + key.size])

end Placement

/-- A plain sentence is faithful wherever its layout lies in a tree that 32-bit indices can address. -/
theorem faithful_placed [FloatChars] {limits : Limits} (tree : RawTree Text) {sentence : Sentence}
    (addressable : tree.links.length ≤ 2 ^ 32) (plain : sentence.Plain) (formed : sentence.WellFormed limits) :
    PlacedFaithful tree sentence := by
  induction plain with
  | leaf body =>
    intro base at' placed
    cases formed with
    | leaf formed =>
      obtain ⟨found, -⟩ := placed.head
      refine ⟨⟨_, yields_leaf formed found, Nat.le_refl _, ?_⟩, nofun⟩
      exact ⟨fun _ => .scalar _ _, fun _ => rfl⟩
  | @aggregate kind numeral elements aggregate even plain ih =>
    intro base at' placed
    have each : ∀ element ∈ elements, PlacedFaithful tree element := by
      cases formed with
      | aggregate _ _ _ _ formed => exact fun element member => ih element member (formed element member)
    obtain ⟨found, inner⟩ := placed.head
    refine faithful_container aggregate even plain found ?_ ?_
    · intro position link here
      rw [window, List.getElem?_take, List.getElem?_drop] at here
      split at here
      · have there := inner.link here
        rw [← Nat.add_assoc] at there
        have inside := (List.getElem?_eq_some_iff.mp there).1
        rw [u32_of_lt (by omega)]
        exact there
      · cases here
    · by_cases map : kind = .map
      · subst map
        simp only [if_true, Sentence.links] at inner
        exact faithfulAll_entries plain each (even rfl) inner
      · simp only [if_neg map, Sentence.links] at inner
        exact faithfulAll_elements plain each inner

namespace Parser

variable [FloatChars]

/-- A parser between two messages that holds nothing of the last one. -/
structure Blank (p : Parser Buffer View) : Prop extends p.Idle where
  assembly : p.toAssembly = {}

omit [FloatChars] in
theorem blank_feed (limits : Limits) (room : Nat) (octets : Bytes) : ((fresh limits).feed room octets).Blank :=
  ⟨⟨rfl, rfl, rfl⟩, rfl⟩

/-- The tree built for a plain sentence in front of the input, and what is left behind it. -/
theorem parseOne_laid {p : Parser Buffer View} (blank : p.Blank) {sentence : Sentence} {rest : Bytes}
    (plain : sentence.Plain) (formed : sentence.WellFormed p.limits) (few : sentence.size ≤ 2 ^ 32)
    (octets : p.data = sentence.encode ++ rest) (short : p.data.length ≤ Buffer.sizeMax) :
    ∃ q, p.parseOne = (.ok (some 0), q) ∧ (∀ memory, q.contents memory = ⟨sentence.nodes 0 0, sentence.links 0⟩) ∧
      q.data = rest ∧ q.limits = p.limits ∧ q.reclaim.Blank := by
  have parsed (memory : Memory) : (p.parseOne.1, p.parseOne.2.copy memory) =
      (.ok (some 0), { p.copy memory with
        tree := ⟨sentence.nodes 0 0, sentence.links 0⟩, pendingAttrs := {}, input := rest, stack := [],
        treeReady := true }) := by
    have assembly : (p.copy memory).toAssembly = {} := by
      have copied : (p.copy memory).toAssembly = p.toAssembly.map (p.input.textOf memory) := rfl
      rw [copied, blank.assembly]
      rfl
    have laid := Sentence.lays plain (p.copy memory).toAssembly (by rw [assembly])
      (Nat.le_of_eq (by rw [assembly]; rfl)) (by rw [assembly]; show 0 + sentence.size ≤ _; omega)
    rw [← parseOne_copy, parseOne_sentence (copy_idle memory blank.toIdle) formed octets short, laid, assembly]
    rfl
  obtain ⟨answer, after⟩ := Prod.ext_iff.mp (parsed .zeroed)
  refine ⟨p.parseOne.2, Prod.ext answer rfl, fun memory => congrArg (·.2.tree) (parsed memory),
    congrArg (·.input) after, congrArg (·.limits) after, ⟨rfl, ?_, rfl⟩, rfl⟩
  exact (congrArg (·.failed) after).trans blank.healthy

/-- The tree that a fresh parser has built when it returns the root of a plain sentence. -/
theorem parseOne_layout {limits : Limits} (room : Nat) {sentence : Sentence} (plain : sentence.Plain)
    (formed : sentence.WellFormed limits) (few : sentence.size ≤ 2 ^ 32)
    (short : sentence.encode.length ≤ Buffer.sizeMax)
    (fits : sentence.encode.length ≤ (Buffer.fresh.prepare room).available) :
    let p := (fresh limits).feed room sentence.encode
    p.parseOne.1 = .ok (some 0) ∧
      ∀ memory, p.parseOne.2.contents memory = ⟨sentence.nodes 0 0, sentence.links 0⟩ := by
  intro p
  have data : p.data = sentence.encode := Buffer.fresh.data_feed fits
  obtain ⟨q, parsed, contents, -⟩ := parseOne_laid (p := p) (blank_feed limits room _) plain formed few
    (data.trans (List.append_nil _).symm) (by rw [data]; exact short)
  rw [parsed]
  exact ⟨rfl, contents⟩

/-- A message in front of the input is read and something is built for it: the
message itself exactly when only first elements are nested in it. -/
theorem parseOne_built {p : Parser Buffer View} (blank : p.Blank) {message : Message} {rest : Bytes}
    (encodable : message.Encodable p.limits) (few : message.nodeCount ≤ 2 ^ 32)
    (octets : p.data = message.encode ++ rest) (short : p.data.length ≤ Buffer.sizeMax) :
    ∃ q enough built, p.parseOne = (.ok (some 0), q) ∧
      (∀ memory, build enough (q.contents memory) 0 = some (.ok built)) ∧
      (built = message ↔ message.HeadNested) ∧ q.data = rest ∧ q.limits = p.limits ∧ q.reclaim.Blank := by
  have plain := message.sentence_plain encodable
  have formed := message.sentence_wellFormed encodable
  obtain ⟨q, parsed, contents, unread⟩ := parseOne_laid blank plain formed few octets short
  have addressable : (message.sentence.links 0).length ≤ 2 ^ 32 :=
    Nat.le_of_lt (Nat.lt_of_lt_of_le (message.sentence.length_links_lt 0) few)
  have faithful := faithful_placed ⟨message.sentence.nodes 0 0, message.sentence.links 0⟩ addressable plain formed 0 0
    ⟨⟨[], [], by simp, rfl⟩, ⟨[], [], by simp, rfl⟩⟩
  obtain ⟨built, yields, -, iff⟩ := faithful.node
  rw [message.meaning_sentence encodable] at iff
  obtain ⟨enough, done⟩ := yields.build
  exact ⟨q, enough, built, parsed, fun memory => by rw [contents]; exact done, iff, unread⟩

/-- Decoding undoes encoding exactly for the messages in which only first elements are nested. -/
theorem roundTrip_iff_headNested {limits : Limits} {message : Message} (encodable : message.Encodable limits)
    (few : message.nodeCount ≤ 2 ^ 32) (short : message.encode.length ≤ Buffer.sizeMax) (room : Nat)
    (fits : message.encode.length ≤ (Buffer.fresh.prepare room).available) (memory : Memory) :
    let p := (fresh limits).feed room message.encode
    (∃ root fuel, p.parseOne.1 = .ok (some root) ∧
      build fuel (p.parseOne.2.contents memory) root = some (.ok message)) ↔ message.HeadNested := by
  intro p
  have data : p.data = message.encode := Buffer.fresh.data_feed fits
  obtain ⟨q, enough, built, parsed, done, iff, -⟩ := parseOne_built (p := p) (blank_feed limits room _) encodable few
    (data.trans (List.append_nil _).symm) (by rw [data]; exact short)
  rw [← iff, parsed]
  constructor
  · rintro ⟨root, fuel, answer, result⟩
    obtain rfl : 0 = root := Option.some.inj (Except.ok.inj answer)
    exact Except.ok.inj (iterate_deterministic (done memory) result)
  · rintro rfl
    exact ⟨0, enough, rfl, done memory⟩

end Parser

/-! Two arrays in an array: the second one loses its place to its own element. -/

section Siblings

def integer (value : Int) : Message := .scalar (.integer value) none

def list (elements : List Message) : Message := .sequence .array elements none

theorem integer_encodable [FloatChars] {value : Int} (small : value = 1 ∨ value = 2) :
    (integer value).Encodable {} := by
  rcases small with rfl | rfl <;> exact .scalar (.integer (by decide) (by decide) (by decide))

theorem singleton_encodable [FloatChars] {element : Message} (encodable : element.Encodable {}) :
    (list [element]).Encodable {} := by
  have length : Length {} .array 1 := ⟨⟨by decide, by decide⟩, by decide⟩
  exact .sequence length (List.forall_mem_cons.mpr ⟨encodable, nofun⟩)

theorem pair_encodable [FloatChars] {first second : Message} (one : first.Encodable {}) (two : second.Encodable {}) :
    (list [first, second]).Encodable {} := by
  have length : Length {} .array 2 := ⟨⟨by decide, by decide⟩, by decide⟩
  exact .sequence length (List.forall_mem_cons.mpr ⟨one, List.forall_mem_cons.mpr ⟨two, nofun⟩⟩)

theorem siblings_encodable [FloatChars] : (list [list [integer 1], list [integer 2]]).Encodable {} :=
  pair_encodable (singleton_encodable (integer_encodable (.inl rfl)))
    (singleton_encodable (integer_encodable (.inr rfl)))

theorem nestedHead_encodable [FloatChars] : (list [list [integer 1], integer 2]).Encodable {} :=
  pair_encodable (singleton_encodable (integer_encodable (.inl rfl))) (integer_encodable (.inr rfl))

/-- `[[1], [2]]` comes back as `[[1], 2]`. -/
theorem siblings_lost :
    letI := FloatChars.none
    let message := list [list [integer 1], list [integer 2]]
    let p := (Parser.fresh {}).feed 4096 message.encode
    message.Encodable {} ∧ p.parseOne.1 = .ok (some 0) ∧
      build 16 (p.parseOne.2.contents .zeroed) 0 = some (.ok (list [list [integer 1], integer 2])) ∧
      list [list [integer 1], integer 2] ≠ message := by
  let := FloatChars.none
  intro message p
  have fits : message.encode.length ≤ (Buffer.fresh.prepare 4096).available :=
    Nat.le_trans (by decide) (Buffer.fresh.le_available_prepare 4096)
  obtain ⟨answer, contents⟩ := Parser.parseOne_layout 4096 (message.sentence_plain siblings_encodable)
    (message.sentence_wellFormed siblings_encodable) (by decide) (by decide) fits
  refine ⟨siblings_encodable, answer, ?_, ?_⟩
  · show build 16 (((Parser.fresh {}).feed 4096 message.sentence.encode).parseOne.2.contents .zeroed) 0 = _
    rw [contents]
    rfl
  · intro same
    have elements := (Message.sequence.inj same).2.1
    simp [list, integer] at elements

/-- A nested first element comes back as it was sent. -/
theorem roundTrip_nestedHead :
    letI := FloatChars.none
    let message := list [list [integer 1], integer 2]
    let p := (Parser.fresh {}).feed 4096 message.encode
    ∃ root fuel, p.parseOne.1 = .ok (some root) ∧
      build fuel (p.parseOne.2.contents .zeroed) root = some (.ok message) := by
  let := FloatChars.none
  have nested : (list [list [integer 1], integer 2]).HeadNested := by
    refine .sequence ?_ ?_
    · rintro _ ⟨⟩
      exact .sequence (by rintro _ ⟨⟩; exact .scalar _ _) nofun
    · intro element member
      rw [List.mem_singleton.mp member]
      rfl
  exact (Parser.roundTrip_iff_headNested nestedHead_encodable (by decide) (by decide) 4096
    (Nat.le_trans (by decide) (Buffer.fresh.le_available_prepare 4096)) .zeroed).mpr nested

end Siblings

end Rediscoro.Resp3

import Rediscoro.Resp3.Absorb

/-! Where the nodes and links of a sentence come to lie.

For a sentence without attributes, `nodes` and `links` are what `absorb` appends
to the two vectors: nodes in the order of the headers, links in the order in which
elements are completed. A container's window of links starts with its first element
(a map's with its first entry) and takes as many links as the container has elements.
-/

set_option autoImplicit false

namespace Rediscoro.Resp3

open Rediscoro.Semantics

/-- The assembly with nodes and links appended. -/
def Assembly.extend (a : Assembly Text) (nodes : List (RawNode Text)) (links : List Nat) : Assembly Text :=
  { a with tree := ⟨a.tree.nodes ++ nodes, a.tree.links ++ links⟩ }

namespace Sentence

mutual

/-- The number of nodes a sentence takes. -/
def size : Sentence → Nat
  | .leaf _ => 1
  | .aggregate _ _ elements => 1 + sizeAll elements
  | .attributed _ entries value => sizeAll entries + value.size

def sizeAll : List Sentence → Nat
  | [] => 0
  | sentence :: rest => sentence.size + sizeAll rest

end

mutual

/-- The links appended for a sentence whose node gets the index `base`. -/
def links : Sentence → Nat → List Nat
  | .leaf _, _ => []
  | .aggregate kind _ elements, base =>
      if kind = .map then linkEntries elements (base + 1) else linkElements elements (base + 1)
  | .attributed .., _ => []

def linkElements : List Sentence → Nat → List Nat
  | [], _ => []
  | element :: rest, base => element.links base ++ base :: linkElements rest (base + element.size)

def linkEntries : List Sentence → Nat → List Nat
  | key :: value :: rest, base =>
      key.links base ++ value.links (base + key.size) ++
        base :: (base + key.size) :: linkEntries rest (base + key.size + value.size)
  | _, _ => []

end

/-- The links that precede the first one of a container's own. -/
def lead (kind : Kind) : List Sentence → Nat → Nat
  | [], _ => 0
  | first :: rest, base =>
      (first.links base).length +
        if kind = .map then (rest.head?.elim [] fun value => value.links (base + first.size)).length else 0

/-- The node of a container whose elements have all been read. -/
def container (kind : Kind) (elements : List Sentence) (base at' : Nat) : RawNode Text :=
  { headerNode kind (kind.headerLength elements.length) at' with
    firstChild := at' + lead kind elements (base + 1)
    childCount := elements.length }

mutual

/-- The nodes appended for a sentence at the index `base`, with `at'` links in front of its own. -/
def nodes : Sentence → Nat → Nat → List (RawNode Text)
  | .leaf body, _, _ => [body.rawNode]
  | .aggregate kind _ elements, base, at' =>
      container kind elements base at' ::
        if kind = .map then entryNodes elements (base + 1) at' else elementNodes elements (base + 1) at'
  | .attributed .., _, _ => []

def elementNodes : List Sentence → Nat → Nat → List (RawNode Text)
  | [], _, _ => []
  | element :: rest, base, at' =>
      element.nodes base at' ++ elementNodes rest (base + element.size) (at' + (element.links base).length + 1)

def entryNodes : List Sentence → Nat → Nat → List (RawNode Text)
  | key :: value :: rest, base, at' =>
      let afterKey := at' + (key.links base).length
      let afterValue := afterKey + (value.links (base + key.size)).length
      key.nodes base at' ++ value.nodes (base + key.size) afterKey ++
        entryNodes rest (base + key.size + value.size) (afterValue + 2)
  | _, _, _ => []

end

/-- No attributes, and an even number of elements in every map. -/
inductive Plain : Sentence → Prop where
  | leaf (body : Leaf) : Plain (.leaf body)
  | aggregate {kind : Kind} {numeral : Bytes} {elements : List Sentence}
      (aggregate : kind.isAggregate = true) (even : kind = .map → elements.length % 2 = 0)
      (plain : ∀ element ∈ elements, Plain element) : Plain (.aggregate kind numeral elements)

/-- Induction over the elements of a map, an entry at a time. -/
theorem entries_induction {motive : List Sentence → Prop} (nil : motive []) (single : ∀ key, motive [key])
    (entry : ∀ key value rest, motive rest → motive (key :: value :: rest)) : ∀ elements, motive elements
  | [] => nil
  | [key] => single key
  | key :: value :: rest => entry key value rest (entries_induction nil single entry rest)

/-! Sizes. -/

theorem size_pos (sentence : Sentence) : 0 < sentence.size := by
  induction sentence using Sentence.induct with
  | leaf body => exact Nat.one_pos
  | aggregate kind numeral elements ih => rw [size]; omega
  | attributed numeral entries value ih body => rw [size]; omega

section Bounds

variable {elements : List Sentence}
  (less : ∀ element ∈ elements, ∀ base, (element.links base).length < element.size) (base : Nat)
include less

theorem length_linkElements_le : (linkElements elements base).length ≤ sizeAll elements := by
  induction elements generalizing base with
  | nil => exact Nat.le_refl _
  | cons element rest ih =>
    have here := less element (List.mem_cons_self ..) base
    have later := ih (fun other member => less other (List.mem_cons_of_mem _ member)) (base + element.size)
    simp only [linkElements, sizeAll, List.length_append, List.length_cons]
    omega

theorem length_linkEntries_le : (linkEntries elements base).length ≤ sizeAll elements := by
  induction elements using entries_induction generalizing base with
  | nil | single => exact Nat.zero_le _
  | entry key value rest ih =>
    have first := less key (by simp) base
    have second := less value (by simp) (base + key.size)
    have later := ih (fun other member => less other (by simp [member])) (base + key.size + value.size)
    simp only [linkEntries, sizeAll, List.length_append, List.length_cons]
    omega

end Bounds

/-- Every link names a node of the sentence other than its own. -/
theorem length_links_lt (sentence : Sentence) (base : Nat) : (sentence.links base).length < sentence.size := by
  induction sentence using Sentence.induct generalizing base with
  | leaf body => exact Nat.one_pos
  | aggregate kind numeral elements ih =>
    have each := length_linkElements_le ih (base + 1)
    have pairs := length_linkEntries_le ih (base + 1)
    simp only [links, size]
    split <;> omega
  | attributed numeral entries value ih body => exact size_pos _

theorem length_elementNodes {elements : List Sentence}
    (same : ∀ element ∈ elements, ∀ base at', (element.nodes base at').length = element.size) (base at' : Nat) :
    (elementNodes elements base at').length = sizeAll elements := by
  induction elements generalizing base at' with
  | nil => rfl
  | cons element rest ih =>
    rw [elementNodes, sizeAll, List.length_append, same element (List.mem_cons_self ..),
      ih fun other member => same other (List.mem_cons_of_mem _ member)]

theorem length_entryNodes {elements : List Sentence} (even : elements.length % 2 = 0)
    (same : ∀ element ∈ elements, ∀ base at', (element.nodes base at').length = element.size) (base at' : Nat) :
    (entryNodes elements base at').length = sizeAll elements := by
  induction elements using entries_induction generalizing base at' with
  | nil => rfl
  | single key => simp at even
  | entry key value rest ih =>
    have here := same key (by simp)
    have next := same value (by simp)
    have later := ih (by simp only [List.length_cons] at even; omega) fun other member => same other (by simp [member])
    simp only [entryNodes, sizeAll, List.length_append, here, next, later]
    omega

theorem length_nodes {sentence : Sentence} (plain : sentence.Plain) (base at' : Nat) :
    (sentence.nodes base at').length = sentence.size := by
  induction plain generalizing base at' with
  | leaf body => rfl
  | aggregate _ even _ ih =>
    simp only [nodes, size, List.length_cons]
    split
    · rename_i map
      rw [length_entryNodes (even map) ih]
      omega
    · rw [length_elementNodes ih]
      omega

/-! `absorb` appends exactly the layout. -/

def Lays (sentence : Sentence) : Prop :=
  ∀ a : Assembly Text, a.pendingAttrs.count = 0 → a.tree.links.length ≤ a.tree.nodes.length →
    a.tree.nodes.length + sentence.size ≤ 2 ^ 32 →
    sentence.absorb a =
      (a.tree.nodes.length,
        a.extend (sentence.nodes a.tree.nodes.length a.tree.links.length) (sentence.links a.tree.nodes.length))

/-- The node of a container with one more element, completed when there were `first` links. -/
def adopted (node : RawNode Text) (first count : Nat) : RawNode Text :=
  { node with firstChild := if node.childCount = 0 then first else node.firstChild, childCount := count }

section Loop

variable {before inner : List (RawNode Text)} {node : RawNode Text} {linked : List Nat} {pending : PendingAttributes}

/-- The assembly while a container with the given node is open. -/
def opened (before : List (RawNode Text)) (node : RawNode Text) (inner : List (RawNode Text)) (linked : List Nat)
    (pending : PendingAttributes) : Assembly Text :=
  ⟨⟨before ++ node :: inner, linked⟩, pending⟩

theorem modify_middle (change : RawNode Text → RawNode Text) :
    (before ++ node :: inner).modify before.length change = before ++ change node :: inner := by
  induction before with
  | nil => rfl
  | cons first rest ih => exact congrArg (List.cons first) ih

theorem adopt_opened (small : linked.length < 2 ^ 32) (count : Nat) :
    Assembly.adopt (opened before node inner linked pending).tree before.length count =
      (opened before (adopted node linked.length count) inner linked pending).tree := by
  simp only [opened, Assembly.adopt, RawTree.update, modify_middle, RawTree.nextLink, u32_of_lt small]
  rfl

theorem length_opened : (before ++ node :: inner).length = before.length + 1 + inner.length := by
  rw [List.length_append, List.length_cons]
  omega

/-- The counters of an open container are in range for so many more nodes, and nothing is pending. -/
structure Roomy (before : List (RawNode Text)) (node : RawNode Text) (inner : List (RawNode Text))
    (linked : List Nat) (pending : PendingAttributes) (needed : Nat) : Prop where
  free : pending.count = 0
  counted : node.childCount ≤ inner.length
  fewer : linked.length ≤ before.length + 1 + inner.length
  room : before.length + 1 + inner.length + needed ≤ 2 ^ 32

theorem absorb_opened {sentence : Sentence} {needed : Nat} (lays : sentence.Lays)
    (roomy : Roomy before node inner linked pending (sentence.size + needed)) :
    sentence.absorb (opened before node inner linked pending) =
      (before.length + 1 + inner.length,
        opened before node (inner ++ sentence.nodes (before.length + 1 + inner.length) linked.length)
          (linked ++ sentence.links (before.length + 1 + inner.length)) pending) := by
  obtain ⟨free, counted, fewer, room⟩ := roomy
  have laid := lays (opened before node inner linked pending) free (by rw [opened, length_opened]; exact fewer)
    (by rw [opened, length_opened]; omega)
  simpa only [opened, length_opened, Assembly.extend, List.append_assoc, List.cons_append] using laid

variable {needed : Nat}

theorem adoptElement_opened (frame : Frame) {element : Sentence} (lays : element.Lays)
    (roomy : Roomy before node inner linked pending (element.size + needed))
    (index : frame.nodeIndex = before.length) (produced : frame.produced = node.childCount) :
    let base := before.length + 1 + inner.length
    let read := element.absorb (opened before node inner linked pending)
    read.2.adoptElement frame read.1 =
      opened before (adopted node (linked.length + (element.links base).length) (node.childCount + 1))
        (inner ++ element.nodes base linked.length) (linked ++ element.links base ++ [base]) pending := by
  have laid := absorb_opened lays roomy
  have less := element.length_links_lt (before.length + 1 + inner.length)
  obtain ⟨free, counted, fewer, room⟩ := roomy
  dsimp only
  rw [laid, Assembly.adoptElement, index, adopt_opened (by rw [List.length_append]; omega), u32_of_lt (by omega),
    produced, List.length_append]
  rfl

theorem Roomy.afterElement {element : Sentence} (sizes : ∀ base at', (element.nodes base at').length = element.size)
    (roomy : Roomy before node inner linked pending (element.size + needed)) (first : Nat) :
    let base := before.length + 1 + inner.length
    Roomy before (adopted node first (node.childCount + 1)) (inner ++ element.nodes base linked.length)
      (linked ++ element.links base ++ [base]) pending needed := by
  have less := element.length_links_lt (before.length + 1 + inner.length)
  obtain ⟨free, counted, fewer, room⟩ := roomy
  refine ⟨free, ?_, ?_, ?_⟩
  all_goals simp only [adopted, List.length_append, sizes, List.length_cons, List.length_nil]
  all_goals omega

/-- Elements that follow the first one leave the start of the window alone. -/
theorem absorbElements_more {frame : Frame} {elements : List Sentence} (lays : ∀ element ∈ elements, element.Lays)
    (sizes : ∀ element ∈ elements, ∀ base at', (element.nodes base at').length = element.size)
    (roomy : Roomy before node inner linked pending (sizeAll elements)) (index : frame.nodeIndex = before.length)
    (produced : frame.produced = node.childCount) (started : node.childCount ≠ 0) :
    absorbElements elements frame (opened before node inner linked pending) =
      opened before { node with childCount := node.childCount + elements.length }
        (inner ++ elementNodes elements (before.length + 1 + inner.length) linked.length)
        (linked ++ linkElements elements (before.length + 1 + inner.length)) pending := by
  induction elements generalizing node inner linked frame with
  | nil => simp only [absorbElements, elementNodes, linkElements, List.append_nil, List.length_nil, Nat.add_zero]
  | cons element rest ih =>
    have here := sizes element (List.mem_cons_self ..)
    have step := adoptElement_opened frame (lays element (List.mem_cons_self ..)) roomy index produced
    have next := roomy.afterElement here (linked.length + (element.links (before.length + 1 + inner.length)).length)
    have counted := roomy.counted
    have room := roomy.room
    have positive := element.size_pos
    rw [sizeAll] at room
    have length : before.length + 1 + (inner ++ element.nodes (before.length + 1 + inner.length) linked.length).length =
        before.length + 1 + inner.length + element.size := by
      rw [List.length_append, here]
      omega
    dsimp only at step
    rw [absorbElements, step]
    refine (ih (fun other member => lays other (List.mem_cons_of_mem _ member))
      (fun other member => sizes other (List.mem_cons_of_mem _ member)) next (by exact index) ?_
      (Nat.succ_ne_zero _)).trans ?_
    · simp only [produced]
      exact u32_of_lt (by omega)
    · rw [length]
      simp only [opened, adopted, if_neg started, elementNodes, linkElements, List.length_append, List.length_cons,
        List.length_nil, List.append_assoc, List.cons_append, List.nil_append, Nat.add_assoc]
      rw [Nat.add_comm 1]

theorem adoptEntry_opened (frame : Frame) {key value : Sentence} (laysKey : key.Lays) (laysValue : value.Lays)
    (sizes : ∀ base at', (key.nodes base at').length = key.size)
    (roomy : Roomy before node inner linked pending (key.size + (value.size + needed)))
    (index : frame.nodeIndex = before.length) (produced : 2 * frame.produced = node.childCount) :
    let base := before.length + 1 + inner.length
    let readKey := key.absorb (opened before node inner linked pending)
    let readValue := value.absorb readKey.2
    readValue.2.adoptEntry { frame with pendingKey := readKey.1 } readValue.1 =
      opened before
        (adopted node (linked.length + (key.links base).length + (value.links (base + key.size)).length)
          (node.childCount + 2))
        (inner ++ key.nodes base linked.length ++
          value.nodes (base + key.size) (linked.length + (key.links base).length))
        (linked ++ key.links base ++ value.links (base + key.size) ++ [base, base + key.size]) pending := by
  have laidKey := absorb_opened laysKey roomy
  have lessKey := key.length_links_lt (before.length + 1 + inner.length)
  have lessValue := value.length_links_lt (before.length + 1 + inner.length + key.size)
  obtain ⟨free, counted, fewer, room⟩ := roomy
  have length : before.length + 1 + (inner ++ key.nodes (before.length + 1 + inner.length) linked.length).length =
      before.length + 1 + inner.length + key.size := by
    rw [List.length_append, sizes]
    omega
  have roomy' : Roomy before node (inner ++ key.nodes (before.length + 1 + inner.length) linked.length)
      (linked ++ key.links (before.length + 1 + inner.length)) pending (value.size + needed) := by
    refine ⟨free, ?_, ?_, ?_⟩
    · rw [List.length_append]
      omega
    · rw [length, List.length_append]
      omega
    · rw [length]
      omega
  have laidValue := absorb_opened laysValue roomy'
  rw [length] at laidValue
  have pairs : u32 (frame.produced + 1) = frame.produced + 1 := u32_of_lt (by omega)
  have count : u32 ((frame.produced + 1) * 2) = node.childCount + 2 := by rw [u32_of_lt (by omega)]; omega
  dsimp only
  rw [laidKey]
  dsimp only
  rw [laidValue, Assembly.adoptEntry]
  dsimp only
  rw [pairs, count, index, adopt_opened (by simp only [List.length_append]; omega)]
  simp only [opened, RawTree.link, List.length_append, List.append_assoc, List.cons_append, List.nil_append,
    ← Nat.add_assoc]

theorem Roomy.afterEntry {key value : Sentence} (sizesKey : ∀ base at', (key.nodes base at').length = key.size)
    (sizesValue : ∀ base at', (value.nodes base at').length = value.size)
    (roomy : Roomy before node inner linked pending (key.size + (value.size + needed))) (first : Nat) :
    let base := before.length + 1 + inner.length
    Roomy before (adopted node first (node.childCount + 2))
      (inner ++ key.nodes base linked.length ++
        value.nodes (base + key.size) (linked.length + (key.links base).length))
      (linked ++ key.links base ++ value.links (base + key.size) ++ [base, base + key.size]) pending needed := by
  have lessKey := key.length_links_lt (before.length + 1 + inner.length)
  have lessValue := value.length_links_lt (before.length + 1 + inner.length + key.size)
  obtain ⟨free, counted, fewer, room⟩ := roomy
  refine ⟨free, ?_, ?_, ?_⟩
  all_goals simp only [adopted, List.length_append, sizesKey, sizesValue, List.length_cons, List.length_nil]
  all_goals omega

theorem absorbEntries_more {frame : Frame} {elements : List Sentence} (even : elements.length % 2 = 0)
    (lays : ∀ element ∈ elements, element.Lays)
    (sizes : ∀ element ∈ elements, ∀ base at', (element.nodes base at').length = element.size)
    (roomy : Roomy before node inner linked pending (sizeAll elements)) (index : frame.nodeIndex = before.length)
    (produced : 2 * frame.produced = node.childCount) (started : node.childCount ≠ 0) :
    absorbEntries elements frame (opened before node inner linked pending) =
      opened before { node with childCount := node.childCount + elements.length }
        (inner ++ entryNodes elements (before.length + 1 + inner.length) linked.length)
        (linked ++ linkEntries elements (before.length + 1 + inner.length)) pending := by
  induction elements using entries_induction generalizing node inner linked frame with
  | nil => simp only [absorbEntries, entryNodes, linkEntries, List.append_nil, List.length_nil, Nat.add_zero]
  | single key => simp at even
  | entry key value rest ih =>
    have ofKey := sizes key (by simp)
    have ofValue := sizes value (by simp)
    have step := adoptEntry_opened frame (lays key (by simp)) (lays value (by simp)) ofKey roomy index produced
    have next := roomy.afterEntry ofKey ofValue
      (linked.length + (key.links (before.length + 1 + inner.length)).length +
        (value.links (before.length + 1 + inner.length + key.size)).length)
    have counted := roomy.counted
    have room := roomy.room
    have positive := key.size_pos
    rw [sizeAll] at room
    have length : before.length + 1 +
        (inner ++ key.nodes (before.length + 1 + inner.length) linked.length ++
          value.nodes (before.length + 1 + inner.length + key.size)
            (linked.length + (key.links (before.length + 1 + inner.length)).length)).length =
        before.length + 1 + inner.length + key.size + value.size := by
      rw [List.length_append, List.length_append, ofKey, ofValue]
      omega
    dsimp only at step
    rw [absorbEntries, step]
    refine (ih (by simp only [List.length_cons] at even; omega) (fun other member => lays other (by simp [member]))
      (fun other member => sizes other (by simp [member])) next (by exact index) ?_ (Nat.succ_ne_zero _)).trans ?_
    · dsimp only [adopted]
      rw [u32_of_lt (by omega)]
      omega
    · rw [length]
      simp only [opened, adopted, if_neg started, entryNodes, linkEntries, List.length_append, List.length_cons,
        List.length_nil, List.append_assoc, List.cons_append, List.nil_append, Nat.add_assoc]
      rw [Nat.add_comm 2]

end Loop

section Containers

variable {a : Assembly Text} {kind : Kind} {elements : List Sentence} (plain : ∀ element ∈ elements, element.Plain)
  (lays : ∀ element ∈ elements, element.Lays) (free : a.pendingAttrs.count = 0)
  (fewer : a.tree.links.length ≤ a.tree.nodes.length) (room : a.tree.nodes.length + 1 + sizeAll elements ≤ 2 ^ 32)
include plain lays free fewer room

/-- The elements of a container that was just opened, the first of which starts its window. -/
theorem absorbElements_opened {len : Nat} (sequence : kind ≠ .map) :
    absorbElements elements (Parser.containerFrame kind len a.tree.nodes.length)
        (opened a.tree.nodes (headerNode kind len a.tree.links.length) [] a.tree.links a.pendingAttrs) =
      opened a.tree.nodes
        { headerNode kind len a.tree.links.length with
          firstChild := a.tree.links.length + lead kind elements (a.tree.nodes.length + 1)
          childCount := elements.length }
        (elementNodes elements (a.tree.nodes.length + 1) a.tree.links.length)
        (a.tree.links ++ linkElements elements (a.tree.nodes.length + 1)) a.pendingAttrs := by
  cases elements with
  | nil => simp only [absorbElements, lead, elementNodes, linkElements, List.append_nil]; rfl
  | cons element rest =>
    have sizes : ∀ other ∈ element :: rest, ∀ base at', (other.nodes base at').length = other.size :=
      fun other member => length_nodes (plain other member)
    have here := sizes element (List.mem_cons_self ..)
    have roomy : Roomy a.tree.nodes (headerNode kind len a.tree.links.length) [] a.tree.links a.pendingAttrs
        (element.size + sizeAll rest) := ⟨free, Nat.le_refl _, by rw [List.length_nil]; omega, room⟩
    have step := adoptElement_opened (Parser.containerFrame kind len a.tree.nodes.length)
      (lays element (List.mem_cons_self ..)) roomy rfl rfl
    have next := roomy.afterElement here (a.tree.links.length + (element.links (a.tree.nodes.length + 1)).length)
    have length : a.tree.nodes.length + 1 + (element.nodes (a.tree.nodes.length + 1) a.tree.links.length).length =
        a.tree.nodes.length + 1 + element.size := by rw [here]
    simp only [List.length_nil, Nat.add_zero, List.nil_append] at step next
    rw [absorbElements, step]
    refine (absorbElements_more (fun other member => lays other (List.mem_cons_of_mem _ member))
      (fun other member => sizes other (List.mem_cons_of_mem _ member)) next (by rfl) (by rfl)
      (Nat.succ_ne_zero _)).trans ?_
    rw [length]
    simp only [opened, adopted, headerNode, Parser.containerNode, RawNode.map, if_true, lead, if_neg sequence,
      elementNodes, linkElements, List.length_append, List.length_cons, List.length_nil, List.append_assoc,
      List.cons_append, List.nil_append, Nat.add_assoc, Nat.add_zero, Nat.zero_add]
    rw [Nat.add_comm 1 rest.length]

theorem absorbEntries_opened {len : Nat} (even : elements.length % 2 = 0) :
    absorbEntries elements (Parser.containerFrame .map len a.tree.nodes.length)
        (opened a.tree.nodes (headerNode .map len a.tree.links.length) [] a.tree.links a.pendingAttrs) =
      opened a.tree.nodes
        { headerNode .map len a.tree.links.length with
          firstChild := a.tree.links.length + lead .map elements (a.tree.nodes.length + 1)
          childCount := elements.length }
        (entryNodes elements (a.tree.nodes.length + 1) a.tree.links.length)
        (a.tree.links ++ linkEntries elements (a.tree.nodes.length + 1)) a.pendingAttrs := by
  match elements with
  | [] => simp only [absorbEntries, lead, entryNodes, linkEntries, List.append_nil]; rfl
  | [_] => simp at even
  | key :: value :: rest =>
    have sizes : ∀ other ∈ key :: value :: rest, ∀ base at', (other.nodes base at').length = other.size :=
      fun other member => length_nodes (plain other member)
    have ofKey := sizes key (by simp)
    have ofValue := sizes value (by simp)
    have roomy : Roomy a.tree.nodes (headerNode .map len a.tree.links.length) [] a.tree.links a.pendingAttrs
        (key.size + (value.size + sizeAll rest)) := ⟨free, Nat.le_refl _, by rw [List.length_nil]; omega, room⟩
    have step := adoptEntry_opened (Parser.containerFrame .map len a.tree.nodes.length)
      (lays key (by simp)) (lays value (by simp)) ofKey roomy rfl rfl
    have next := roomy.afterEntry ofKey ofValue
      (a.tree.links.length + (key.links (a.tree.nodes.length + 1)).length +
        (value.links (a.tree.nodes.length + 1 + key.size)).length)
    have length : a.tree.nodes.length + 1 +
        (key.nodes (a.tree.nodes.length + 1) a.tree.links.length ++
          value.nodes (a.tree.nodes.length + 1 + key.size)
            (a.tree.links.length + (key.links (a.tree.nodes.length + 1)).length)).length =
        a.tree.nodes.length + 1 + key.size + value.size := by
      rw [List.length_append, ofKey, ofValue, ← Nat.add_assoc]
    simp only [List.length_nil, Nat.add_zero, List.nil_append] at step next
    rw [absorbEntries, step]
    refine (absorbEntries_more (by simp only [List.length_cons] at even; omega)
      (fun other member => lays other (by simp [member])) (fun other member => sizes other (by simp [member]))
      next (by rfl) (by rfl) (Nat.succ_ne_zero _)).trans ?_
    rw [length]
    simp only [opened, adopted, headerNode, Parser.containerNode, RawNode.map, if_true, lead, List.head?_cons,
      Option.elim_some, entryNodes, linkEntries, List.length_append, List.length_cons, List.length_nil,
      List.append_assoc, List.cons_append, List.nil_append, Nat.add_assoc, Nat.zero_add]
    rw [Nat.add_comm 2 rest.length]

end Containers

/-- Absorbing a plain sentence appends its layout, and its node is the first one. -/
theorem lays {sentence : Sentence} (plain : sentence.Plain) : sentence.Lays := by
  induction plain with
  | leaf body =>
    intro a free fewer room
    rw [size] at room
    simp only [absorb, Assembly.pushNode, Assembly.attachPending, free, if_true, RawTree.nextIndex,
      u32_of_lt (show a.tree.nodes.length < 2 ^ 32 by omega)]
    simp [Assembly.extend, RawTree.push, nodes, links]
  | @aggregate kind numeral elements aggregate even plain ih =>
    intro a free fewer room
    rw [size] at room
    simp only [absorb, Assembly.pushNode, Assembly.attachPending, free, if_true, RawTree.nextIndex,
      u32_of_lt (show a.tree.nodes.length < 2 ^ 32 by omega), RawTree.nextLink,
      u32_of_lt (show a.tree.links.length < 2 ^ 32 by omega)]
    refine Prod.ext rfl ?_
    simp only [nodes, links, container]
    split
    · rename_i map
      subst map
      exact absorbEntries_opened plain ih free fewer (by omega) (even rfl)
    · rename_i sequence
      exact absorbElements_opened plain ih free fewer (by omega) sequence

end Sentence

end Rediscoro.Resp3

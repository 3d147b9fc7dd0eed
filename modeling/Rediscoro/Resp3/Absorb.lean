import Rediscoro.Resp3.Lexing
import Rediscoro.Resp3.Parser

/-! What a sentence does to the half-built message.

`absorb` follows the derivation tree of a sentence and appends its nodes and
links to an assembly. `parse_sentence` connects it with the code: from any state
that waits for a value, the loop of `parse_one` reads exactly the octets of the
sentence, performs its `absorb`, and hands the node to the frames below.
-/

set_option autoImplicit false

namespace Rediscoro.Resp3

open Rediscoro.Semantics

/-- The raw node of a leaf with its text read. -/
def Leaf.rawNode (leaf : Leaf) : RawNode Text := leaf.node.map (Source.text leaf.encode)

def headerNode (kind : Kind) (len nextLink : Nat) : RawNode Text :=
  (Parser.containerNode kind len nextLink).map fun _ _ => []

/-- The length in the header of a container with so many elements. -/
def Kind.headerLength (kind : Kind) (count : Nat) : Nat := if kind = .map then count / 2 else count

/-! An absorbed sentence is the index of its node and the assembly behind it. -/

mutual

def Sentence.absorb : Sentence → Assembly Text → Nat × Assembly Text
  | .leaf body, a => (a.tree.nextIndex, a.pushNode body.rawNode)
  | .aggregate kind _ elements, a =>
      let len := kind.headerLength elements.length
      let frame := Parser.containerFrame kind len a.tree.nextIndex
      let opened := a.pushNode (headerNode kind len a.tree.nextLink)
      (a.tree.nextIndex,
        if kind = .map then Sentence.absorbEntries elements frame opened
        else Sentence.absorbElements elements frame opened)
  | .attributed _ entries value, a => value.absorb (Sentence.absorbAttributes entries a)

def Sentence.absorbElements : List Sentence → Frame → Assembly Text → Assembly Text
  | [], _, a => a
  | element :: rest, frame, a =>
      let read := element.absorb a
      Sentence.absorbElements rest { frame with produced := u32 (frame.produced + 1) }
        (read.2.adoptElement frame read.1)

def Sentence.absorbEntries : List Sentence → Frame → Assembly Text → Assembly Text
  | key :: value :: rest, frame, a =>
      let readKey := key.absorb a
      let readValue := value.absorb readKey.2
      let paired := { frame with pendingKey := readKey.1 }
      Sentence.absorbEntries rest { paired with produced := u32 (frame.produced + 1) }
        (readValue.2.adoptEntry paired readValue.1)
  | _, _, a => a

def Sentence.absorbAttributes : List Sentence → Assembly Text → Assembly Text
  | key :: value :: rest, a =>
      let readKey := key.absorb a
      let readValue := value.absorb readKey.2
      Sentence.absorbAttributes rest ((readValue.2.pushPending readKey.1).pushPending readValue.1)
  | _, a => a

end

/-- Induction over sentences with the hypothesis for every element. -/
theorem Sentence.induct {motive : Sentence → Prop} (leaf : ∀ body, motive (.leaf body))
    (aggregate : ∀ kind numeral elements, (∀ element ∈ elements, motive element) →
      motive (.aggregate kind numeral elements))
    (attributed : ∀ numeral entries value, (∀ entry ∈ entries, motive entry) → motive value →
      motive (.attributed numeral entries value)) (sentence : Sentence) : motive sentence :=
  @Sentence.rec motive (fun elements => ∀ element ∈ elements, motive element) leaf aggregate attributed nofun
    (fun _ _ first rest element member => (List.mem_cons.mp member).elim (fun same => same ▸ first) (rest element))
    sentence

/-! Nothing is ever taken out of the tree. -/

namespace Assembly

variable {τ : Type} (a : Assembly τ)

@[simp] theorem length_pushNode (node : RawNode τ) : (a.pushNode node).tree.nodes.length = a.tree.nodes.length + 1 := by
  unfold pushNode attachPending
  split <;> simp [RawTree.push, RawTree.update]

@[simp] theorem length_pushPending (kvNode : Nat) :
    (a.pushPending kvNode).tree.nodes.length = a.tree.nodes.length := rfl

@[simp] theorem length_adoptElement (parent : Frame) (childIdx : Nat) :
    (a.adoptElement parent childIdx).tree.nodes.length = a.tree.nodes.length := by
  simp [adoptElement, adopt, RawTree.link, RawTree.update]

@[simp] theorem length_adoptEntry (parent : Frame) (childIdx : Nat) :
    (a.adoptEntry parent childIdx).tree.nodes.length = a.tree.nodes.length := by
  simp [adoptEntry, adopt, RawTree.link, RawTree.update]

end Assembly

/-- A relation between an assembly and a later one, which every single change of an assembly keeps to. -/
structure Assembly.Tracks (related : Assembly Text → Assembly Text → Prop) : Prop where
  refl : ∀ a, related a a
  trans : ∀ {a b c}, related a b → related b c → related a c
  pushNode : ∀ a node, related a (a.pushNode node)
  pushPending : ∀ a kvNode, related a (a.pushPending kvNode)
  adoptElement : ∀ a parent childIdx, related a (a.adoptElement parent childIdx)
  adoptEntry : ∀ a parent childIdx, related a (a.adoptEntry parent childIdx)

namespace Sentence

section Tracks

variable {related : Assembly Text → Assembly Text → Prop} (tracks : Assembly.Tracks related)
include tracks

theorem absorbElements_tracks {elements : List Sentence}
    (each : ∀ element ∈ elements, ∀ a, related a (element.absorb a).2) (frame : Frame) (a : Assembly Text) :
    related a (absorbElements elements frame a) := by
  induction elements generalizing frame a with
  | nil => exact tracks.refl a
  | cons element rest ih =>
    have adopted := tracks.adoptElement (element.absorb a).2 frame (element.absorb a).1
    have later := ih fun other member => each other (List.mem_cons_of_mem _ member)
    exact tracks.trans (each element (List.mem_cons_self ..) a) (tracks.trans adopted (later _ _))

theorem absorbEntries_tracks : ∀ {entries : List Sentence}, (∀ entry ∈ entries, ∀ a, related a (entry.absorb a).2) →
    ∀ (frame : Frame) (a : Assembly Text), related a (absorbEntries entries frame a)
  | [], _, _, a | [_], _, _, a => tracks.refl a
  | key :: value :: rest, each, frame, a => by
    have pair := tracks.trans (each key (by simp) a) (each value (by simp) _)
    have adopted := tracks.adoptEntry (value.absorb (key.absorb a).2).2 { frame with pendingKey := (key.absorb a).1 }
      (value.absorb (key.absorb a).2).1
    have later : ∀ frame b, related b (absorbEntries rest frame b) :=
      absorbEntries_tracks fun other member => each other (by simp [member])
    exact tracks.trans pair (tracks.trans adopted (later _ _))

theorem absorbAttributes_tracks : ∀ {entries : List Sentence}, (∀ entry ∈ entries, ∀ a, related a (entry.absorb a).2) →
    ∀ a : Assembly Text, related a (absorbAttributes entries a)
  | [], _, a | [_], _, a => tracks.refl a
  | key :: value :: rest, each, a => by
    have pair := tracks.trans (each key (by simp) a) (each value (by simp) _)
    have pending := tracks.trans (tracks.pushPending (value.absorb (key.absorb a).2).2 (key.absorb a).1)
      (tracks.pushPending _ (value.absorb (key.absorb a).2).1)
    have later : ∀ b, related b (absorbAttributes rest b) :=
      absorbAttributes_tracks fun other member => each other (by simp [member])
    exact tracks.trans pair (tracks.trans pending (later _))

/-- What holds between an assembly and each of its changes holds between it and what a sentence makes of it. -/
theorem absorb_tracks (sentence : Sentence) (a : Assembly Text) : related a (sentence.absorb a).2 := by
  induction sentence using Sentence.induct generalizing a with
  | leaf body => exact tracks.pushNode a _
  | aggregate kind numeral elements ih =>
    simp only [absorb]
    split
    · exact tracks.trans (tracks.pushNode a _) (absorbEntries_tracks tracks ih _ _)
    · exact tracks.trans (tracks.pushNode a _) (absorbElements_tracks tracks ih _ _)
  | attributed numeral entries value ih body =>
    exact tracks.trans (absorbAttributes_tracks tracks ih a) (body _)

end Tracks

/-- Absorbing the sentence only adds nodes. -/
def Grows (sentence : Sentence) : Prop :=
  ∀ a : Assembly Text, a.tree.nodes.length ≤ (sentence.absorb a).2.tree.nodes.length

theorem grows (sentence : Sentence) : sentence.Grows := by
  have tracks : Assembly.Tracks fun a b => a.tree.nodes.length ≤ b.tree.nodes.length := by
    constructor
    case refl => exact fun a => Nat.le_refl _
    case trans => exact Nat.le_trans
    case pushNode => simp
    case pushPending => simp
    case adoptElement => simp
    case adoptEntry => simp
  exact absorb_tracks tracks sentence

end Sentence

namespace Parser

/-- Attaching overwrites the stack, so it does not depend on it. -/
theorem attachToParent_stack {β τ : Type} (p : Parser β τ) (stack : List Frame) (childIdx : Nat)
    (frames : List Frame) :
    { p with stack := stack }.attachToParent childIdx frames = p.attachToParent childIdx frames := by
  induction frames generalizing p childIdx with
  | nil => rfl
  | cons parent rest ih =>
    have element (a : Assembly τ) := ih { p with toAssembly := a } parent.nodeIndex
    unfold attachToParent
    simp only [element]

variable [FloatChars]

/-- The loop runs to the pass that hands an absorbed node to the frames below, with `rest` unread. -/
def Completes (p : Parser Bytes Text) (read : Nat × Assembly Text) (rest : Bytes) (frames : List Frame) : Prop :=
  Leads parsePass p (settle ({ p with toAssembly := read.2, input := rest }.attachToParent read.1 frames))

theorem Completes.after {p : Parser Bytes Text} {a : Assembly Text} {input rest : Bytes} {stack frames : List Frame}
    {read : Nat × Assembly Text}
    (reaches : Reaches parsePass p { p with toAssembly := a, input := input, stack := stack })
    (completes : Completes { p with toAssembly := a, input := input, stack := stack } read rest frames) :
    Completes p read rest frames := by
  have same := attachToParent_stack { p with toAssembly := read.2, input := rest } stack read.1 frames
  rw [Completes, ← same]
  exact Leads.after reaches completes

/-- Read from any state that waits for a value, the sentence is absorbed. -/
def Parses (limits : Limits) (sentence : Sentence) : Prop :=
  ∀ (p : Parser Bytes Text) (frames : List Frame) (rest : Bytes), p.limits = limits →
    p.stack = .value :: frames → p.input = sentence.encode ++ rest → p.input.length ≤ Buffer.sizeMax →
    Completes p (sentence.absorb p.toAssembly) rest frames

omit [FloatChars] in
theorem attachToParent_element {β τ : Type} {p : Parser β τ} {frame : Frame} (shape : frame.state = .array)
    (kind : frame.containerType = .array ∨ frame.containerType = .set ∨ frame.containerType = .push)
    (present : frame.nodeIndex < p.tree.nodes.length) (childIdx : Nat) (frames : List Frame) :
    p.attachToParent childIdx (frame :: frames) =
      if u32 (frame.produced + 1) = frame.expected then
        { p with toAssembly := p.adoptElement frame childIdx }.attachToParent frame.nodeIndex frames
      else
        (.ok .continueParsing,
          { p with
            toAssembly := p.adoptElement frame childIdx
            stack := .value :: { frame with produced := u32 (frame.produced + 1) } :: frames }) := by
  rw [attachToParent, shape]
  simp only [kind, not_true_eq_false, if_false, if_neg (Nat.not_le.mpr present)]

theorem parse_elements {limits : Limits} {elements : List Sentence} {frames : List Frame} {rest : Bytes}
    (parses : ∀ element ∈ elements, Parses limits element) (some : elements ≠ []) (frame : Frame)
    (shape : frame.state = .array)
    (kind : frame.containerType = .array ∨ frame.containerType = .set ∨ frame.containerType = .push)
    (count : frame.produced + elements.length = frame.expected) (small : frame.expected < 2 ^ 32)
    (p : Parser Bytes Text) (sameLimits : p.limits = limits) (stack : p.stack = .value :: frame :: frames)
    (input : p.input = Sentence.encodeAll elements ++ rest) (short : p.input.length ≤ Buffer.sizeMax)
    (present : frame.nodeIndex < p.tree.nodes.length) :
    Completes p (frame.nodeIndex, Sentence.absorbElements elements frame p.toAssembly) rest frames := by
  induction elements generalizing p frame with
  | nil => contradiction
  | cons element others ih =>
    rw [Sentence.encodeAll, List.append_assoc] at input
    obtain ⟨q, reaches, settled⟩ :=
      parses element (List.mem_cons_self ..) p (frame :: frames) _ sameLimits stack input short
    have grown := element.grows p.toAssembly
    rw [attachToParent_element shape kind (by exact Nat.lt_of_lt_of_le present grown)] at settled
    have next : u32 (frame.produced + 1) = frame.produced + 1 := u32_of_lt (by simp at count; omega)
    by_cases last : others = []
    · subst last
      rw [if_pos (by rw [next]; simpa using count)] at settled
      exact ⟨q, reaches, settled⟩
    · have unfinished : frame.produced + 1 ≠ frame.expected := by
        have := List.length_pos_iff.mpr last
        simp only [List.length_cons] at count
        omega
      rw [if_neg (by rw [next]; exact unfinished)] at settled
      refine Completes.after (reaches.trans (.one settled)) ?_
      refine ih (fun other member => parses other (List.mem_cons_of_mem _ member)) last
        { frame with produced := u32 (frame.produced + 1) } shape kind ?_ small
        { p with
          toAssembly := (element.absorb p.toAssembly).2.adoptElement frame (element.absorb p.toAssembly).1
          input := Sentence.encodeAll others ++ rest
          stack := .value :: { frame with produced := u32 (frame.produced + 1) } :: frames }
        sameLimits rfl rfl ?_ ?_
      · simp only [next, List.length_cons] at count ⊢
        omega
      · rw [input, List.length_append] at short
        exact Nat.le_trans (Nat.le_add_left ..) short
      · simp only [Assembly.length_adoptElement]
        exact Nat.lt_of_lt_of_le present grown

omit [FloatChars] in
theorem attachToParent_key {β τ : Type} {p : Parser β τ} {frame : Frame} (shape : frame.state = .mapKey)
    (kind : frame.containerType = .map) (childIdx : Nat) (frames : List Frame) :
    p.attachToParent childIdx (frame :: frames) =
      (.ok .continueParsing,
        { p with
          stack := .value ::
            { frame with pendingKey := childIdx, hasPendingKey := true, state := .mapValue } :: frames }) := by
  rw [attachToParent, shape]
  simp [kind]

omit [FloatChars] in
theorem attachToParent_value {β τ : Type} {p : Parser β τ} (frame : Frame) (shape : frame.state = .mapValue)
    (kind : frame.containerType = .map) (pending : frame.hasPendingKey = true)
    (present : frame.nodeIndex < p.tree.nodes.length) (childIdx : Nat) (frames : List Frame) :
    p.attachToParent childIdx (frame :: frames) =
      if u32 (frame.produced + 1) = frame.expected then
        { p with toAssembly := p.adoptEntry frame childIdx }.attachToParent frame.nodeIndex frames
      else
        (.ok .continueParsing,
          { p with
            toAssembly := p.adoptEntry frame childIdx
            stack := .value ::
              { frame with
                hasPendingKey := false, produced := u32 (frame.produced + 1), state := .mapKey } :: frames }) := by
  rw [attachToParent, shape]
  simp only [kind, ne_eq, not_true_eq_false, if_false, pending, if_neg (Nat.not_le.mpr present)]

/-- The frame of a map between two entries. -/
def mapFrame (expected produced nodeIndex pendingKey : Nat) : Frame :=
  { state := .mapKey, containerType := .map, expected := expected, produced := produced, nodeIndex := nodeIndex
    pendingKey := pendingKey }

theorem parse_entries {limits : Limits} {frames : List Frame} {rest : Bytes} {expected nodeIndex : Nat}
    (small : expected < 2 ^ 32) : ∀ {entries : List Sentence}, (∀ entry ∈ entries, Parses limits entry) →
      entries ≠ [] → ∀ produced pendingKey : Nat, entries.length = 2 * (expected - produced) →
      ∀ p : Parser Bytes Text, p.limits = limits →
      p.stack = .value :: mapFrame expected produced nodeIndex pendingKey :: frames →
      p.input = Sentence.encodeAll entries ++ rest → p.input.length ≤ Buffer.sizeMax →
      nodeIndex < p.tree.nodes.length →
      Completes p
        (nodeIndex, Sentence.absorbEntries entries (mapFrame expected produced nodeIndex pendingKey) p.toAssembly)
        rest frames
  | [], _, present, _, _, _, _, _, _, _, _, _ => absurd rfl present
  | [_], _, _, _, _, count, _, _, _, _, _, _ => by simp only [List.length_singleton] at count; omega
  | key :: value :: others, parses, _, produced, pendingKey, count, p, sameLimits, stack, input, short, present => by
    simp only [Sentence.encodeAll, List.append_assoc] at input
    -- The key is remembered in the frame, which then waits for the value.
    obtain ⟨q, reaches, settled⟩ := parses key (by simp) p _ _ sameLimits stack input short
    rw [attachToParent_key rfl rfl] at settled
    refine Completes.after (reaches.trans (.one settled)) ?_
    have shorter : (value.encode ++ (Sentence.encodeAll others ++ rest)).length ≤ Buffer.sizeMax := by
      rw [input, List.length_append] at short
      exact Nat.le_trans (Nat.le_add_left ..) short
    have grownKey := key.grows p.toAssembly
    have grownValue := value.grows (key.absorb p.toAssembly).2
    obtain ⟨r, reaches', settled'⟩ := parses value (by simp)
      { p with
        toAssembly := (key.absorb p.toAssembly).2
        input := value.encode ++ (Sentence.encodeAll others ++ rest)
        stack := .value ::
          { mapFrame expected produced nodeIndex (key.absorb p.toAssembly).1 with
            hasPendingKey := true, state := .mapValue } :: frames }
      _ _ sameLimits rfl rfl shorter
    rw [attachToParent_value _ rfl rfl rfl
      (by exact Nat.lt_of_lt_of_le present (Nat.le_trans grownKey grownValue))] at settled'
    simp only [List.length_cons] at count
    have next : u32 (produced + 1) = produced + 1 := u32_of_lt (by omega)
    by_cases last : others = []
    · subst last
      rw [if_pos (by simp only [mapFrame, next]; simp only [List.length_nil] at count; omega)] at settled'
      exact ⟨r, reaches', settled'⟩
    · have more := List.length_pos_iff.mpr last
      rw [if_neg (by simp only [mapFrame, next]; omega)] at settled'
      refine Completes.after (reaches'.trans (.one settled')) ?_
      refine parse_entries small (fun other member => parses other (by simp [member])) last
        (u32 (produced + 1)) (key.absorb p.toAssembly).1 ?_ _ (by exact sameLimits) rfl rfl ?_ ?_
      · rw [next]
        omega
      · rw [List.length_append] at shorter
        exact Nat.le_trans (Nat.le_add_left ..) shorter
      · simp only [Assembly.length_adoptEntry]
        exact Nat.lt_of_lt_of_le present (Nat.le_trans grownKey grownValue)

omit [FloatChars] in
theorem attachToParent_attributeKey {β τ : Type} {p : Parser β τ} {frame : Frame} (shape : frame.state = .attribute)
    (kind : frame.containerType = .attribute) (free : frame.hasPendingKey = false) (childIdx : Nat)
    (frames : List Frame) :
    p.attachToParent childIdx (frame :: frames) =
      (.ok .continueParsing,
        { p with stack := .value :: { frame with pendingKey := childIdx, hasPendingKey := true } :: frames }) := by
  rw [attachToParent, shape]
  simp [kind, free]

omit [FloatChars] in
theorem attachToParent_attributeValue {β τ : Type} {p : Parser β τ} {frame : Frame} (shape : frame.state = .attribute)
    (kind : frame.containerType = .attribute) (pending : frame.hasPendingKey = true) (childIdx : Nat)
    (frames : List Frame) :
    p.attachToParent childIdx (frame :: frames) =
      if u32 (frame.produced + 1) = frame.expected then
        (.ok .continueParsing,
          { p with toAssembly := (p.pushPending frame.pendingKey).pushPending childIdx, stack := frames })
      else
        (.ok .continueParsing,
          { p with
            toAssembly := (p.pushPending frame.pendingKey).pushPending childIdx
            stack := .value ::
              { frame with hasPendingKey := false, produced := u32 (frame.produced + 1) } :: frames }) := by
  rw [attachToParent, shape]
  simp [kind, pending]

/-- The frame of an attribute block between two entries. -/
def blockFrame (expected produced pendingKey : Nat) : Frame :=
  { attributeFrame expected with produced := produced, pendingKey := pendingKey }

/-- The entries of a block are read and wait as pending attributes; then the frame is gone. -/
theorem parse_attributes {limits : Limits} {frames : List Frame} {rest : Bytes} {expected : Nat}
    (small : expected < 2 ^ 32) : ∀ {entries : List Sentence}, (∀ entry ∈ entries, Parses limits entry) →
      entries ≠ [] → ∀ produced pendingKey : Nat, entries.length = 2 * (expected - produced) →
      ∀ p : Parser Bytes Text, p.limits = limits →
      p.stack = .value :: blockFrame expected produced pendingKey :: frames →
      p.input = Sentence.encodeAll entries ++ rest → p.input.length ≤ Buffer.sizeMax →
      Reaches parsePass p
        { p with toAssembly := Sentence.absorbAttributes entries p.toAssembly, input := rest, stack := frames }
  | [], _, present, _, _, _, _, _, _, _, _ => absurd rfl present
  | [_], _, _, _, _, count, _, _, _, _, _ => by simp only [List.length_singleton] at count; omega
  | key :: value :: others, parses, _, produced, pendingKey, count, p, sameLimits, stack, input, short => by
    simp only [Sentence.encodeAll, List.append_assoc] at input
    obtain ⟨q, reaches, settled⟩ := parses key (by simp) p _ _ sameLimits stack input short
    rw [attachToParent_attributeKey rfl rfl rfl] at settled
    refine (reaches.trans (.one settled)).trans ?_
    have shorter : (value.encode ++ (Sentence.encodeAll others ++ rest)).length ≤ Buffer.sizeMax := by
      rw [input, List.length_append] at short
      exact Nat.le_trans (Nat.le_add_left ..) short
    obtain ⟨r, reaches', settled'⟩ := parses value (by simp)
      { p with
        toAssembly := (key.absorb p.toAssembly).2
        input := value.encode ++ (Sentence.encodeAll others ++ rest)
        stack := .value ::
          { blockFrame expected produced (key.absorb p.toAssembly).1 with hasPendingKey := true } :: frames }
      _ _ sameLimits rfl rfl shorter
    rw [attachToParent_attributeValue rfl rfl rfl] at settled'
    simp only [List.length_cons] at count
    have next : u32 (produced + 1) = produced + 1 := u32_of_lt (by omega)
    by_cases last : others = []
    · subst last
      rw [if_pos (by simp only [blockFrame, attributeFrame, next]; simp only [List.length_nil] at count; omega)]
        at settled'
      exact reaches'.trans (.one settled')
    · have more := List.length_pos_iff.mpr last
      rw [if_neg (by simp only [blockFrame, attributeFrame, next]; omega)] at settled'
      refine (reaches'.trans (.one settled')).trans ?_
      refine parse_attributes small (fun other member => parses other (by simp [member])) last
        (u32 (produced + 1)) (key.absorb p.toAssembly).1 ?_ _ (by exact sameLimits) rfl rfl ?_
      · rw [next]
        omega
      · rw [List.length_append] at shorter
        exact Nat.le_trans (Nat.le_add_left ..) shorter

omit [FloatChars] in
theorem headerNode_map (input : Bytes) (kind : Kind) (len nextLink : Nat) :
    (containerNode kind len nextLink).map (Source.text input) = headerNode kind len nextLink := by
  simp [headerNode, containerNode, RawNode.map, Source.text, Span.empty]

theorem rawNode_map {limits : Limits} {leaf : Leaf} (formed : leaf.WellFormed limits) (rest : Bytes)
    (small : leaf.encode.length ≤ Buffer.sizeMax) :
    leaf.node.map (Source.text (leaf.encode ++ rest)) = leaf.rawNode := by
  have within := nextToken_within limits (leaf.encode ++ [])
  rw [nextToken_leaf formed [] small] at within
  have inside := within.2.2
  simp only [Leaf.rawNode, RawNode.map, Source.text]
  rw [List.drop_append_of_le_length (by omega), List.take_append_of_le_length (by rw [List.length_drop]; omega)]

omit [FloatChars] in
theorem topsValue_value {stack frames : List Frame} (top : stack = .value :: frames) : topsValue stack = true := by
  rw [top]
  rfl

/-- A header with elements: the container frame is on the stack with a value frame on top. -/
theorem parse_opened {p : Parser Bytes Text} {kind : Kind} {n used : Nat} {frames : List Frame} {rest : Bytes}
    (stack : p.stack = .value :: frames) (token : nextToken p.limits p.input = .container kind n used)
    (behind : p.input.drop used = rest) (some : n ≠ 0) :
    Reaches parsePass p
      { p with
        toAssembly := p.pushNode (headerNode kind n p.tree.nextLink)
        input := rest
        stack := .value :: containerFrame kind n p.tree.nextIndex :: frames } := by
  have first : p.parsePass = .again
      { p with
        toAssembly := p.pushNode (headerNode kind n p.tree.nextLink)
        input := rest
        stack := containerFrame kind n p.tree.nextIndex :: frames } := by
    rw [parsePass_value (topsValue_value stack)]
    simp only [data, Source.data, token, perform, if_neg some, headerNode_map, stack, List.tail_cons]
    rw [← behind]
    rfl
  have covered : topsValue (containerFrame kind n p.tree.nextIndex :: frames) = false := by
    by_cases map : kind = .map <;> simp [topsValue, containerFrame, map]
  exact .again first (.one (parsePass_covered (by simp) covered))

theorem parse_sentence {limits : Limits} {sentence : Sentence} (formed : sentence.WellFormed limits) :
    Parses limits sentence := by
  induction formed with
  | @leaf body formed =>
    intro p frames rest sameLimits stack input short
    subst sameLimits
    have small : body.encode.length ≤ Buffer.sizeMax := by
      rw [input, Sentence.encode, List.length_append] at short
      exact Nat.le_trans (Nat.le_add_right ..) short
    have token : nextToken p.limits p.data = .leaf body.node body.encode.length :=
      (congrArg (nextToken p.limits) input).trans (nextToken_leaf formed rest small)
    have behind : p.input.drop body.encode.length = rest := by rw [input]; exact List.drop_left
    have node : body.node.map (Source.text p.input) = body.rawNode := by
      rw [input]
      exact rawNode_map formed rest small
    refine ⟨p, .refl p, ?_⟩
    rw [parsePass_value (topsValue_value stack), token]
    simp only [perform, proceed, node, stack_consume, stack, List.tail_cons]
    rw [← behind]
    rfl
  | @aggregate kind numeral n elements aggregate length admissible count formed ih =>
    intro p frames rest sameLimits stack input short
    subst sameLimits
    rw [Sentence.encode, List.append_assoc] at input
    have token := nextToken_container aggregate length admissible (Sentence.encodeAll elements ++ rest)
    rw [← input] at token
    have behind : p.input.drop (header kind numeral).length = Sentence.encodeAll elements ++ rest := by
      rw [input]; exact List.drop_left
    have shorter : (Sentence.encodeAll elements ++ rest).length ≤ Buffer.sizeMax := by
      rw [input, List.length_append] at short
      exact Nat.le_trans (Nat.le_add_left ..) short
    have present := Assembly.length_pushNode p.toAssembly (headerNode kind n p.tree.nextLink)
    have index : p.tree.nextIndex < (p.pushNode (headerNode kind n p.tree.nextLink)).tree.nodes.length := by
      have := u32_le p.tree.nodes.length
      rw [present, RawTree.nextIndex]
      omega
    have len : kind.headerLength elements.length = n := by
      rw [count]
      cases kind with
      | array | set | push => rfl
      | map => simp [Kind.headerLength, Kind.arity]
      | _ => cases aggregate
    simp only [Sentence.absorb, len]
    by_cases empty : n = 0
    · obtain rfl : elements = [] := by
        apply List.length_eq_zero_iff.mp
        rw [count, empty]
        cases kind <;> rfl
      refine ⟨p, .refl p, ?_⟩
      rw [parsePass_value (topsValue_value stack)]
      simp only [data, Source.data, token, perform, if_pos empty, headerNode_map, proceed, stack_consume, stack,
        List.tail_cons]
      rw [Sentence.encodeAll, List.nil_append] at behind
      rw [← behind]
      cases kind <;> rfl
    · have some : elements ≠ [] := by
        rintro rfl
        cases kind with
        | array | set | push | map => simp [Kind.arity] at count; omega
        | _ => cases aggregate
      refine Completes.after (parse_opened stack token behind empty) ?_
      cases kind with
      | array | set | push =>
        refine parse_elements ih some _ rfl (by simp [containerFrame]) ?_ admissible.lt _ rfl rfl rfl shorter index
        simpa [containerFrame, Kind.arity] using count
      | map =>
        refine parse_entries admissible.lt ih some 0 0 ?_ _ rfl rfl rfl shorter index
        simpa [Kind.arity] using count
      | _ => cases aggregate
  | @attributed numeral n entries value length admissible count formed body ih ihBody =>
    intro p frames rest sameLimits stack input short
    subst sameLimits
    rw [Sentence.encode, List.append_assoc, List.append_assoc] at input
    have token := nextToken_attributes length admissible (Sentence.encodeAll entries ++ (value.encode ++ rest))
    rw [← input] at token
    have behind : p.input.drop (header .attribute numeral).length =
        Sentence.encodeAll entries ++ (value.encode ++ rest) := by
      rw [input]; exact List.drop_left
    have shorter : (Sentence.encodeAll entries ++ (value.encode ++ rest)).length ≤ Buffer.sizeMax := by
      rw [input, List.length_append] at short
      exact Nat.le_trans (Nat.le_add_left ..) short
    have shortest : (value.encode ++ rest).length ≤ Buffer.sizeMax := by
      rw [List.length_append] at shorter
      exact Nat.le_trans (Nat.le_add_left ..) shorter
    have first : p.parsePass = .again
        { p with
          input := Sentence.encodeAll entries ++ (value.encode ++ rest)
          stack := if n = 0 then p.stack else attributeFrame n :: p.stack } := by
      rw [parsePass_value (topsValue_value stack)]
      simp only [data, Source.data, token, perform, proceed]
      rw [← behind]
      rfl
    -- Either there is no entry, or the block's frame reads them and goes.
    have entered : Reaches parsePass p
        { p with
          toAssembly := Sentence.absorbAttributes entries p.toAssembly
          input := value.encode ++ rest
          stack := .value :: frames } := by
      by_cases empty : n = 0
      · obtain rfl : entries = [] := List.length_eq_zero_iff.mp (by rw [count, empty]; rfl)
        rw [if_pos empty, stack] at first
        exact .one first
      · have some : entries ≠ [] := by
          rintro rfl
          simp [Kind.arity] at count
          omega
        rw [if_neg empty] at first
        have second := parsePass_covered (p := { p with
          input := Sentence.encodeAll entries ++ (value.encode ++ rest), stack := attributeFrame n :: p.stack })
          (by simp) rfl
        refine .again first (.again second ?_)
        refine parse_attributes admissible.lt ih some 0 0 ?_ _ rfl (by rw [stack]; rfl) rfl shorter
        simpa [Kind.arity] using count
    refine Completes.after entered ?_
    exact ihBody _ _ _ rfl rfl rfl shortest

end Parser

end Rediscoro.Resp3

import Rediscoro.Resp3.Message
import Rediscoro.Resp3.Parser

/-! `build_message`: from the raw tree to a message.

The loop works on an explicit stack of frames, one for each node on the path to
the node it is at. It trusts the windows of `links` it is given, so for a tree
that is not one it may end in a fault, or not at all; `build` bounds its passes.
The texts of the nodes are copied into the message unseen. Only `decode_verbatim`
looks at one of their octets, in an assertion.
-/

set_option autoImplicit false

namespace Rediscoro.Resp3

open Rediscoro.Semantics

/-- The ways the function ends without a message. -/
inductive Fault where
  | outOfRange | unreachable | assertion | badVariant
  deriving DecidableEq, Repr

def isTypedNullKind (type : Kind) : Bool :=
  type = .bulkString || type = .bulkError || type = .verbatimString || type = .array || type = .map ||
    type = .set || type = .push

/-- The octet the assertion looks at is in neither part, so without assertions the result is that for a
payload with the colon in its place. -/
def decodeVerbatim (payload : Bytes) : Except Fault Scalar :=
  if isValidVerbatimPayload payload then .ok (.verbatimString (payload.take 3) (payload.drop 4))
  else .error .assertion

/-- The message of a node before its children and attributes arrive. -/
def initialMessage (n : RawNode Text) : Except Fault Message :=
  if n.type = .attribute then .error .unreachable
  else if n.type = .null then .ok (.scalar (.null .null) none)
  else if n.i64 = -1 ∧ isTypedNullKind n.type then .ok (.scalar (.null n.type) none)
  else
    match n.type with
    | .simpleString => .ok (.scalar (.simpleString n.text) none)
    | .simpleError => .ok (.scalar (.simpleError n.text) none)
    | .integer => .ok (.scalar (.integer n.i64) none)
    | .doubleNumber => .ok (.scalar (.doubleNumber n.f64) none)
    | .boolean => .ok (.scalar (.boolean n.boolean) none)
    | .bigNumber => .ok (.scalar (.bigNumber n.text) none)
    | .bulkString => .ok (.scalar (.bulkString n.text) none)
    | .bulkError => .ok (.scalar (.bulkError n.text) none)
    | .verbatimString => (decodeVerbatim n.text).map fun value => .scalar value none
    | .array => .ok (.sequence .array [] none)
    | .set => .ok (.sequence .set [] none)
    | .push => .ok (.sequence .push [] none)
    | .map => .ok (.map [] none)
    | .null | .attribute => .error .unreachable

inductive ParentSlotKind where
  | child | attribute
  deriving DecidableEq, Repr

structure ParentSlot where
  kind : ParentSlotKind
  index : Nat
  deriving DecidableEq, Repr

/-- The half-built message of a frame. -/
structure Draft where
  result : Message := .null
  pendingMapKey : Option Message := none
  pendingAttrKey : Option Message := none
  attrs : List (Message × Message) := []

/-- `parent` is the source's `has_parent` with the two members it guards. -/
structure BuildFrame where
  node : Nat
  nextChild : Nat := 0
  nextAttr : Nat := 0
  initialized : Bool := false
  parent : Option ParentSlot := none
  draft : Draft := {}

namespace Draft

def start (n : RawNode Text) : Except Fault Draft :=
  match initialMessage n with
  | .error fault => .error fault
  | .ok message =>
      if n.attrCount > 0 ∧ n.attrCount % 2 ≠ 0 then .error .assertion
      else if n.type = .map ∧ n.childCount % 2 ≠ 0 then .error .assertion
      else .ok { result := message }

def receiveChild (type : Kind) (index : Nat) (finished : Message) (draft : Draft) : Except Fault Draft :=
  match type with
  | .array | .set | .push =>
      match draft.result.pushElement type finished with
      | none => .error .badVariant
      | some result => .ok { draft with result := result }
  | .map =>
      if index % 2 = 0 then .ok { draft with pendingMapKey := some finished }
      else
        match draft.pendingMapKey with
        | none => .error .assertion
        | some key =>
            match draft.result.pushEntry key finished with
            | none => .error .badVariant
            | some result => .ok { draft with result := result, pendingMapKey := none }
  | _ => .error .unreachable

def receiveAttr (index : Nat) (finished : Message) (draft : Draft) : Except Fault Draft :=
  if index % 2 = 0 then .ok { draft with pendingAttrKey := some finished }
  else
    match draft.pendingAttrKey with
    | none => .error .assertion
    | some key => .ok { draft with attrs := draft.attrs ++ [(key, finished)], pendingAttrKey := none }

/-- A finished message joins the draft of its parent. -/
def receive (type : Kind) (slot : ParentSlot) (finished : Message) (draft : Draft) : Except Fault Draft :=
  match slot.kind with
  | .child => draft.receiveChild type slot.index finished
  | .attribute => draft.receiveAttr slot.index finished

def finish (n : RawNode Text) (draft : Draft) : Except Fault Message :=
  if n.attrCount > 0 then
    if draft.pendingAttrKey.isSome then .error .unreachable else .ok (draft.result.withAttrs draft.attrs)
  else .ok draft.result

end Draft

def BuildFrame.ensureInitialized (n : RawNode Text) (frame : BuildFrame) : Except Fault BuildFrame :=
  if frame.initialized then .ok frame
  else
    match Draft.start n with
    | .error fault => .error fault
    | .ok draft => .ok { frame with initialized := true, draft := draft }

abbrev BuildPass := Pass (List BuildFrame) (Except Fault Message)

/-- The end of a frame that was popped: the message is the result, or goes to the frame below. -/
def deliver (tree : RawTree Text) (slot : Option ParentSlot) (finished : Message) : List BuildFrame → BuildPass
  | [] => .leave (.ok finished)
  | parent :: rest =>
      match tree.nodes[parent.node]? with
      | none => .leave (.error .outOfRange)
      | some n =>
          match slot with
          | none => .leave (.error .assertion)
          | some slot =>
              match parent.draft.receive n.type slot finished with
              | .error fault => .leave (.error fault)
              | .ok draft => .again ({ parent with draft := draft } :: rest)

/-- One child, one attribute, or the end of the frame. -/
def drive (tree : RawTree Text) (n : RawNode Text) (frame : BuildFrame) (below : List BuildFrame) : BuildPass :=
  if frame.nextChild < n.childCount then
    match tree.links[u32 (n.firstChild + frame.nextChild)]? with
    | none => .leave (.error .outOfRange)
    | some childIdx =>
        .again ({ node := childIdx, parent := some ⟨.child, frame.nextChild⟩ } ::
          { frame with nextChild := frame.nextChild + 1 } :: below)
  else if frame.nextAttr < n.attrCount then
    match tree.links[u32 (n.firstAttr + frame.nextAttr)]? with
    | none => .leave (.error .outOfRange)
    | some attrIdx =>
        .again ({ node := attrIdx, parent := some ⟨.attribute, frame.nextAttr⟩ } ::
          { frame with nextAttr := frame.nextAttr + 1 } :: below)
  else
    match frame.draft.finish n with
    | .error fault => .leave (.error fault)
    | .ok finished => deliver tree frame.parent finished below

def buildPass (tree : RawTree Text) : List BuildFrame → BuildPass
  | [] => .leave (.error .unreachable)
  | frame :: below =>
      match tree.nodes[frame.node]? with
      | none => .leave (.error .outOfRange)
      | some n =>
          match frame.ensureInitialized n with
          | .error fault => .leave (.error fault)
          | .ok frame => drive tree n frame below

/-- `build_message` in at most `fuel` passes. -/
def build (fuel : Nat) (tree : RawTree Text) (root : Nat) : Option (Except Fault Message) :=
  iterate (buildPass tree) fuel [{ node := root }]

/-! What the loop makes of a node, given what it makes of the nodes in its windows. -/

section Specification

variable {tree : RawTree Text}

/-- From a new frame for the node the loop gets to where its message is delivered. -/
def Yields (tree : RawTree Text) (node : Nat) (message : Message) : Prop :=
  ∀ (slot : Option ParentSlot) (below : List BuildFrame),
    Leads (buildPass tree) ({ node := node, parent := slot } :: below) (deliver tree slot message below)

theorem Yields.build {root : Nat} {message : Message} (yields : Yields tree root message) :
    ∃ fuel, build fuel tree root = some (.ok message) := (yields none []).iterate

/-- Messages received one after another in slots of one kind. -/
def Draft.receiveAll (type : Kind) (kind : ParentSlotKind) : Nat → List Message → Draft → Except Fault Draft
  | _, [], draft => .ok draft
  | index, message :: rest, draft =>
      match draft.receive type ⟨kind, index⟩ message with
      | .error fault => .error fault
      | .ok draft => receiveAll type kind (index + 1) rest draft

theorem buildPass_initialized (frame : BuildFrame) {n : RawNode Text} (found : tree.nodes[frame.node]? = some n)
    (ready : frame.initialized = true) (below : List BuildFrame) :
    buildPass tree (frame :: below) = drive tree n frame below := by
  simp only [buildPass, found, BuildFrame.ensureInitialized, ready, if_true]

/-- A message that is delivered to a frame for a known node is received by its draft. -/
theorem deliver_received {parent : BuildFrame} {n : RawNode Text} {slot : ParentSlot} {message : Message}
    {draft : Draft} (found : tree.nodes[parent.node]? = some n)
    (received : parent.draft.receive n.type slot message = .ok draft) (rest : List BuildFrame) :
    deliver tree (some slot) message (parent :: rest) = .again ({ parent with draft := draft } :: rest) := by
  simp only [deliver, found, received]

/-- The indices in the part of a window that is still to be visited, with their messages. -/
def Window (tree : RawTree Text) (first : Nat) : Nat → List Message → Prop
  | _, [] => True
  | next, message :: rest =>
      (∃ node, tree.links[u32 (first + next)]? = some node ∧ Yields tree node message) ∧
        Window tree first (next + 1) rest

theorem reaches_children {n : RawNode Text} {messages : List Message} (frame : BuildFrame) {draft : Draft}
    (found : tree.nodes[frame.node]? = some n) (ready : frame.initialized = true)
    (count : frame.nextChild + messages.length = n.childCount)
    (window : Window tree n.firstChild frame.nextChild messages)
    (received : frame.draft.receiveAll n.type .child frame.nextChild messages = .ok draft)
    (below : List BuildFrame) :
    Reaches (buildPass tree) (frame :: below) ({ frame with nextChild := n.childCount, draft := draft } :: below) := by
  induction messages generalizing frame with
  | nil =>
    cases received
    rw [← count]
    exact .refl _
  | cons message rest ih =>
    obtain ⟨⟨node, linked, yields⟩, later⟩ := window
    rw [List.length_cons] at count
    have pushed : buildPass tree (frame :: below) =
        .again ({ node := node, parent := some ⟨.child, frame.nextChild⟩ } ::
          { frame with nextChild := frame.nextChild + 1 } :: below) := by
      rw [buildPass_initialized frame found ready, drive, if_pos (by omega)]
      simp only [linked]
    simp only [Draft.receiveAll] at received
    split at received
    · cases received
    · rename_i draft' here
      have arrives := yields (some ⟨.child, frame.nextChild⟩) ({ frame with nextChild := frame.nextChild + 1 } :: below)
      rw [deliver_received (by exact found) (by exact here)] at arrives
      refine .again pushed (arrives.reaches.trans ?_)
      exact ih _ found ready (by dsimp only; omega) later received

theorem reaches_attributes {n : RawNode Text} {messages : List Message} (frame : BuildFrame) {draft : Draft}
    (found : tree.nodes[frame.node]? = some n) (ready : frame.initialized = true)
    (children : ¬ frame.nextChild < n.childCount) (count : frame.nextAttr + messages.length = n.attrCount)
    (window : Window tree n.firstAttr frame.nextAttr messages)
    (received : frame.draft.receiveAll n.type .attribute frame.nextAttr messages = .ok draft)
    (below : List BuildFrame) :
    Reaches (buildPass tree) (frame :: below) ({ frame with nextAttr := n.attrCount, draft := draft } :: below) := by
  induction messages generalizing frame with
  | nil =>
    cases received
    rw [← count]
    exact .refl _
  | cons message rest ih =>
    obtain ⟨⟨node, linked, yields⟩, later⟩ := window
    rw [List.length_cons] at count
    have pushed : buildPass tree (frame :: below) =
        .again ({ node := node, parent := some ⟨.attribute, frame.nextAttr⟩ } ::
          { frame with nextAttr := frame.nextAttr + 1 } :: below) := by
      rw [buildPass_initialized frame found ready, drive, if_neg children, if_pos (by omega)]
      simp only [linked]
    simp only [Draft.receiveAll] at received
    split at received
    · cases received
    · rename_i draft' here
      have arrives :=
        yields (some ⟨.attribute, frame.nextAttr⟩) ({ frame with nextAttr := frame.nextAttr + 1 } :: below)
      rw [deliver_received (by exact found) (by exact here)] at arrives
      refine .again pushed (arrives.reaches.trans ?_)
      exact ih _ found ready children (by dsimp only; omega) later received

/-- The message of a node is its draft after all children and attributes in its windows. -/
theorem yields_node {node : Nat} {n : RawNode Text} (children attrs : List Message) {started full whole : Draft}
    {message : Message} (found : tree.nodes[node]? = some n) (start : Draft.start n = .ok started)
    (childCount : children.length = n.childCount) (childWindow : Window tree n.firstChild 0 children)
    (childDraft : started.receiveAll n.type .child 0 children = .ok full)
    (attrCount : attrs.length = n.attrCount) (attrWindow : Window tree n.firstAttr 0 attrs)
    (attrDraft : full.receiveAll n.type .attribute 0 attrs = .ok whole)
    (finished : whole.finish n = .ok message) : Yields tree node message := by
  intro slot below
  let frame : BuildFrame := { node := node, initialized := true, parent := slot, draft := started }
  let last : BuildFrame := { frame with nextChild := n.childCount, nextAttr := n.attrCount, draft := whole }
  have first : buildPass tree ({ node := node, parent := slot } :: below) = buildPass tree (frame :: below) := by
    rw [buildPass_initialized frame found rfl]
    simp only [buildPass, found, BuildFrame.ensureInitialized, start]
    rfl
  have reaches : Reaches (buildPass tree) (frame :: below) (last :: below) := by
    refine (reaches_children frame found rfl ?_ childWindow childDraft below).trans ?_
    · exact (Nat.zero_add _).trans childCount
    · exact reaches_attributes _ found rfl (Nat.lt_irrefl _) ((Nat.zero_add _).trans attrCount) attrWindow attrDraft
        below
  have ends : buildPass tree (last :: below) = deliver tree slot message below := by
    rw [buildPass_initialized last found rfl, drive, if_neg (Nat.lt_irrefl _), if_neg (Nat.lt_irrefl _)]
    simp only [last, finished]
    rfl
  exact .congr first (.after reaches (.now ends))

theorem yields_bare {node : Nat} {n : RawNode Text} (children : List Message) {started full : Draft}
    (found : tree.nodes[node]? = some n) (start : Draft.start n = .ok started) (bare : n.attrCount = 0)
    (count : children.length = n.childCount) (window : Window tree n.firstChild 0 children)
    (received : started.receiveAll n.type .child 0 children = .ok full) : Yields tree node full.result := by
  refine yields_node children [] found start count window received bare.symm trivial rfl ?_
  rw [Draft.finish, bare, if_neg (Nat.lt_irrefl 0)]

end Specification

end Rediscoro.Resp3

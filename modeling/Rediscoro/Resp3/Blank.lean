import Rediscoro.Resp3.Builder
import Rediscoro.Resp3.ZeroCopy

/-! Messages with their texts blanked out.

`build_message` copies the texts of the nodes and decides nothing by them, but for the
assertion on the colon of a verbatim string. So the message of a tree is, up to its texts,
the message of any other tree with the same nodes and links. That is what is left of a
message when the storage that its texts were in is gone.
-/

set_option autoImplicit false

namespace Rediscoro.Resp3

open Rediscoro.Semantics

/-- A text of which nothing is known. A verbatim string has its colon. -/
def blankText (kind : Kind) (_ : Text) : Text := if kind = .verbatimString then [0, 0, 0, 58] else []

def RawTree.blank (tree : RawTree Text) : RawTree Text := tree.map blankText

def Scalar.blank : Scalar → Scalar
  | .simpleString _ => .simpleString []
  | .simpleError _ => .simpleError []
  | .integer value => .integer value
  | .doubleNumber value => .doubleNumber value
  | .boolean value => .boolean value
  | .bigNumber _ => .bigNumber []
  | .null source => .null source
  | .bulkString _ => .bulkString []
  | .bulkError _ => .bulkError []
  | .verbatimString _ _ => .verbatimString [0, 0, 0] []

namespace Message

mutual

def blank : Message → Message
  | .scalar value attrs => .scalar value.blank (blankAttrs attrs)
  | .sequence kind elements attrs => .sequence kind (blankAll elements) (blankAttrs attrs)
  | .map entries attrs => .map (blankEntries entries) (blankAttrs attrs)

def blankAll : List Message → List Message
  | [] => []
  | element :: rest => element.blank :: blankAll rest

def blankEntries : List (Message × Message) → List (Message × Message)
  | [] => []
  | (key, value) :: rest => (key.blank, value.blank) :: blankEntries rest

def blankAttrs : Option (List (Message × Message)) → Option (List (Message × Message))
  | none => none
  | some entries => some (blankEntries entries)

end

theorem blankAll_append (first second : List Message) :
    blankAll (first ++ second) = blankAll first ++ blankAll second := by
  induction first with
  | nil => rfl
  | cons element rest ih => simp only [List.cons_append, blankAll, ih]

theorem blankEntries_append (first second : List (Message × Message)) :
    blankEntries (first ++ second) = blankEntries first ++ blankEntries second := by
  induction first with
  | nil => rfl
  | cons entry rest ih => simp only [List.cons_append, blankEntries, ih]

theorem blank_pushElement (message : Message) (kind : Kind) (element : Message) :
    message.blank.pushElement kind element.blank = (message.pushElement kind element).map blank := by
  cases message with
  | sequence own elements attrs =>
    simp only [blank, pushElement]
    split
    · simp only [Option.map_some, blank, blankAll_append, blankAll]
    · rfl
  | _ => simp only [blank, pushElement, Option.map_none]

theorem blank_pushEntry (message key value : Message) :
    message.blank.pushEntry key.blank value.blank = (message.pushEntry key value).map blank := by
  cases message with
  | map entries attrs => simp only [blank, pushEntry, Option.map_some, blankEntries_append, blankEntries]
  | _ => simp only [blank, pushEntry, Option.map_none]

theorem blank_withAttrs (message : Message) (attrs : List (Message × Message)) :
    message.blank.withAttrs (blankEntries attrs) = (message.withAttrs attrs).blank := by
  cases message <;> simp only [blank, withAttrs, blankAttrs]

end Message

/-! The nodes that `build_message` can start a message for. -/

/-- The message of the node can be started. -/
def RawNode.Legible (node : RawNode Text) : Prop := ∃ message, initialMessage node = .ok message

theorem initialMessage_blank {node : RawNode Text} {message : Message} (initial : initialMessage node = .ok message) :
    initialMessage (node.map blankText) = .ok message.blank := by
  have type : (node.map blankText).type = node.type := rfl
  have i64 : (node.map blankText).i64 = node.i64 := rfl
  unfold initialMessage at initial ⊢
  rw [type, i64]
  by_cases block : node.type = .attribute
  · rw [if_pos block] at initial
    cases initial
  rw [if_neg block] at initial ⊢
  by_cases null : node.type = .null
  · rw [if_pos null] at initial ⊢
    cases initial
    rfl
  rw [if_neg null] at initial ⊢
  by_cases typed : node.i64 = -1 ∧ isTypedNullKind node.type = true
  · rw [if_pos typed] at initial ⊢
    cases initial
    rfl
  rw [if_neg typed] at initial ⊢
  dsimp only [RawNode.map]
  cases kind : node.type with
  | verbatimString =>
    -- the only text that is looked at; blanked, it still has its colon
    rw [kind] at initial
    dsimp only [decodeVerbatim] at initial
    split at initial
    · cases initial
      rfl
    · cases initial
  | null => exact absurd kind null
  | «attribute» => exact absurd kind block
  | _ =>
    rw [kind] at initial
    cases initial
    rfl

/-- A node stays legible whatever becomes of its text, unless it is a verbatim string. -/
theorem legible_map {τ : Type} {node : RawNode τ} {f g : Kind → τ → Text} (legible : (node.map f).Legible)
    (verbatim : node.type = .verbatimString → isValidVerbatimPayload (f node.type node.text) = true →
      isValidVerbatimPayload (g node.type node.text) = true) : (node.map g).Legible := by
  obtain ⟨message, initial⟩ := legible
  have type (h : Kind → τ → Text) : (node.map h).type = node.type := rfl
  have i64 (h : Kind → τ → Text) : (node.map h).i64 = node.i64 := rfl
  unfold RawNode.Legible
  unfold initialMessage at initial ⊢
  rw [type, i64] at initial ⊢
  by_cases block : node.type = .attribute
  · rw [if_pos block] at initial
    cases initial
  rw [if_neg block] at initial ⊢
  by_cases null : node.type = .null
  · rw [if_pos null]
    exact ⟨_, rfl⟩
  rw [if_neg null] at initial ⊢
  by_cases typed : node.i64 = -1 ∧ isTypedNullKind node.type = true
  · rw [if_pos typed]
    exact ⟨_, rfl⟩
  rw [if_neg typed] at initial ⊢
  dsimp only [RawNode.map] at initial ⊢
  cases kind : node.type with
  | verbatimString =>
    -- here the text decides whether there is a message
    rw [kind] at initial verbatim
    dsimp only [decodeVerbatim] at initial ⊢
    split at initial
    · rename_i valid
      simp only [verbatim rfl valid, if_true]
      exact ⟨_, rfl⟩
    · cases initial
  | null => exact absurd kind null
  | «attribute» => exact absurd kind block
  | _ => exact ⟨_, rfl⟩

/-! The loop. -/

namespace Draft

def blank (draft : Draft) : Draft :=
  { result := draft.result.blank
    pendingMapKey := draft.pendingMapKey.map Message.blank
    pendingAttrKey := draft.pendingAttrKey.map Message.blank
    attrs := Message.blankEntries draft.attrs }

theorem blank_start {node : RawNode Text} (legible : node.Legible) :
    start (node.map blankText) = (start node).map blank := by
  obtain ⟨message, initial⟩ := legible
  simp only [start, initialMessage_blank initial, initial]
  rw [show (node.map blankText).attrCount = node.attrCount from rfl,
    show (node.map blankText).type = node.type from rfl,
    show (node.map blankText).childCount = node.childCount from rfl]
  split
  · rfl
  · split
    · rfl
    · rfl

theorem blank_receiveChild (type : Kind) (index : Nat) (finished : Message) (draft : Draft) :
    draft.blank.receiveChild type index finished.blank = (draft.receiveChild type index finished).map blank := by
  cases type with
  | array | set | push =>
    simp only [receiveChild]
    rw [show draft.blank.result = draft.result.blank from rfl, Message.blank_pushElement]
    generalize draft.result.pushElement _ finished = pushed
    cases pushed <;> rfl
  | map =>
    simp only [receiveChild]
    split
    · rfl
    · rw [show draft.blank.pendingMapKey = draft.pendingMapKey.map Message.blank from rfl]
      cases draft.pendingMapKey with
      | none => rfl
      | some key =>
        simp only [Option.map_some]
        rw [show draft.blank.result = draft.result.blank from rfl, Message.blank_pushEntry]
        cases draft.result.pushEntry key finished <;> rfl
  | _ => rfl

theorem blank_receiveAttr (index : Nat) (finished : Message) (draft : Draft) :
    draft.blank.receiveAttr index finished.blank = (draft.receiveAttr index finished).map blank := by
  simp only [receiveAttr]
  split
  · rfl
  · rw [show draft.blank.pendingAttrKey = draft.pendingAttrKey.map Message.blank from rfl]
    cases draft.pendingAttrKey with
    | none => rfl
    | some key =>
      simp only [Option.map_some, Except.map, blank, Message.blankEntries_append, Message.blankEntries]
      rfl

theorem blank_receive (type : Kind) (slot : ParentSlot) (finished : Message) (draft : Draft) :
    draft.blank.receive type slot finished.blank = (draft.receive type slot finished).map blank := by
  unfold receive
  split
  · exact blank_receiveChild ..
  · exact blank_receiveAttr ..

theorem blank_finish (node : RawNode Text) (draft : Draft) :
    draft.blank.finish (node.map blankText) = (draft.finish node).map Message.blank := by
  have key : draft.blank.pendingAttrKey.isSome = draft.pendingAttrKey.isSome := Option.isSome_map
  simp only [finish, key]
  rw [show (node.map blankText).attrCount = node.attrCount from rfl]
  split
  · split
    · rfl
    · exact congrArg Except.ok (Message.blank_withAttrs ..)
  · rfl

end Draft

def BuildFrame.blank (frame : BuildFrame) : BuildFrame := { frame with draft := frame.draft.blank }

theorem blank_ensureInitialized {node : RawNode Text} (legible : node.Legible) (frame : BuildFrame) :
    frame.blank.ensureInitialized (node.map blankText) = (frame.ensureInitialized node).map BuildFrame.blank := by
  simp only [BuildFrame.ensureInitialized, Draft.blank_start legible]
  rw [show frame.blank.initialized = frame.initialized from rfl]
  split
  · rfl
  · cases Draft.start node <;> rfl

section Passes

variable {tree : RawTree Text}

theorem nodes_blank (index : Nat) : tree.blank.nodes[index]? = (tree.nodes[index]?).map (·.map blankText) :=
  List.getElem?_map

/-- The pass over the blanked tree and the blanked frames. -/
def BuildPass.blank : BuildPass → BuildPass := Pass.map (List.map BuildFrame.blank) (Except.map Message.blank)

theorem deliver_blank (slot : Option ParentSlot) (finished : Message) (below : List BuildFrame) :
    deliver tree.blank slot finished.blank (below.map BuildFrame.blank) =
      BuildPass.blank (deliver tree slot finished below) := by
  cases below with
  | nil => rfl
  | cons parent rest =>
    simp only [List.map_cons, deliver]
    rw [show parent.blank.node = parent.node from rfl, nodes_blank]
    cases tree.nodes[parent.node]? with
    | none => rfl
    | some node =>
      cases slot with
      | none => rfl
      | some slot =>
        simp only [Option.map_some]
        rw [show parent.blank.draft = parent.draft.blank from rfl, show (node.map blankText).type = node.type from rfl,
          Draft.blank_receive]
        cases parent.draft.receive node.type slot finished <;> rfl

theorem drive_blank (node : RawNode Text) (frame : BuildFrame) (below : List BuildFrame) :
    drive tree.blank (node.map blankText) frame.blank (below.map BuildFrame.blank) =
      BuildPass.blank (drive tree node frame below) := by
  unfold drive
  -- where the pass goes is told by links and counts, and these are the same
  rw [show frame.blank.nextChild = frame.nextChild from rfl, show frame.blank.nextAttr = frame.nextAttr from rfl,
    show frame.blank.draft = frame.draft.blank from rfl, Draft.blank_finish,
    show (node.map blankText).childCount = node.childCount from rfl,
    show (node.map blankText).attrCount = node.attrCount from rfl,
    show (node.map blankText).firstChild = node.firstChild from rfl,
    show (node.map blankText).firstAttr = node.firstAttr from rfl, show tree.blank.links = tree.links from rfl]
  by_cases children : frame.nextChild < node.childCount
  · rw [if_pos children, if_pos children]
    cases tree.links[u32 (node.firstChild + frame.nextChild)]? <;> rfl
  rw [if_neg children, if_neg children]
  by_cases attrs : frame.nextAttr < node.attrCount
  · rw [if_pos attrs, if_pos attrs]
    cases tree.links[u32 (node.firstAttr + frame.nextAttr)]? <;> rfl
  rw [if_neg attrs, if_neg attrs]
  cases frame.draft.finish node with
  | error fault => rfl
  | ok finished => exact deliver_blank ..

theorem buildPass_blank (legible : ∀ node ∈ tree.nodes, node.Legible) (frames : List BuildFrame) :
    buildPass tree.blank (frames.map BuildFrame.blank) = BuildPass.blank (buildPass tree frames) := by
  cases frames with
  | nil => rfl
  | cons frame below =>
    simp only [List.map_cons, buildPass]
    rw [show frame.blank.node = frame.node from rfl, nodes_blank]
    cases found : tree.nodes[frame.node]? with
    | none => rfl
    | some node =>
      simp only [Option.map_some]
      rw [blank_ensureInitialized (legible node (List.mem_of_getElem? found))]
      cases frame.ensureInitialized node with
      | error fault => rfl
      | ok frame => exact drive_blank ..

/-- Up to its texts the message of a tree does not depend on them. -/
theorem build_blank (legible : ∀ node ∈ tree.nodes, node.Legible) (fuel root : Nat) :
    build fuel tree.blank root = (build fuel tree root).map (Except.map Message.blank) :=
  iterate_map (f := List.map BuildFrame.blank) (buildPass_blank legible) fuel [{ node := root }]

end Passes

/-- What is found in storage that is gone does not show in the blanked tree. -/
theorem Parser.blank_contents (p : Parser Buffer View) (memory later : Memory) :
    (p.contents memory).blank = (p.contents later).blank := by
  simp only [contents, RawTree.blank, RawTree.map, List.map_map]
  rfl

end Rediscoro.Resp3

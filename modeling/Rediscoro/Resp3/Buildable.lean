import Rediscoro.Resp3.Blank
import Rediscoro.Resp3.Frames
import Rediscoro.Resp3.RoundTrip
import Rediscoro.Resp3.Session

/-! Every tree the parser returns can be built.

The windows of a completed node name nodes completed before it, so `build_message`
comes to an end, by induction along the order of completion. What is left to ask of
a node is that its own message can be started, which only the colon of a verbatim string
can prevent: it is there when the parser makes the node, and has to be found again when
the message is built.
-/

set_option autoImplicit false

namespace Rediscoro.Resp3

open Rediscoro.Semantics

/-! The value of a message stays what its node started it as. -/

/-- A message without its elements and attributes. -/
def Message.bare : Message → Message
  | .scalar value _ => .scalar value none
  | .sequence kind _ _ => .sequence kind [] none
  | .map _ _ => .map [] none

theorem initialMessage_bare {node : RawNode Text} {message : Message} (initial : initialMessage node = .ok message) :
    message.bare = message := by
  unfold initialMessage at initial
  split at initial
  · cases initial
  split at initial
  · cases initial; rfl
  split at initial
  · cases initial; rfl
  split at initial
  case h_9 =>
    unfold decodeVerbatim at initial
    split at initial
    · cases initial; rfl
    · cases initial
  all_goals cases initial
  all_goals rfl

namespace Draft

variable {type : Kind} {draft next : Draft} {message : Message}

theorem bare_receive {slot : ParentSlot} (received : draft.receive type slot message = .ok next) :
    next.result.bare = draft.result.bare := by
  -- Elements and entries are put into the message, and attributes beside it.
  have pushed {result : Message} {kind : Kind} (pushed : draft.result.pushElement kind message = some result) :
      result.bare = draft.result.bare := by
    unfold Message.pushElement at pushed
    split at pushed
    · rename_i shape
      split at pushed
      · cases pushed
        rw [shape]
        rfl
      · cases pushed
    · cases pushed
  have entered {result key : Message} (entered : draft.result.pushEntry key message = some result) :
      result.bare = draft.result.bare := by
    unfold Message.pushEntry at entered
    split at entered
    · rename_i shape
      cases entered
      rw [shape]
      rfl
    · cases entered
  unfold receive at received
  split at received
  · unfold receiveChild at received
    split at received
    case h_5 => cases received
    case h_4 =>
      split at received
      · cases received; rfl
      · split at received
        · cases received
        · split at received
          · cases received
          · cases received
            exact entered ‹_›
    all_goals
      split at received
      · cases received
      · cases received
        exact pushed ‹_›
  · unfold receiveAttr at received
    split at received
    · cases received; rfl
    · split at received
      · cases received
      · cases received; rfl

theorem bare_receiveAll {kind : ParentSlotKind} {messages : List Message} {index : Nat}
    (received : draft.receiveAll type kind index messages = .ok next) : next.result.bare = draft.result.bare := by
  induction messages generalizing draft index with
  | nil => cases received; rfl
  | cons message rest ih =>
    rw [receiveAll] at received
    split at received
    · cases received
    · rename_i middle here
      exact (ih received).trans (bare_receive here)

theorem bare_finish {node : RawNode Text} (finished : draft.finish node = .ok message) :
    message.bare = draft.result.bare := by
  unfold finish at finished
  split at finished
  · split at finished
    · cases finished
    · cases finished
      cases draft.result <;> rfl
  · cases finished
    rfl

end Draft

/-! The builder on completed nodes. -/

section Building

variable {tree : RawTree Text}

theorem window_exists {first count : Nat} (small : tree.links.length ≤ 2 ^ 32)
    (each : ∀ i < count, ∃ target message, tree.links[first + i]? = some target ∧ Yields tree target message)
    (left next : Nat) (total : next + left = count) :
    ∃ messages : List Message, messages.length = left ∧ Window tree first next messages := by
  induction left generalizing next with
  | zero => exact ⟨[], rfl, trivial⟩
  | succ left ih =>
    obtain ⟨target, message, linked, yields⟩ := each next (by omega)
    obtain ⟨rest, length, window⟩ := ih (next + 1) (by omega)
    have bound := (List.getElem?_eq_some_iff.mp linked).1
    refine ⟨message :: rest, congrArg Nat.succ length, ⟨target, ?_, yields⟩, window⟩
    rw [u32_of_lt (by omega)]
    exact linked

theorem receiveAll_attributes (type : Kind) : ∀ (messages : List Message) (index : Nat) (draft : Draft),
    index % 2 = 0 → messages.length % 2 = 0 → draft.pendingAttrKey = none →
    ∃ full, Draft.receiveAll type .attribute index messages draft = .ok full ∧ full.pendingAttrKey = none
  | [], _, draft, _, _, free => ⟨draft, rfl, free⟩
  | [_], _, _, _, even, _ => by simp at even
  | key :: value :: rest, index, draft, slot, even, _ => by
    obtain ⟨full, received, free⟩ := receiveAll_attributes type rest (index + 2)
      { draft with attrs := draft.attrs ++ [(key, value)], pendingAttrKey := none } (by omega)
      (by simp only [List.length_cons] at even; omega) rfl
    refine ⟨full, ?_, free⟩
    simp only [Draft.receiveAll, Draft.receive, Draft.receiveAttr, slot, if_true,
      show ¬ (index + 1) % 2 = 0 by omega, if_false]
    exact received

section Node

variable {node : RawNode Text} {message : Message} (regular : node.Regular)
  (initial : initialMessage node = .ok message)

include regular initial

theorem start_regular : Draft.start node = .ok { result := message } := by
  simp only [Draft.start, initial]
  rw [if_neg fun odd => odd.2 regular.attributes, if_neg fun odd => odd.2 (regular.entries odd.1)]

/-- A node with children is a container, and takes them all. -/
theorem receiveAll_children {children : List Message} (count : children.length = node.childCount) :
    ∃ full, Draft.receiveAll node.type .child 0 children { result := message } = .ok full ∧
      full.pendingAttrKey = none := by
  by_cases childless : node.childCount = 0
  · obtain rfl := List.eq_nil_of_length_eq_zero (count.trans childless)
    exact ⟨_, rfl, rfl⟩
  obtain ⟨aggregate, length⟩ := regular.parent childless
  have sequence (own : SequenceKind) (kind : node.type = own.kind) :
      ∃ full, Draft.receiveAll node.type .child 0 children { result := message } = .ok full ∧
        full.pendingAttrKey = none := by
    have empty : initialMessage node = .ok (.sequence own [] none) := by
      cases own <;> simp [initialMessage, kind, SequenceKind.kind, length]
    rw [empty] at initial
    cases initial
    rw [kind, receiveAll_sequence]
    exact ⟨_, rfl, rfl⟩
  cases kind : node.type with
  | array => exact kind ▸ sequence .array kind
  | set => exact kind ▸ sequence .set kind
  | push => exact kind ▸ sequence .push kind
  | map =>
    have empty : initialMessage node = .ok (.map [] none) := by simp [initialMessage, kind, length]
    rw [empty] at initial
    cases initial
    rw [receiveAll_map children 0 [] rfl (count ▸ regular.entries kind)]
    exact ⟨_, rfl, rfl⟩
  | _ => rw [kind] at aggregate; cases aggregate

end Node

/-- The order of completion is one in which the builder can visit the nodes. -/
theorem yields_completed {done : List Nat} (completed : Completed tree done) (small : tree.links.length ≤ 2 ^ 32)
    (legible : ∀ node ∈ tree.nodes, node.Legible) :
    ∀ index ∈ done, ∃ message, Yields tree index message ∧
      ∃ node, tree.nodes[index]? = some node ∧ initialMessage node = .ok message.bare := by
  induction completed with
  | nil => exact nofun
  | @cons index earlier node found whole rest ih =>
    rw [List.forall_mem_cons]
    refine ⟨?_, ih⟩
    -- Children and attributes were completed before the node itself, so their messages are there.
    have visited {first count : Nat} (lists : Lists tree.links first count earlier) :
        ∃ messages : List Message, messages.length = count ∧ Window tree first 0 messages := by
      apply window_exists small _ count 0 (Nat.zero_add _)
      intro i less
      obtain ⟨target, known, linked⟩ := lists i less
      obtain ⟨message, yields, -⟩ := ih target known
      exact ⟨target, message, linked, yields⟩
    obtain ⟨children, childCount, childWindow⟩ := visited whole.children
    obtain ⟨attrs, attrCount, attrWindow⟩ := visited whole.attributes
    obtain ⟨message, initial⟩ := legible node (List.mem_of_getElem? found)
    obtain ⟨full, childDraft, free⟩ := receiveAll_children whole.regular initial childCount
    obtain ⟨ended, attrDraft, free'⟩ := receiveAll_attributes node.type attrs 0 full rfl
      (attrCount ▸ whole.regular.attributes) free
    have finished : ∃ message, ended.finish node = .ok message := by
      rw [Draft.finish, free']
      split
      · exact ⟨_, rfl⟩
      · exact ⟨_, rfl⟩
    obtain ⟨result, finished⟩ := finished
    have bare : result.bare = message := by
      rw [Draft.bare_finish finished, Draft.bare_receiveAll attrDraft, Draft.bare_receiveAll childDraft]
      exact initialMessage_bare initial
    exact ⟨result, yields_node children attrs found (start_regular whole.regular initial) childCount childWindow
      childDraft attrCount attrWindow attrDraft finished, node, found, bare ▸ initial⟩

end Building

/-! The parser makes legible nodes only. -/

theorem initialMessage_core (node : RawNode Text) : initialMessage node.core = initialMessage node := rfl

theorem legible_cores {nodes nodes' : List (RawNode Text)} (same : nodes'.map RawNode.core = nodes.map RawNode.core)
    (legible : ∀ node ∈ nodes, node.Legible) : ∀ node ∈ nodes', node.Legible := by
  intro node member
  have inside : node.core ∈ nodes.map RawNode.core := same ▸ List.mem_map_of_mem member
  obtain ⟨other, found, equal⟩ := List.mem_map.mp inside
  obtain ⟨message, initial⟩ := legible other found
  refine ⟨message, ?_⟩
  rw [← initialMessage_core, ← equal, initialMessage_core]
  exact initial

theorem cores_pushNode {τ : Type} (a : Assembly τ) (node : RawNode τ) :
    (a.pushNode node).tree.nodes.map RawNode.core = (a.tree.nodes ++ [node]).map RawNode.core := by
  unfold Assembly.pushNode Assembly.attachPending
  split
  · rfl
  · apply List.ext_getElem?
    intro position
    simp only [RawTree.push, RawTree.update, List.getElem?_map, List.getElem?_modify]
    cases (a.tree.nodes ++ [node])[position]? with
    | none => rfl
    | some found =>
      by_cases here : a.tree.nextIndex = position
      · simp [here, RawNode.core]
      · simp [here]

namespace Parser

theorem cores_proceed {β τ : Type} (valued : Except Stop (Option StepIndex) × Parser β τ) :
    (after (proceed valued)).tree.nodes.map RawNode.core = valued.2.tree.nodes.map RawNode.core := by
  have failed (p : Parser β τ) (stop : Stop) : (p.fail stop).2.tree = p.tree := by
    cases stop <;> rfl
  rcases valued with ⟨stop | _ | _ | index, p⟩
  case ok.some.produced =>
    have attached := attachToParent_cores p index p.stack.tail
    simp only [proceed]
    generalize p.attachToParent index p.stack.tail = settled at attached ⊢
    rcases settled with ⟨stop | _ | root, q⟩
    · exact (congrArg (fun tree => tree.nodes.map RawNode.core) (failed q stop)).trans attached
    · exact attached
    · exact attached
  case error => exact congrArg (fun tree => tree.nodes.map RawNode.core) (failed p stop)
  all_goals rfl

def Legible (p : Parser Bytes Text) : Prop := ∀ node ∈ p.tree.nodes, node.Legible

theorem pushNode_legible {a : Assembly Text} {node : RawNode Text} (legible : ∀ other ∈ a.tree.nodes, other.Legible)
    (new : node.Legible) : ∀ other ∈ (a.pushNode node).tree.nodes, other.Legible := by
  apply legible_cores (cores_pushNode a node)
  rw [List.forall_mem_append, List.forall_mem_singleton]
  exact ⟨legible, new⟩

theorem headerNode_legible {kind : Kind} (aggregate : kind.isAggregate = true) (len nextLink : Nat) :
    (headerNode kind len nextLink).Legible := by
  have length : (len : Int) ≠ -1 := by omega
  cases kind with
  | array | set | push | map =>
    exact ⟨_, by simp only [initialMessage, headerNode, containerNode, RawNode.map, length]; rfl⟩
  | _ => cases aggregate

variable [FloatChars]

theorem perform_legible {p : Parser Bytes Text} (legible : p.Legible) (short : p.data.length < 2 ^ 32) :
    (p.perform (nextToken p.limits p.data)).2.Legible := by
  have spelled := nextToken_spells p.limits p.data
  generalize nextToken p.limits p.data = token at spelled ⊢
  cases token with
  | more | bad error used | attributes n used => exact legible
  | container kind n used =>
    obtain ⟨numeral, aggregate, -, -, -, -⟩ := spelled
    have new : ((containerNode kind n p.tree.nextLink).map (Source.text p.input)).Legible := by
      rw [headerNode_map]
      exact headerNode_legible aggregate _ _
    simp only [perform]
    split
    · exact pushNode_legible legible new
    · exact pushNode_legible legible new
  | leaf node used =>
    obtain ⟨leaf, formed, taken, -, rfl⟩ := spelled
    have small : leaf.encode.length ≤ Buffer.sizeMax := by
      have whole := congrArg List.length taken
      rw [List.length_append] at whole
      rw [Buffer.sizeMax]
      omega
    have node : leaf.node.map (Source.text p.input) = leaf.rawNode := by
      rw [show p.input = leaf.encode ++ p.data.drop used from taken.symm]
      exact rawNode_map formed _ small
    simp only [perform, node]
    exact pushNode_legible legible ⟨_, initialMessage_rawNode formed⟩

theorem parsePass_legible {p : Parser Bytes Text} (legible : p.Legible) (short : p.data.length < 2 ^ 32) :
    (after p.parsePass).Legible := by
  by_cases empty : p.stack = []
  · simp only [parsePass, empty]
    exact legible
  · cases top : topsValue p.stack with
    | true =>
      rw [parsePass_value top]
      exact legible_cores (cores_proceed _) (perform_legible legible short)
    | false =>
      rw [parsePass_covered empty top]
      exact legible

theorem parseOne_legible {p : Parser Bytes Text} (legible : p.Legible) (short : p.data.length < 2 ^ 32) :
    p.parseOne.2.Legible := by
  have pass {q : Parser Bytes Text} (bounded : q.Legible ∧ q.data.length < 2 ^ 32) :
      (after q.parsePass).Legible ∧ (after q.parsePass).data.length < 2 ^ 32 :=
    ⟨parsePass_legible bounded.1 bounded.2, Nat.lt_of_le_of_lt (parsePass_shrinks q) bounded.2⟩
  unfold parseOne
  split
  · exact legible
  split
  · exact legible
  apply run_invariant parsePass_decreases (fun q : Parser Bytes Text => q.Legible ∧ q.data.length < 2 ^ 32)
    (fun result => result.2.Legible)
  · intro q next bounded again
    have kept := pass bounded
    rwa [again] at kept
  · intro q result bounded left
    have kept := pass bounded
    rw [left] at kept
    exact kept.1
  · exact ⟨legible, short⟩

/-! Trees that can be built. -/

/-- A root whose node was completed after everything its windows and theirs name, with nodes that are all legible. -/
structure Whole (root : Nat × RawTree Text) : Prop where
  completed : ∃ earlier, Completed root.2 (root.1 :: earlier)
  few : root.2.links.length ≤ 2 ^ 32
  legible : ∀ node ∈ root.2.nodes, node.Legible

omit [FloatChars] in
/-- The message of the root has the value that its node started it with. -/
theorem Whole.yields {root : Nat × RawTree Text} (whole : Whole root) : ∃ message, Yields root.2 root.1 message ∧
    ∃ node, root.2.nodes[root.1]? = some node ∧ initialMessage node = .ok message.bare := by
  obtain ⟨earlier, completed⟩ := whole.completed
  exact yields_completed completed whole.few whole.legible root.1 List.mem_cons_self

omit [FloatChars] in
/-- Other texts leave a root whole, if its nodes stay legible. -/
theorem Whole.map {τ : Type} {index : Nat} {tree : RawTree τ} {f g : Kind → τ → Text}
    (whole : Whole (index, tree.map f)) (legible : ∀ node ∈ (tree.map g).nodes, node.Legible) :
    Whole (index, tree.map g) := by
  obtain ⟨earlier, completed⟩ := whole.completed
  exact ⟨⟨earlier, completed.map⟩, whole.few, legible⟩

/-- A parser that has used no more than so many octets since it was started, in whatever state between two calls. -/
structure Regular (p : Parser Bytes Text) (load' : Nat) : Prop where
  standing : ∃ done frames, p.Standing done frames
  within : p.load ≤ load'
  legible : p.Legible

variable {p q : Parser Bytes Text} {load' : Nat}

theorem Regular.parseOne (regular : p.Regular load') (small : load' < 2 ^ 32) : p.parseOne.2.Regular load' := by
  obtain ⟨done, frames, standing⟩ := regular.standing
  have steps := parseOne_steps standing regular.within small
  have short : p.data.length < 2 ^ 32 :=
    Nat.lt_of_le_of_lt (Nat.le_add_left _ _) (Nat.lt_of_le_of_lt regular.within small)
  exact ⟨steps.2.1, steps.1, parseOne_legible regular.legible short⟩

omit [FloatChars] in
theorem Regular.reclaim (regular : p.Regular load') : p.reclaim.Regular load' := by
  refine ⟨⟨[], [], Sound.start, .inr rfl⟩, ?_, nofun⟩
  have octets : p.reclaim.data = p.data := data_reclaim p
  have within := regular.within
  rw [load] at within ⊢
  rw [octets]
  show 0 + p.data.length ≤ load'
  omega

omit [FloatChars] in
theorem Regular.append (regular : p.Regular load') (more : Bytes) : (p.append more).Regular (load' + more.length) := by
  obtain ⟨done, frames, standing⟩ := regular.standing
  refine ⟨⟨done, frames, standing.sound, standing.shape⟩, ?_, regular.legible⟩
  have within := regular.within
  rw [load] at within ⊢
  show p.tree.nodes.length + (p.input ++ more).length ≤ _
  rw [List.length_append, ← Nat.add_assoc]
  exact Nat.add_le_add_right within _

theorem Regular.root {root : Nat} (regular : p.Regular load') (small : load' < 2 ^ 32)
    (parsed : p.parseOne = (.ok (some root), q)) : Whole (root, q.tree) := by
  obtain ⟨done, frames, standing⟩ := regular.standing
  have after := regular.parseOne small
  obtain ⟨within, -, -, roots⟩ := parseOne_steps standing regular.within small
  rw [parsed] at after within roots
  obtain ⟨earlier, sound⟩ := roots root rfl
  have counted : q.tree.links.length + 0 ≤ q.tree.nodes.length := sound.counted
  have bound : q.tree.nodes.length + q.data.length ≤ load' := within
  exact ⟨⟨earlier, sound.completed⟩, by dsimp only; omega, after.legible⟩

theorem drain_whole (regular : p.Regular load') (small : load' < 2 ^ 32) :
    (∀ root ∈ p.drain.trees, Whole root) ∧ p.drain.parser.Regular load' := by
  induction p using drain_induction with
  | root p q root parsed ih =>
    have after := regular.parseOne small
    rw [parsed] at after
    obtain ⟨later, last⟩ := ih after.reclaim
    rw [drain_root parsed]
    exact ⟨List.forall_mem_cons.mpr ⟨regular.root small parsed, later⟩, last⟩
  | last p q answer parsed last =>
    have after := regular.parseOne small
    rw [parsed] at after
    rw [drain_end parsed last]
    exact ⟨nofun, after⟩

/-! The colons of verbatim strings. -/

/-- The colon of every verbatim string is found, whether or not its storage is gone. -/
def Colons (memory : Memory) (p : Parser Buffer View) : Prop :=
  ∀ node ∈ p.tree.nodes, node.type = .verbatimString → node.text.length ≠ 0 →
    node.text.storage = p.input.storage ∨ memory node.text 3 = 58

instance (memory : Memory) (p : Parser Buffer View) : Decidable (p.Colons memory) :=
  inferInstanceAs (Decidable (∀ node ∈ _, _ → _ → _ ∨ _))

omit [FloatChars] in
/-- What `decode_verbatim` asserts of a text that was one. -/
theorem valid_look {memory later : Memory} {buf : Buffer} {view : View}
    (below : view.offset + view.length ≤ buf.writePos)
    (colon : view.length ≠ 0 → view.storage = buf.storage ∨ memory view 3 = 58)
    (valid : isValidVerbatimPayload (buf.look later view) = true) :
    isValidVerbatimPayload (buf.look memory view) = true := by
  have size := buf.look_length later below
  have long : 4 ≤ view.length := by
    rw [← size]
    simp only [isValidVerbatimPayload, Bool.and_eq_true, decide_eq_true_eq] at valid
    exact valid.1
  by_cases here : view.storage = buf.storage
  · rw [Buffer.look_here here memory later]
    exact valid
  · have lost : buf.read view = none := by rw [Buffer.read, if_neg (by omega), if_neg here]
    have third := (colon (by omega)).resolve_left here
    rw [Buffer.look, lost, Option.getD_none, isValidVerbatimPayload, List.length_map, List.length_range,
      List.getElem?_map, List.getElem?_range (by omega)]
    simp [long, third]

omit [FloatChars] in
/-- What was legible with the texts that were lost, is still. -/
theorem legible_colons {memory later : Memory} {p : Parser Buffer View} (inside : p.Inside)
    (colons : p.Colons memory) (legible : ∀ node ∈ (p.contents later).nodes, node.Legible) :
    ∀ node ∈ (p.contents memory).nodes, node.Legible := by
  intro node member
  obtain ⟨raw, known, rfl⟩ := List.mem_map.mp member
  refine legible_map (legible _ (List.mem_map_of_mem known)) fun verbatim valid => ?_
  simp only [Buffer.textOf, verbatim] at valid ⊢
  exact valid_look (inside raw known).1 (colons raw known verbatim) valid

theorem drain_colons {memory : Memory} {p : Parser Buffer View} (colons : p.Colons memory) :
    p.drain.parser.Colons memory ∧ ∀ root ∈ p.drain.roots, root.parser.Colons memory := by
  refine drain_invariant (Colons memory) (fun p colons => ?_) (fun _ _ => nofun) colons
  obtain ⟨same, texts⟩ := parseOne_texts (fun buf : Buffer => buf.storage = p.input.storage)
    (fun kind (view : View) => kind = .verbatimString → view.length ≠ 0 →
      view.storage = p.input.storage ∨ memory view 3 = 58)
    (fun _ same => same) (fun _ same _ _ _ => .inl same) rfl colons
  rw [Colons, same]
  exact texts

/-- The roots of a parser that has read no more than so many octets are whole, through whatever memory they are
looked at, as long as it has their colons. -/
theorem Recalls.whole {still : Prop} {p : Parser Buffer View} {kept : Parser Bytes Text} {memory : Memory}
    (recalls : p.Recalls still kept) (inside : p.Inside) (regular : kept.Regular load') (small : load' < 2 ^ 32)
    (colons : p.Colons memory) : ∀ root ∈ p.drain.contents memory, Whole root := by
  obtain ⟨later, trees⟩ := recalls.trees.1
  have kept := (drain_whole regular small).1
  rw [← trees] at kept
  intro root member
  obtain ⟨found, listed, rfl⟩ := List.mem_map.mp member
  have whole := kept _ (List.mem_map_of_mem listed)
  have within := (drain_invariant Inside (fun _ => parseOne_inside) (fun p _ => reclaim_inside p) inside).2 found listed
  exact whole.map (legible_colons within ((drain_colons colons).2 found listed) whole.legible)

end Parser

/-! Whole sessions. -/

namespace Reader

variable [FloatChars]

/-- A read that moves the buffer finds no verbatim string among the nodes of the unfinished message. -/
def Spared (r : Reader) : Reading → Prop
  | .reset => True
  | .chunk room _ => r.status.isOk = true → r.parser.input.Grows room →
      ∀ node ∈ r.parser.tree.nodes, node.type = .verbatimString → node.text.length = 0

instance (r : Reader) (reading : Reading) : Decidable (r.Spared reading) :=
  match reading with
  | .reset => inferInstanceAs (Decidable True)
  | .chunk .. => inferInstanceAs (Decidable (_ → _ → ∀ node ∈ _, _))

/-- So many octets were read, and no verbatim string has been left behind. -/
structure Keeps (load' : Nat) (r : Reader) : Prop where
  inside : r.parser.Inside
  recalls : ∃ kept, r.parser.Recalls False kept ∧ kept.Regular load'
  colons : ∀ memory, r.parser.Colons memory
  whole : ∀ memory, ∀ root ∈ r.contents memory, Parser.Whole root

theorem Keeps.take {r : Reader} {load' room : Nat} {octets : Bytes} (keeps : r.Keeps load')
    (reading : r.status.isOk = true) (spared : r.Spared (.chunk room octets))
    (fits : octets.length ≤ (r.parser.input.prepare room).available) (small : load' + octets.length < 2 ^ 32) :
    (r.take room octets).Keeps (load' + octets.length) := by
  obtain ⟨kept, recalls, regular⟩ := keeps.recalls
  have inside : (r.parser.feed room octets).Inside := Parser.feed_inside keeps.inside
  have fed : (r.parser.feed room octets).Recalls False (kept.append octets) :=
    recalls.feed fits keeps.inside False.elim
  have colons (memory : Memory) : (r.parser.feed room octets).Colons memory := by
    intro node member verbatim holds
    refine .inl ?_
    show node.text.storage = (r.parser.input.feed room octets).storage
    rw [Buffer.storage_feed, if_neg fun grows => holds (spared reading grows node member verbatim)]
    -- The colon is found in any memory, in particular in one that does not have it.
    rcases keeps.colons .zeroed node member verbatim holds with here | gone
    · exact here
    · cases gone
  refine ⟨Parser.drain_inside inside, ⟨_, fed.drain.2, (Parser.drain_whole (regular.append octets) small).2⟩,
    fun memory => (Parser.drain_colons (colons memory)).1, fun memory => ?_⟩
  have returned := fed.whole inside (regular.append octets) small (colons memory)
  rw [contents, Reader.take, List.map_append]
  exact List.forall_mem_append.mpr ⟨keeps.whole memory, returned⟩

theorem Keeps.run {r last : Reader} {cut : List (Nat × Bytes)} {load' : Nat} (keeps : r.Keeps load')
    (short : load' + (cut.map (·.2)).flatten.length < 2 ^ 32) (spared : Guarded step Spared r (pieces cut))
    (run : runFrom step r (pieces cut) = some last) :
    ∀ memory, ∀ root ∈ last.contents memory, Parser.Whole root := by
  induction cut generalizing r load' with
  | nil =>
    cases run
    exact keeps.whole
  | cons piece rest ih =>
    obtain ⟨next, stepped, onward⟩ := runFrom_cons run
    have later := spared.tail stepped
    rw [List.map_cons, List.flatten_cons, List.length_append] at short
    obtain ⟨read, -⟩ | ⟨room, octets, stop, read, stopped, rfl⟩ | ⟨room, octets, value, read, status, fits, rfl⟩ :=
      step_cases stepped
    · cases read
    · exact ih keeps (by omega) later onward
    · cases read
      exact ih (keeps.take (by rw [status]; rfl) spared.1 fits (by omega)) (by omega) later onward

/-- In a session in which no read that moves the buffer finds a verbatim string in the unfinished message, every
root can be built, whatever is found in storage that is gone. -/
theorem roots_buildable {limits : Limits} {cut : List (Nat × Bytes)} {last : Reader}
    (short : (cut.map (·.2)).flatten.length < 2 ^ 32) (spared : Guarded step Spared (start limits) (pieces cut))
    (run : runFrom step (start limits) (pieces cut) = some last) (memory : Memory) :
    ∀ root ∈ last.roots, (∃ earlier, Completed (root.parser.contents memory) (root.index :: earlier)) ∧
      ∃ message fuel, build fuel (root.parser.contents memory) root.index = some (.ok message) := by
  have keeps : (start limits).Keeps 0 :=
    ⟨nofun, ⟨_, ⟨⟨.zeroed, rfl⟩, False.elim⟩, ⟨⟨[], [], Sound.start, .inr rfl⟩, Nat.le_refl 0, nofun⟩⟩,
      fun _ => nofun, fun _ => nofun⟩
  have whole := keeps.run (by omega) spared run memory
  intro root member
  have found := whole _ (List.mem_map_of_mem member)
  obtain ⟨message, yields, -⟩ := found.yields
  exact ⟨found.completed, message, yields.build⟩

/-- An array of a verbatim and a simple string, cut between them. -/
def splitVerbatim : List (Nat × Bytes) := [(4096, wire "*2\r\n=7\r\ntxt:abc\r\n"), (4096, wire "+OK\r\n")]

/-- An array with the verbatim string behind the simple one, cut between them. -/
def lastVerbatim : List (Nat × Bytes) := [(4096, wire "*2\r\n+OK\r\n"), (4096, wire "=7\r\ntxt:abc\r\n")]

/-- The tree of the first array, with its two strings as they are found. -/
def verbatimTree (first second : Text) : RawTree Text :=
  { nodes := [{ type := .array, text := [], i64 := 2, firstChild := 0, childCount := 2 },
      { type := .verbatimString, text := first, i64 := 7 }, { type := .simpleString, text := second }]
    links := [1, 2] }

omit [FloatChars] in
/-- The payload whose colon `decode_verbatim` looks for was overwritten. -/
theorem splitVerbatim_asserts :
    letI := FloatChars.none
    ∃ last, runFrom step (start {}) (pieces splitVerbatim) = some last ∧
      ∃ root ∈ last.roots, build 16 (root.parser.contents .zeroed) root.index = some (.error .assertion) := by
  let := FloatChars.none
  have read : (runFrom step (start {}) (pieces splitVerbatim)).map (contents .zeroed) =
      some [(0, verbatimTree [0, 0, 0, 0, 0, 0, 0] (wire "OK"))] := by decide +kernel
  obtain ⟨last, run, read⟩ := Option.map_eq_some_iff.mp read
  refine ⟨last, run, ?_⟩
  have listed : (0, verbatimTree [0, 0, 0, 0, 0, 0, 0] (wire "OK")) ∈ last.contents .zeroed := by
    rw [read]
    exact List.mem_singleton_self _
  obtain ⟨root, member, same⟩ := List.mem_map.mp listed
  obtain ⟨index, tree⟩ := Prod.mk.inj same
  refine ⟨root, member, ?_⟩
  rw [index, tree]
  rfl

omit [FloatChars] in
/-- The simple string is left behind, the verbatim string is not. -/
theorem lastVerbatim_buildable :
    letI := FloatChars.none
    ∃ last, runFrom step (start {}) (pieces lastVerbatim) = some last ∧ last.roots.length = 1 ∧
      ∀ root ∈ last.roots, ¬root.parser.Live ∧
        ∃ message fuel, build fuel (root.parser.contents .zeroed) root.index = some (.ok message) := by
  let := FloatChars.none
  have counted : ((runFrom step (start {}) (pieces lastVerbatim)).map fun last =>
      (last.roots.length, last.roots.all fun root => !decide root.parser.Live)) = some (1, true) := by decide +kernel
  have spared : Guarded step Spared (start {}) (pieces lastVerbatim) := by decide +kernel
  obtain ⟨last, run, same⟩ := Option.map_eq_some_iff.mp counted
  obtain ⟨one, stale⟩ := Prod.mk.inj same
  have built := roots_buildable (by decide +kernel) spared run .zeroed
  refine ⟨last, run, one, fun root member => ⟨?_, (built root member).2⟩⟩
  simpa using List.all_eq_true.mp stale root member

end Reader

end Rediscoro.Resp3

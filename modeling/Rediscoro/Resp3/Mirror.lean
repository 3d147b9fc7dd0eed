import Rediscoro.Resp3.Parser

/-! The same parse over two inputs.

A `Mirror` relates two sources of octets and translates the texts of the first
into texts of the second. The parser never looks into a text, so it takes the
same steps over both and its trees stay translations of each other. The mirror
that matters reads the views of the repository's parser: it shows the zero-copy
parser to be the copying one as long as its buffer stays in place.
-/

set_option autoImplicit false

namespace Rediscoro.Resp3

open Rediscoro.Semantics

variable {β γ τ υ : Type}

/-- Related inputs offer the same octets and keep doing so when both are consumed. -/
structure Mirror [Source β τ] [Source γ υ] (translate : Kind → τ → υ) (related : β → γ → Prop) : Prop where
  data : ∀ {b c}, related b c → Source.data b = Source.data c
  consume : ∀ {b c} (n : Nat), related b c → related (Source.consume b n) (Source.consume c n)
  text : ∀ {b c} {span : Span} (kind : Kind), related b c → span.offset + span.length ≤ (Source.data b).length →
    translate kind (Source.text b kind span) = Source.text c kind span

namespace Assembly

def map (translate : Kind → τ → υ) (a : Assembly τ) : Assembly υ :=
  { tree := a.tree.map translate, pendingAttrs := a.pendingAttrs }

variable (translate : Kind → τ → υ)

theorem attachPending_map (a : Assembly τ) (index : Nat) :
    (a.map translate).attachPending index = (a.attachPending index).map translate := by
  unfold attachPending
  split
  · rename_i none
    rw [if_pos (by exact none)]
  · rename_i some
    rw [if_neg (by exact some)]
    simp only [map, Assembly.mk.injEq, and_true]
    exact (RawTree.map_update translate _ _ fun _ => rfl).symm

theorem pushNode_map (a : Assembly τ) (node : RawNode τ) :
    (a.map translate).pushNode (node.map translate) = (a.pushNode node).map translate := by
  unfold pushNode
  rw [← attachPending_map]
  simp [map]

theorem pushPending_map (a : Assembly τ) (kvNode : Nat) :
    (a.map translate).pushPending kvNode = (a.pushPending kvNode).map translate := rfl

theorem adopt_map (tree : RawTree τ) (index count : Nat) :
    adopt (tree.map translate) index count = (adopt tree index count).map translate :=
  (RawTree.map_update translate _ _ fun _ => rfl).symm

theorem adoptElement_map (a : Assembly τ) (parent : Frame) (childIdx : Nat) :
    (a.map translate).adoptElement parent childIdx = (a.adoptElement parent childIdx).map translate := by
  simp [adoptElement, map, adopt_map]

theorem adoptEntry_map (a : Assembly τ) (parent : Frame) (childIdx : Nat) :
    (a.map translate).adoptEntry parent childIdx = (a.adoptEntry parent childIdx).map translate := by
  simp [adoptEntry, map, adopt_map]

end Assembly

namespace Parser

/-- The parser with its texts translated, over another input. -/
def recast (p : Parser β τ) (translate : Kind → τ → υ) (input : γ) : Parser γ υ :=
  { toAssembly := p.toAssembly.map translate, input := input, stack := p.stack, failed := p.failed
    treeReady := p.treeReady, limits := p.limits }

section Commute

variable (translate : Kind → τ → υ) (input : γ)

theorem attachToParent_recast (p : Parser β τ) (childIdx : Nat) (frames : List Frame) :
    (p.recast translate input).attachToParent childIdx frames =
      ((p.attachToParent childIdx frames).1, (p.attachToParent childIdx frames).2.recast translate input) := by
  induction frames generalizing p childIdx with
  | nil => rfl
  | cons parent rest ih =>
    have size : (p.toAssembly.map translate).tree.nodes.length = p.tree.nodes.length := List.length_map ..
    have assembly : (p.recast translate input).toAssembly = p.toAssembly.map translate := rfl
    have element (a : Assembly τ) :
        { p.recast translate input with toAssembly := a.map translate } =
          { p with toAssembly := a }.recast translate input := rfl
    unfold attachToParent
    simp only [assembly, size, Assembly.adoptElement_map, Assembly.adoptEntry_map, Assembly.pushPending_map,
      element, ih]
    split <;> repeat' split
    all_goals rfl

theorem fail_recast (p : Parser β τ) (stop : Stop) :
    (p.recast translate input).fail stop = ((p.fail stop).1, (p.fail stop).2.recast translate input) := by
  cases stop <;> rfl

end Commute

/-- The second pass does what the first does, over an input related to the first one's. -/
def Echoes (translate : Kind → τ → υ) (related : β → γ → Prop) :
    Pass (Parser β τ) (Answer × Parser β τ) → Pass (Parser γ υ) (Answer × Parser γ υ) → Prop
  | .again p, other => ∃ input, related p.input input ∧ other = .again (p.recast translate input)
  | .leave result, other =>
      ∃ input, related result.2.input input ∧ other = .leave (result.1, result.2.recast translate input)

section Echo

variable {translate : Kind → τ → υ} {related : β → γ → Prop}

theorem settle_echoes {p : Parser β τ} {input : γ} (relation : related p.input input)
    (answer : Except Stop StepIndex) :
    Echoes translate related (settle (answer, p)) (settle (answer, p.recast translate input)) := by
  match answer with
  | .error stop =>
    refine ⟨input, ?_, congrArg Pass.leave (fail_recast translate input p stop)⟩
    cases stop <;> exact relation
  | .ok .continueParsing => exact ⟨input, relation, rfl⟩
  | .ok (.produced root) => exact ⟨input, relation, rfl⟩

theorem proceed_echoes {p : Parser β τ} {input : γ} (relation : related p.input input)
    (answer : Except Stop (Option StepIndex)) :
    Echoes translate related (proceed (answer, p)) (proceed (answer, p.recast translate input)) := by
  match answer with
  | .error stop =>
    refine ⟨input, ?_, congrArg Pass.leave (fail_recast translate input p stop)⟩
    cases stop <;> exact relation
  | .ok none => exact ⟨input, relation, rfl⟩
  | .ok (some .continueParsing) => exact ⟨input, relation, rfl⟩
  | .ok (some (.produced index)) =>
    have attached := p.attachToParent_input index p.stack.tail
    simp only [proceed, attachToParent_recast]
    exact settle_echoes (by rw [attached]; exact relation) _

variable [Source β τ] [Source γ υ] (mirror : Mirror translate related)
include mirror

theorem perform_recast {p : Parser β τ} {input : γ} {token : Token} (relation : related p.input input)
    (within : token.Within p.data.length) :
    ∃ input', related (p.perform token).2.input input' ∧
      (p.recast translate input).perform token =
      ((p.perform token).1, (p.perform token).2.recast translate input') := by
  have index : (p.recast translate input).tree.nextIndex = p.tree.nextIndex := RawTree.nextIndex_map ..
  have pushed (node : RawNode Span)
      (inside : node.text.offset + node.text.length ≤ p.data.length) :
      (p.toAssembly.map translate).pushNode (node.map (Source.text input)) =
        (p.pushNode (node.map (Source.text p.input))).map translate := by
    rw [← Assembly.pushNode_map]
    have same : (node.map (Source.text p.input)).map translate = node.map (Source.text input) := by
      simp only [RawNode.map, mirror.text _ relation inside]
    rw [same]
  cases token with
  | more => exact ⟨input, relation, rfl⟩
  | bad error used => exact ⟨_, mirror.consume used relation, rfl⟩
  | attributes pairs used => exact ⟨_, mirror.consume used relation, rfl⟩
  | container type len used =>
    have pushed := pushed (containerNode type len p.tree.nextLink) (Nat.zero_le _)
    by_cases empty : len = 0
    · simp only [perform, if_pos empty]
      refine ⟨Source.consume input used, mirror.consume used relation, Prod.ext (by simp only [index]) ?_⟩
      exact congrArg (fun a => { (p.consume used).recast translate (Source.consume input used) with toAssembly := a })
        pushed
    · simp only [perform, if_neg empty]
      refine ⟨Source.consume input used, mirror.consume used relation, Prod.ext rfl ?_⟩
      rw [index]
      exact congrArg (fun a =>
        { (p.consume used).recast translate (Source.consume input used) with
          toAssembly := a, stack := containerFrame type len p.tree.nextIndex :: p.stack.tail }) pushed
  | leaf node used =>
    have pushed := pushed node (Nat.le_trans within.2.2 within.2.1)
    refine ⟨Source.consume input used, mirror.consume used relation, Prod.ext (by simp only [perform, index]) ?_⟩
    exact congrArg (fun a => { (p.consume used).recast translate (Source.consume input used) with toAssembly := a })
      pushed

variable [FloatChars]

theorem parsePass_echoes {p : Parser β τ} {input : γ} (relation : related p.input input) :
    Echoes translate related p.parsePass (p.recast translate input).parsePass := by
  have octets : (p.recast translate input).data = p.data := (mirror.data relation).symm
  unfold parsePass
  simp only [show (p.recast translate input).stack = p.stack from rfl]
  split
  · exact ⟨input, relation, rfl⟩
  · split
    · obtain ⟨input', relation', same⟩ := perform_recast mirror relation (nextToken_within p.limits p.data)
      unfold parseValue
      simp only [show (p.recast translate input).stack = p.stack from rfl,
        show (p.recast translate input).limits = p.limits from rfl, octets, same]
      split
      · exact ⟨input, relation, rfl⟩
      · exact proceed_echoes relation' _
    · exact ⟨input, relation, rfl⟩

theorem parseLoop_recast {p : Parser β τ} {input : γ} (relation : related p.input input) :
    ∃ input', related p.parseLoop.2.input input' ∧
      (p.recast translate input).parseLoop = (p.parseLoop.1, p.parseLoop.2.recast translate input') := by
  refine run_related parsePass_decreases parsePass_decreases
    (fun p q => ∃ input, related p.input input ∧ q = p.recast translate input)
    (fun result other => ∃ input, related result.2.input input ∧ other = (result.1, result.2.recast translate input))
    ?_ ?_ p _ ⟨input, relation, rfl⟩
  · rintro state other next ⟨input, relation, rfl⟩ again
    have echo := parsePass_echoes mirror relation
    rw [again] at echo
    obtain ⟨input', relation', same⟩ := echo
    exact ⟨_, same, input', relation', rfl⟩
  · rintro state other result ⟨input, relation, rfl⟩ leave
    have echo := parsePass_echoes mirror relation
    rw [leave] at echo
    obtain ⟨input', relation', same⟩ := echo
    exact ⟨input', relation', run_leave _ same⟩

/-- One call of `parse_one` over mirrored inputs: the same answer, and mirrored parsers. -/
theorem parseOne_recast {p : Parser β τ} {input : γ} (relation : related p.input input) :
    ∃ input', related p.parseOne.2.input input' ∧
      (p.recast translate input).parseOne = (p.parseOne.1, p.parseOne.2.recast translate input') := by
  unfold parseOne
  simp only [show (p.recast translate input).treeReady = p.treeReady from rfl,
    show (p.recast translate input).failed = p.failed from rfl]
  split
  · exact ⟨input, relation, rfl⟩
  · split
    · exact ⟨input, relation, rfl⟩
    · exact parseLoop_recast mirror relation

end Echo

section Invariant

variable [Source β τ] [FloatChars] (sound : β → Prop)

/-- What every text has that is taken from a sound input, every text of the tree keeps. The parser is
run over texts that carry the property as a subtype, and that run mirrors the one in question. -/
theorem parseOne_certified (good : τ → Prop) (consumed : ∀ {b : β} (n : Nat), sound b → sound (Source.consume b n))
    (taken : ∀ {b : β} {span : Span} (kind : Kind), sound b → span.offset + span.length ≤ (Source.data b).length →
      good (Source.text b kind span))
    {p : Parser β τ} (input : sound p.input) (texts : ∀ node ∈ p.tree.nodes, good node.text) :
    sound p.parseOne.2.input ∧ ∀ node ∈ p.parseOne.2.tree.nodes, good node.text := by
  let certified : Source { b : β // sound b } { text : τ // good text } :=
    { data := fun b => Source.data b.val
      consume := fun b n => ⟨Source.consume b.val n, consumed n b.property⟩
      text := fun b kind span =>
        if within : span.offset + span.length ≤ (Source.data b.val).length then
          ⟨Source.text b.val kind span, taken kind b.property within⟩
        else ⟨Source.text b.val kind .empty, taken kind b.property (Nat.zero_le _)⟩
      compact := fun b => b
      data_consume := fun b n => Source.data_consume b.val n
      data_compact := fun _ => rfl }
  have mirror : Mirror (fun _ (text : { text : τ // good text }) => text.val)
      (fun (b : { b : β // sound b }) (c : β) => b.val = c) :=
    { data := by rintro b c rfl; rfl
      consume := by rintro b c n rfl; rfl
      text := by
        rintro b c span kind rfl within
        exact congrArg Subtype.val (dif_pos within) }
  let lifted : Parser { b : β // sound b } { text : τ // good text } :=
    { p.recast (fun _ text => text) p.input with
      input := ⟨p.input, input⟩
      tree := ⟨p.tree.nodes.attach.map fun node =>
        node.val.map fun _ _ => ⟨node.val.text, texts node.val node.property⟩, p.tree.links⟩ }
  have nodes : (lifted.tree.map fun _ text => text.val).nodes = p.tree.nodes :=
    List.map_map.trans (List.attach_map_subtype_val p.tree.nodes)
  have whole : lifted.recast (fun _ text => text.val) p.input = p :=
    congrArg (fun nodes => { p with tree := { p.tree with nodes := nodes } }) nodes
  obtain ⟨result, related, same⟩ := parseOne_recast mirror (show lifted.input.val = p.input from rfl)
  rw [whole] at same
  rw [same]
  refine ⟨related ▸ Subtype.property _, ?_⟩
  intro node member
  obtain ⟨source, -, rfl⟩ := List.mem_map.mp member
  exact source.text.property

/-- An input whose texts come with the kind of their node. -/
structure Labelled (β : Type) where
  input : β

instance : Source (Labelled β) (Kind × τ) where
  data b := Source.data b.input
  consume b n := ⟨Source.consume b.input n⟩
  text b kind span := (kind, Source.text b.input kind span)
  compact b := ⟨Source.compact b.input⟩
  data_consume b n := Source.data_consume b.input n
  data_compact b := Source.data_compact b.input

/-- The same for a property that depends on the kind of the node. -/
theorem parseOne_texts (good : Kind → τ → Prop) (consumed : ∀ {b : β} (n : Nat), sound b → sound (Source.consume b n))
    (taken : ∀ {b : β} {span : Span} (kind : Kind), sound b → span.offset + span.length ≤ (Source.data b).length →
      good kind (Source.text b kind span))
    {p : Parser β τ} (input : sound p.input) (texts : ∀ node ∈ p.tree.nodes, good node.type node.text) :
    sound p.parseOne.2.input ∧ ∀ node ∈ p.parseOne.2.tree.nodes, good node.type node.text := by
  have mirror : Mirror (fun kind (text : τ) => (kind, text)) fun (b : β) (c : Labelled β) => c = ⟨b⟩ :=
    { data := by rintro b c rfl; rfl
      consume := by rintro b c n rfl; rfl
      text := by rintro b c span kind rfl within; rfl }
  obtain ⟨result, rfl, same⟩ := parseOne_recast mirror (p := p) rfl
  obtain ⟨kept, labelled⟩ := parseOne_certified (fun b : Labelled β => sound b.input)
    (fun label : Kind × τ => good label.1 label.2) (fun n => consumed n) (fun kind => taken kind)
    (p := p.recast (fun kind text => (kind, text)) ⟨p.input⟩) input (List.forall_mem_map.mpr texts)
  rw [same] at kept labelled
  exact ⟨kept, List.forall_mem_map.mp labelled⟩

end Invariant

end Parser

end Rediscoro.Resp3

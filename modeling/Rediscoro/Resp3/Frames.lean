import Rediscoro.Resp3.Framing

/-! The frames of the parser and the tree they build.

A node is completed when the parser hands it to the frames below; until then its
container frame is on the stack. The invariant of the loop keeps the completed
nodes in the order of their completion. Whatever is linked is completed, so the
windows of a node, which only hold links made before it was completed, name nodes
completed before it. The windows themselves are only counted here; what they should
hold is the matter of the round trip.
-/

set_option autoImplicit false

namespace Rediscoro.Resp3

open Rediscoro.Semantics

variable {β τ : Type}

/-! Completed nodes. -/

/-- So many links from `first` on are there and name nodes among `earlier`. -/
def Lists (links : List Nat) (first count : Nat) (earlier : List Nat) : Prop :=
  ∀ i < count, ∃ target ∈ earlier, links[first + i]? = some target

theorem Lists.of_le {links earlier : List Nat} {first count : Nat} (inside : count ≠ 0 → first + count ≤ links.length)
    (linked : ∀ target ∈ links, target ∈ earlier) : Lists links first count earlier := by
  intro i less
  have bound : first + i < links.length := by omega
  exact ⟨links[first + i], linked _ (List.getElem_mem bound), List.getElem?_eq_getElem bound⟩

theorem Lists.mono {links links' earlier : List Nat} {first count : Nat} (lists : Lists links first count earlier)
    (longer : links <+: links') : Lists links' first count earlier := by
  intro i less
  obtain ⟨target, known, found⟩ := lists i less
  obtain ⟨added, rfl⟩ := longer
  have bound := (List.getElem?_eq_some_iff.mp found).1
  exact ⟨target, known, (List.getElem?_append_left bound).trans found⟩

/-- What the builder relies on about a node, whatever its windows hold. -/
structure RawNode.Regular (node : RawNode τ) : Prop where
  kind : node.type ≠ .attribute
  attributes : node.attrCount % 2 = 0
  entries : node.type = .map → node.childCount % 2 = 0
  parent : node.childCount ≠ 0 → node.type.isAggregate = true ∧ node.i64 ≠ -1

/-- A regular node whose windows name nodes among `earlier`. -/
structure Sealed (tree : RawTree τ) (earlier : List Nat) (node : RawNode τ) : Prop where
  regular : node.Regular
  children : Lists tree.links node.firstChild node.childCount earlier
  attributes : Lists tree.links node.firstAttr node.attrCount earlier

/-- Nodes in the order of their completion, the last one in front. -/
inductive Completed (tree : RawTree τ) : List Nat → Prop where
  | nil : Completed tree []
  | cons {index : Nat} {earlier : List Nat} {node : RawNode τ} (found : tree.nodes[index]? = some node)
      (whole : Sealed tree earlier node) (rest : Completed tree earlier) : Completed tree (index :: earlier)

theorem Completed.mono {tree tree' : RawTree τ} {done : List Nat} (completed : Completed tree done)
    (same : ∀ index ∈ done, tree'.nodes[index]? = tree.nodes[index]?) (longer : tree.links <+: tree'.links) :
    Completed tree' done := by
  induction completed with
  | nil => exact .nil
  | @cons index earlier node found whole rest ih =>
    have here := same index List.mem_cons_self
    have below := ih fun other member => same other (List.mem_cons_of_mem _ member)
    exact .cons (here.trans found) ⟨whole.regular, whole.children.mono longer, whole.attributes.mono longer⟩ below

/-- The order of completion does not depend on the texts. -/
theorem Completed.map {υ : Type} {tree : RawTree τ} {f g : Kind → τ → υ} {done : List Nat}
    (completed : Completed (tree.map f) done) : Completed (tree.map g) done := by
  induction completed with
  | nil => exact .nil
  | @cons index earlier node found whole rest ih =>
    rw [RawTree.map, List.getElem?_map] at found
    obtain ⟨raw, known, rfl⟩ := Option.map_eq_some_iff.mp found
    have regular : (raw.map g).Regular :=
      ⟨whole.regular.kind, whole.regular.attributes, whole.regular.entries, whole.regular.parent⟩
    have there : (tree.map g).nodes[index]? = some (raw.map g) := by
      rw [RawTree.map, List.getElem?_map, known]
      rfl
    exact .cons there ⟨regular, whole.children, whole.attributes⟩ ih

theorem Completed.lt {tree : RawTree τ} {done : List Nat} (completed : Completed tree done) {index : Nat}
    (member : index ∈ done) : index < tree.nodes.length := by
  induction completed with
  | nil => cases member
  | cons found whole rest ih =>
    rcases List.mem_cons.mp member with rfl | member
    · exact (List.getElem?_eq_some_iff.mp found).1
    · exact ih member

/-! Frames that wait for a value. -/

/-- The state of a container frame goes with the kind of its container. -/
def Frame.Drives (frame : Frame) : Prop :=
  match frame.state with
  | .array => frame.containerType = .array ∨ frame.containerType = .set ∨ frame.containerType = .push
  | .mapKey | .mapValue => frame.containerType = .map
  | .value | .attribute => False

theorem Frame.Drives.neither {frame : Frame} (drives : frame.Drives) :
    frame.state ≠ .value ∧ frame.state ≠ .attribute := by
  constructor <;> intro state <;> rw [Frame.Drives, state] at drives <;> cases drives

/-- A container frame and the node it fills. -/
structure Open (tree : RawTree τ) (done : List Nat) (frame : Frame) (node : RawNode τ) : Prop where
  drives : frame.Drives
  unfinished : frame.produced < frame.expected
  fits : frame.containerType.arity frame.expected < 2 ^ 32
  key : frame.state = .mapValue → frame.hasPendingKey = true ∧ frame.pendingKey ∈ done
  found : tree.nodes[frame.nodeIndex]? = some node
  type : node.type = frame.containerType
  length : node.i64 ≠ -1
  count : node.childCount = frame.containerType.arity frame.produced
  children : node.childCount ≠ 0 → node.firstChild + node.childCount ≤ tree.links.length
  pairs : node.attrCount % 2 = 0
  attributes : Lists tree.links node.firstAttr node.attrCount done

/-- An attribute frame, whose entries become pending pair by pair. -/
structure OpenBlock (done : List Nat) (frame : Frame) : Prop where
  state : frame.state = .attribute
  kind : frame.containerType = .attribute
  unfinished : frame.produced < frame.expected
  fits : frame.expected < 2 ^ 32
  key : frame.hasPendingKey = true → frame.pendingKey ∈ done

/-- The frames under a value, the top one first. Nodes of containers further down
were created earlier, and none of them is completed. -/
inductive Waiting (tree : RawTree τ) (done : List Nat) : Nat → List Frame → Prop where
  | bottom {bound : Nat} : Waiting tree done bound []
  | container {bound : Nat} {frame : Frame} {frames : List Frame} {node : RawNode τ}
      (is : Open tree done frame node) (older : frame.nodeIndex < bound) (apart : frame.nodeIndex ∉ done)
      (below : Waiting tree done frame.nodeIndex frames) : Waiting tree done bound (frame :: frames)
  | block {bound : Nat} {frame : Frame} {frames : List Frame} (is : OpenBlock done frame)
      (below : Waiting tree done bound frames) : Waiting tree done bound (frame :: .value :: frames)

theorem Open.mono {tree tree' : RawTree τ} {done done' : List Nat} {frame : Frame} {node : RawNode τ}
    (is : Open tree done frame node) (same : tree'.nodes[frame.nodeIndex]? = tree.nodes[frame.nodeIndex]?)
    (longer : tree.links <+: tree'.links) (more : ∀ index ∈ done, index ∈ done') : Open tree' done' frame node where
  drives := is.drives
  unfinished := is.unfinished
  fits := is.fits
  key := fun waits => ⟨(is.key waits).1, more _ (is.key waits).2⟩
  found := same.trans is.found
  type := is.type
  length := is.length
  count := is.count
  children := fun some => Nat.le_trans (is.children some) longer.length_le
  pairs := is.pairs
  attributes := by
    intro i less
    obtain ⟨target, known, linked⟩ := is.attributes.mono longer i less
    exact ⟨target, more target known, linked⟩

/-- Waiting frames do not notice what happens to the nodes above their own. -/
theorem Waiting.mono {tree tree' : RawTree τ} {done done' : List Nat} {bound : Nat} {frames : List Frame}
    (waiting : Waiting tree done bound frames) (same : ∀ index < bound, tree'.nodes[index]? = tree.nodes[index]?)
    (longer : tree.links <+: tree'.links) (more : ∀ index ∈ done, index ∈ done')
    (fresh : ∀ index ∈ done', index ∉ done → bound ≤ index) : Waiting tree' done' bound frames := by
  induction waiting with
  | bottom => exact .bottom
  | @container bound frame frames node is older apart below ih =>
    refine .container (is.mono (same _ older) longer more) older ?_ ?_
    · intro member
      have := fresh _ member apart
      omega
    · apply ih
      · intro index less
        exact same index (by omega)
      · intro index member new
        have := fresh index member new
        omega
  | @block bound frame frames is below ih =>
    exact .block ⟨is.state, is.kind, is.unfinished, is.fits, fun key => more _ (is.key key)⟩ (ih same fresh)

theorem Waiting.weaken {tree : RawTree τ} {done : List Nat} {bound bound' : Nat} {frames : List Frame}
    (waiting : Waiting tree done bound frames) (le : bound ≤ bound') : Waiting tree done bound' frames := by
  induction waiting with
  | bottom => exact .bottom
  | container is older apart below ih => exact .container is (Nat.lt_of_lt_of_le older le) apart below
  | block is below ih => exact .block is (ih le)

/-- The nodes that a frame keeps from being linked: its own, and a key. -/
def Frame.holds (frame : Frame) : Nat :=
  match frame.state with
  | .value => 0
  | .array | .mapKey => 1
  | .mapValue => 2
  | .attribute => if frame.hasPendingKey then 1 else 0

def holds (frames : List Frame) : Nat := (frames.map Frame.holds).sum

@[simp] theorem holds_nil : holds [] = 0 := rfl

@[simp] theorem holds_cons (frame : Frame) (frames : List Frame) :
    holds (frame :: frames) = frame.holds + holds frames := List.sum_cons

@[simp] theorem Frame.holds_value : Frame.value.holds = 0 := rfl

/-- The half-built message while frames wait for a value. Every link is one of a node that nothing holds. -/
structure Sound (a : Assembly τ) (done : List Nat) (frames : List Frame) : Prop where
  completed : Completed a.tree done
  linked : ∀ target ∈ a.tree.links, target ∈ done
  waiting : Waiting a.tree done a.tree.nodes.length frames
  pairs : a.pendingAttrs.count % 2 = 0
  pending : a.pendingAttrs.count ≠ 0 → a.pendingAttrs.first + a.pendingAttrs.count ≤ a.tree.links.length
  counted : a.tree.links.length + holds frames ≤ a.tree.nodes.length

theorem Sound.start : Sound ({} : Assembly τ) [] [] where
  completed := .nil
  linked := nofun
  waiting := .bottom
  pairs := rfl
  pending := fun some => absurd rfl some
  counted := Nat.le_refl 0

/-! A frame that takes a value over. -/

/-- The tree with links added for a container, whose node counts them. -/
def adopting (tree : RawTree τ) (index count : Nat) (added : List Nat) : RawTree τ :=
  { nodes := (Assembly.adopt tree index count).nodes, links := tree.links ++ added }

def adoptedBy (links : List Nat) (node : RawNode τ) (count : Nat) : RawNode τ :=
  { node with firstChild := if node.childCount = 0 then links.length else node.firstChild, childCount := count }

section Adopting

variable {a : Assembly τ} {done : List Nat} {parent : Frame} {node : RawNode τ} {rest : List Frame}

theorem nodes_adopting_self {tree : RawTree τ} {index : Nat} (found : tree.nodes[index]? = some node)
    (small : tree.links.length < 2 ^ 32) (count : Nat) (added : List Nat) :
    (adopting tree index count added).nodes[index]? = some (adoptedBy tree.links node count) := by
  simp only [adopting, Assembly.adopt, RawTree.update, List.getElem?_modify_eq, found, RawTree.nextLink,
    u32_of_lt small]
  rfl

theorem nodes_adopting_ne (tree : RawTree τ) {index other : Nat} (differs : other ≠ index) (count : Nat)
    (added : List Nat) : (adopting tree index count added).nodes[other]? = tree.nodes[other]? := by
  simp only [adopting, Assembly.adopt, RawTree.update, List.getElem?_modify_ne _ _ differs.symm]

theorem length_adopting (tree : RawTree τ) (index count : Nat) (added : List Nat) :
    (adopting tree index count added).nodes.length = tree.nodes.length := by
  simp only [adopting, Assembly.adopt, RawTree.update, List.length_modify]

theorem length_links_adopting (tree : RawTree τ) (index count : Nat) (added : List Nat) :
    (adopting tree index count added).links.length = tree.links.length + added.length := List.length_append

/-- The window of the node covers the links that were added for it. -/
theorem children_adoptedBy {tree : RawTree τ} (is : Open tree done parent node) {added : List Nat} {count : Nat}
    (counted : count = node.childCount + added.length) :
    (adoptedBy tree.links node count).firstChild + count ≤ (tree.links ++ added).length := by
  have inside := is.children
  rw [List.length_append, adoptedBy]
  dsimp only
  split <;> omega

variable (sound : Sound a done (parent :: rest)) (is : Open a.tree done parent node) (apart : parent.nodeIndex ∉ done)
  (below : Waiting a.tree done parent.nodeIndex rest) {added : List Nat} (known : ∀ target ∈ added, target ∈ done)

include sound apart below known

/-- The parts of the invariant that do not look at the node of the container. -/
theorem adopting_around (count : Nat) :
    let tree := adopting a.tree parent.nodeIndex count added
    Completed tree done ∧ (∀ target ∈ tree.links, target ∈ done) ∧ Waiting tree done parent.nodeIndex rest := by
  refine ⟨?_, ?_, ?_⟩
  · apply sound.completed.mono
    · intro index member
      have differs : index ≠ parent.nodeIndex := fun same => apart (same ▸ member)
      exact nodes_adopting_ne a.tree differs count added
    · exact List.prefix_append _ _
  · exact List.forall_mem_append.mpr ⟨sound.linked, known⟩
  · apply below.mono
    · intro index less
      exact nodes_adopting_ne a.tree (Nat.ne_of_lt less) count added
    · exact List.prefix_append _ _
    · exact fun _ member => member
    · exact fun _ member new => absurd member new

variable {count : Nat} (counted : count = node.childCount + added.length)
  (spare : a.tree.links.length + added.length + holds rest < a.tree.nodes.length)
  (small : a.tree.nodes.length < 2 ^ 32)

include is counted spare small

/-- The frame waits for its next element or entry. -/
theorem Sound.stays (next : Frame) (drives : next.Drives) (between : next.state ≠ .mapValue) (holds : next.holds = 1)
    (index : next.nodeIndex = parent.nodeIndex) (kind : next.containerType = parent.containerType)
    (expected : next.expected = parent.expected) (unfinished : next.produced < parent.expected)
    (taken : count = parent.containerType.arity next.produced) :
    Sound { a with tree := adopting a.tree parent.nodeIndex count added } done (next :: rest) := by
  obtain ⟨completed, linked, waiting⟩ := adopting_around sound apart below known count
  have older : parent.nodeIndex < a.tree.nodes.length := (List.getElem?_eq_some_iff.mp is.found).1
  have fewer : a.tree.links.length < 2 ^ 32 := by omega
  have open' : Open (adopting a.tree parent.nodeIndex count added) done next (adoptedBy a.tree.links node count) :=
    { drives := drives
      unfinished := by rw [expected]; exact unfinished
      fits := by rw [kind, expected]; exact is.fits
      key := fun waits => absurd waits between
      found := by rw [index]; exact nodes_adopting_self is.found fewer count added
      type := is.type.trans kind.symm
      length := is.length
      count := by rw [kind]; exact taken
      children := fun _ => children_adoptedBy is counted
      pairs := is.pairs
      attributes := is.attributes.mono (List.prefix_append _ _) }
  refine ⟨completed, linked, ?_, sound.pairs, ?_, ?_⟩
  · refine .container open' ?_ (by rw [index]; exact apart) (by rw [index]; exact waiting)
    rw [index, length_adopting]
    exact older
  · intro some
    exact Nat.le_trans (sound.pending some) (List.prefix_append a.tree.links added).length_le
  · rw [holds_cons, holds, length_adopting, length_links_adopting]
    omega

/-- The container is complete and its node is the last one completed. -/
theorem Sound.closes (taken : count = parent.containerType.arity parent.expected) :
    Sound { a with tree := adopting a.tree parent.nodeIndex count added } (parent.nodeIndex :: done) rest ∧
      (adopting a.tree parent.nodeIndex count added).links.length + holds rest <
        (adopting a.tree parent.nodeIndex count added).nodes.length := by
  obtain ⟨completed, linked, waiting⟩ := adopting_around sound apart below known count
  have older : parent.nodeIndex < a.tree.nodes.length := (List.getElem?_eq_some_iff.mp is.found).1
  have fewer : a.tree.links.length < 2 ^ 32 := by omega
  have aggregate : parent.containerType.isAggregate = true ∧ parent.containerType ≠ .attribute := by
    have drives := is.drives
    unfold Frame.Drives at drives
    split at drives
    · rcases drives with kind | kind | kind <;> rw [kind] <;> exact ⟨rfl, nofun⟩
    · rw [drives]; exact ⟨rfl, nofun⟩
    · rw [drives]; exact ⟨rfl, nofun⟩
    · cases drives
    · cases drives
  have regular : (adoptedBy a.tree.links node count).Regular :=
    { kind := by rw [show (adoptedBy a.tree.links node count).type = _ from is.type]; exact aggregate.2
      attributes := is.pairs
      entries := by
        intro map
        have map : parent.containerType = .map := is.type.symm.trans map
        show count % 2 = 0
        rw [taken, map, Kind.arity, if_pos (.inl rfl)]
        omega
      parent := fun _ =>
        ⟨by rw [show (adoptedBy a.tree.links node count).type = _ from is.type]; exact aggregate.1, is.length⟩ }
  have whole : Sealed (adopting a.tree parent.nodeIndex count added) done (adoptedBy a.tree.links node count) :=
    ⟨regular, .of_le (fun _ => children_adoptedBy is counted) linked, is.attributes.mono (List.prefix_append _ _)⟩
  refine ⟨⟨.cons (nodes_adopting_self is.found fewer count added) whole completed, ?_, ?_, sound.pairs, ?_, ?_⟩, ?_⟩
  · exact fun target member => List.mem_cons_of_mem _ (linked target member)
  · have waiting : Waiting (adopting a.tree parent.nodeIndex count added) (parent.nodeIndex :: done)
        parent.nodeIndex rest := by
      apply waiting.mono (fun _ _ => rfl) (List.prefix_refl _) (fun _ member => List.mem_cons_of_mem _ member)
      intro index member new
      rcases List.mem_cons.mp member with rfl | member
      · exact Nat.le_refl _
      · exact absurd member new
    apply waiting.weaken
    rw [length_adopting]
    exact Nat.le_of_lt older
  · intro some
    exact Nat.le_trans (sound.pending some) (List.prefix_append a.tree.links added).length_le
  all_goals
    rw [length_adopting, length_links_adopting]
    omega

end Adopting

theorem adoptElement_eq (a : Assembly τ) (parent : Frame) (childIdx : Nat) :
    a.adoptElement parent childIdx =
      { a with tree := adopting a.tree parent.nodeIndex (u32 (parent.produced + 1)) [childIdx] } := rfl

theorem adoptEntry_eq (a : Assembly τ) (parent : Frame) (childIdx : Nat) :
    a.adoptEntry parent childIdx =
      { a with
        tree := adopting a.tree parent.nodeIndex (u32 (u32 (parent.produced + 1) * 2))
          [parent.pendingKey, childIdx] } := by
  simp only [Assembly.adoptEntry, adopting, RawTree.link, List.append_assoc, List.singleton_append]
  rfl

/-- An attribute frame hands a pair to the next node. -/
theorem Sound.pushPair {a : Assembly τ} {done : List Nat} {frames : List Frame} {key value : Nat}
    (sound : Sound a done frames) (keyDone : key ∈ done) (valueDone : value ∈ done)
    (spare : a.tree.links.length + 2 + holds frames ≤ a.tree.nodes.length) (small : a.tree.nodes.length < 2 ^ 32) :
    Sound ((a.pushPending key).pushPending value) done frames := by
  have longer : a.tree.links <+: ((a.pushPending key).pushPending value).tree.links :=
    ⟨[key, value], by simp [Assembly.pushPending, RawTree.link]⟩
  have length : ((a.pushPending key).pushPending value).tree.links.length = a.tree.links.length + 2 := by
    simp [Assembly.pushPending, RawTree.link]
  have pending := sound.pending
  have pairs := sound.pairs
  have some : a.pendingAttrs.count ≤ a.tree.links.length := by omega
  have one : u32 (a.pendingAttrs.count + 1) = a.pendingAttrs.count + 1 := u32_of_lt (by omega)
  have two : u32 (a.pendingAttrs.count + 1 + 1) = a.pendingAttrs.count + 2 := u32_of_lt (by omega)
  have count : ((a.pushPending key).pushPending value).pendingAttrs.count = a.pendingAttrs.count + 2 := by
    simp only [Assembly.pushPending, one, two]
  refine ⟨sound.completed.mono (fun _ _ => rfl) longer, ?_, ?_, ?_, ?_, ?_⟩
  · intro target member
    simp only [Assembly.pushPending, RawTree.link, List.append_assoc, List.mem_append, List.mem_singleton] at member
    rcases member with member | rfl | rfl
    · exact sound.linked target member
    · exact keyDone
    · exact valueDone
  · exact sound.waiting.mono (fun _ _ => rfl) longer (fun _ member => member) fun _ member new => absurd member new
  · rw [count]
    omega
  · intro _
    rw [count, length]
    have first : u32 a.tree.links.length = a.tree.links.length := u32_of_lt (by omega)
    simp only [Assembly.pushPending, one, Nat.succ_ne_zero, if_false, RawTree.nextLink, first]
    split <;> omega
  · rw [length]
    exact spare

/-! What is no window of a node is never changed. -/

/-- A node without its windows. -/
def RawNode.core (node : RawNode τ) : RawNode τ :=
  { node with firstChild := 0, childCount := 0, firstAttr := 0, attrCount := 0 }

theorem cores_adopting (tree : RawTree τ) (index count : Nat) (added : List Nat) :
    (adopting tree index count added).nodes.map RawNode.core = tree.nodes.map RawNode.core := by
  apply List.ext_getElem?
  intro position
  simp only [adopting, Assembly.adopt, RawTree.update, List.getElem?_map, List.getElem?_modify]
  cases tree.nodes[position]? with
  | none => rfl
  | some node =>
    by_cases here : index = position
    · simp [here, RawNode.core]
    · simp [here]

theorem cores_adoptElement (a : Assembly τ) (parent : Frame) (childIdx : Nat) :
    (a.adoptElement parent childIdx).tree.nodes.map RawNode.core = a.tree.nodes.map RawNode.core := by
  rw [adoptElement_eq]
  exact cores_adopting ..

theorem cores_adoptEntry (a : Assembly τ) (parent : Frame) (childIdx : Nat) :
    (a.adoptEntry parent childIdx).tree.nodes.map RawNode.core = a.tree.nodes.map RawNode.core := by
  rw [adoptEntry_eq]
  exact cores_adopting ..

namespace Parser

/-- What `attach_to_parent` leaves behind: a frame that waits for its next value,
or the root, completed last. It never fails. -/
def Attaches : Except Stop StepIndex × Parser β τ → Prop
  | (.error _, _) => False
  | (.ok .continueParsing, p) => ∃ done frames, p.stack = .value :: frames ∧ Sound p.toAssembly done frames
  | (.ok (.produced root), p) => p.stack = [] ∧ ∃ earlier, Sound p.toAssembly (root :: earlier) []

theorem attachToParent_attaches {p : Parser β τ} {childIdx : Nat} {earlier : List Nat} {frames : List Frame}
    (sound : Sound p.toAssembly (childIdx :: earlier) frames)
    (spare : p.tree.links.length + holds frames < p.tree.nodes.length) (small : p.tree.nodes.length < 2 ^ 32) :
    Attaches (p.attachToParent childIdx frames) := by
  -- on the frames; a container that is complete is the value of the frames below it
  induction frames generalizing p childIdx earlier with
  | nil => exact ⟨rfl, earlier, sound⟩
  | cons parent rest ih =>
    have child : childIdx ∈ childIdx :: earlier := List.mem_cons_self
    rw [holds_cons] at spare
    cases sound.waiting with
    | @container _ _ _ node is older apart below =>
      have unfinished := is.unfinished
      have fits := is.fits
      have inside : ¬ p.tree.nodes.length ≤ parent.nodeIndex := by omega
      have drives := is.drives
      cases state : parent.state with
      | value => exact absurd state drives.neither.1
      | «attribute» => exact absurd state drives.neither.2
      | array =>
        simp only [Frame.Drives, state] at drives
        simp only [Frame.holds, state] at spare
        have arity (n : Nat) : parent.containerType.arity n = n := by
          rcases drives with kind | kind | kind <;> rw [kind] <;> rfl
        rw [arity] at fits
        have count := is.count
        rw [arity] at count
        have next : u32 (parent.produced + 1) = parent.produced + 1 := u32_of_lt (by omega)
        rw [attachToParent]
        simp only [state]
        rw [if_neg (not_not.mpr drives), if_neg inside, adoptElement_eq, next]
        have counted : parent.produced + 1 = node.childCount + [childIdx].length := by rw [count]; rfl
        have known : ∀ target ∈ [childIdx], target ∈ childIdx :: earlier := by simp
        have room : p.tree.links.length + [childIdx].length + holds rest < p.tree.nodes.length := by
          rw [List.length_singleton]
          omega
        split
        · rename_i last
          obtain ⟨closed, room⟩ := sound.closes is apart below known counted room small (by rw [arity]; exact last)
          exact ih closed room (by rw [length_adopting]; exact small)
        · rename_i more
          refine ⟨_, _, rfl, sound.stays is apart below known counted room small
            { parent with state := .array, produced := parent.produced + 1 } drives (by simp) rfl rfl rfl rfl ?_
              (arity _).symm⟩
          dsimp only
          omega
      | mapKey =>
        simp only [Frame.Drives, state] at drives
        simp only [Frame.holds, state] at spare
        rw [attachToParent]
        simp only [state]
        rw [if_neg (not_not.mpr drives)]
        have keyed : Open p.tree (childIdx :: earlier)
            { parent with pendingKey := childIdx, hasPendingKey := true, state := .mapValue } node :=
          { is with drives := drives, key := fun _ => ⟨rfl, child⟩ }
        refine ⟨_, _, rfl, { sound with waiting := .container keyed older apart below, counted := ?_ }⟩
        simp only [holds_cons, Frame.holds]
        omega
      | mapValue =>
        simp only [Frame.Drives, state] at drives
        simp only [Frame.holds, state] at spare
        obtain ⟨pending, keyDone⟩ := is.key state
        rw [drives, Kind.arity, if_pos (.inl rfl)] at fits
        have count := is.count
        rw [drives, Kind.arity, if_pos (.inl rfl)] at count
        have next : u32 (parent.produced + 1) = parent.produced + 1 := u32_of_lt (by omega)
        have double : u32 ((parent.produced + 1) * 2) = (parent.produced + 1) * 2 := u32_of_lt (by omega)
        rw [attachToParent]
        simp only [state]
        rw [if_neg (not_not.mpr drives), if_neg (not_not.mpr pending), if_neg inside, adoptEntry_eq, next, double]
        have counted : (parent.produced + 1) * 2 = node.childCount + [parent.pendingKey, childIdx].length := by
          rw [count, List.length_cons, List.length_singleton]
          omega
        have known : ∀ target ∈ [parent.pendingKey, childIdx], target ∈ childIdx :: earlier := by
          intro target member
          simp only [List.mem_cons, List.not_mem_nil, or_false] at member
          rcases member with rfl | rfl
          · exact keyDone
          · exact child
        have room : p.tree.links.length + [parent.pendingKey, childIdx].length + holds rest < p.tree.nodes.length := by
          rw [List.length_cons, List.length_singleton]
          omega
        split
        · rename_i last
          obtain ⟨closed, room⟩ := sound.closes is apart below known counted room small
            (by rw [drives, Kind.arity, if_pos (.inl rfl)]; omega)
          exact ih closed room (by rw [length_adopting]; exact small)
        · rename_i more
          refine ⟨_, _, rfl, sound.stays is apart below known counted room small
            { parent with hasPendingKey := false, produced := parent.produced + 1, state := .mapKey } drives (by simp)
              rfl rfl rfl rfl ?_ ?_⟩
          · dsimp only
            omega
          · rw [drives, Kind.arity, if_pos (.inl rfl)]
            exact Nat.mul_comm _ 2
    | @block _ _ frames is below =>
      have unfinished := is.unfinished
      have fits := is.fits
      have next : u32 (parent.produced + 1) = parent.produced + 1 := u32_of_lt (by omega)
      simp only [holds_cons, Frame.holds_value, Nat.zero_add] at spare
      rw [attachToParent]
      simp only [is.state]
      rw [if_neg (not_not.mpr is.kind), next]
      by_cases pending : parent.hasPendingKey = true
      · rw [if_neg (not_not.mpr pending)]
        simp only [Frame.holds, is.state, pending, if_true] at spare
        have beneath : Sound p.toAssembly (childIdx :: earlier) frames :=
          { sound with waiting := below, counted := by omega }
        have pushed := beneath.pushPair (is.key pending) child (by omega) small
        split
        · exact ⟨_, _, rfl, pushed⟩
        · rename_i more
          refine ⟨_, _, rfl, { pushed with
            waiting := .block ⟨rfl, is.kind, ?_, is.fits, by simp⟩ pushed.waiting, counted := ?_ }⟩
          · dsimp only
            omega
          · rw [holds_cons, holds_cons, Frame.holds_value]
            simpa [Frame.holds] using pushed.counted
      · rw [if_pos pending]
        refine ⟨_, _, rfl, { sound with
          waiting := .block ⟨rfl, is.kind, unfinished, fits, fun _ => child⟩ below, counted := ?_ }⟩
        rw [holds_cons, holds_cons, Frame.holds_value]
        simp only [Frame.holds, if_true]
        omega

/-- Attaching creates no node and changes nothing but windows. -/
theorem attachToParent_cores (p : Parser β τ) (childIdx : Nat) (frames : List Frame) :
    (p.attachToParent childIdx frames).2.tree.nodes.map RawNode.core = p.tree.nodes.map RawNode.core := by
  induction frames generalizing p childIdx with
  | nil => rfl
  | cons parent rest ih =>
    unfold attachToParent
    repeat' split
    all_goals first | rfl | simp only [ih, cores_adoptElement, cores_adoptEntry]

theorem attachToParent_size (p : Parser β τ) (childIdx : Nat) (frames : List Frame) :
    (p.attachToParent childIdx frames).2.tree.nodes.length = p.tree.nodes.length := by
  simpa using congrArg List.length (attachToParent_cores p childIdx frames)

end Parser

/-! A new node. -/

/-- A node as it is created, with the pending attributes. -/
def RawNode.takes (node : RawNode τ) (pending : PendingAttributes) : RawNode τ :=
  if pending.count = 0 then node else { node with firstAttr := pending.first, attrCount := pending.count }

theorem modify_last {α : Type} (items : List α) (item : α) (change : α → α) :
    (items ++ [item]).modify items.length change = items ++ [change item] := by
  induction items with
  | nil => rfl
  | cons first rest ih => exact congrArg (List.cons first) ih

theorem pushNode_eq (a : Assembly τ) (node : RawNode τ) (small : a.tree.nodes.length < 2 ^ 32) :
    a.pushNode node =
      { tree := { a.tree with nodes := a.tree.nodes ++ [node.takes a.pendingAttrs] }
        pendingAttrs := if a.pendingAttrs.count = 0 then a.pendingAttrs else {} } := by
  unfold Assembly.pushNode Assembly.attachPending RawNode.takes
  dsimp only
  split
  · rfl
  · simp only [RawTree.push, RawTree.update, RawTree.nextIndex, u32_of_lt small, modify_last]

section Pushed

variable (a : Assembly τ) (node : RawNode τ) (small : a.tree.nodes.length < 2 ^ 32)

include small

theorem links_pushNode : (a.pushNode node).tree.links = a.tree.links := by
  rw [pushNode_eq a node small]

theorem pushNode_last : (a.pushNode node).tree.nodes[a.tree.nodes.length]? = some (node.takes a.pendingAttrs) := by
  rw [pushNode_eq a node small]
  exact List.getElem?_concat_length

theorem pushNode_before {index : Nat} (less : index < a.tree.nodes.length) :
    (a.pushNode node).tree.nodes[index]? = a.tree.nodes[index]? := by
  rw [pushNode_eq a node small]
  exact List.getElem?_append_left less

theorem count_pushNode : (a.pushNode node).pendingAttrs.count = 0 := by
  rw [pushNode_eq a node small]
  dsimp only
  split
  · assumption
  · rfl

end Pushed

@[simp] theorem type_takes (node : RawNode τ) (pending : PendingAttributes) :
    (node.takes pending).type = node.type := by
  unfold RawNode.takes
  split <;> rfl

@[simp] theorem i64_takes (node : RawNode τ) (pending : PendingAttributes) :
    (node.takes pending).i64 = node.i64 := by
  unfold RawNode.takes
  split <;> rfl

@[simp] theorem childCount_takes (node : RawNode τ) (pending : PendingAttributes) :
    (node.takes pending).childCount = node.childCount := by
  unfold RawNode.takes
  split <;> rfl

/-- A node without windows yet. -/
structure RawNode.Bare (node : RawNode τ) : Prop where
  kind : node.type ≠ .attribute
  children : node.childCount = 0
  attributes : node.attrCount = 0

section Creating

variable {a : Assembly τ} {done : List Nat} {frames : List Frame} {node : RawNode τ} (sound : Sound a done frames)
  (bare : node.Bare) (small : a.tree.nodes.length < 2 ^ 32)

include sound bare in
/-- The pending pairs are completed nodes. -/
theorem Sound.takes :
    (node.takes a.pendingAttrs).attrCount % 2 = 0 ∧
      Lists a.tree.links (node.takes a.pendingAttrs).firstAttr (node.takes a.pendingAttrs).attrCount done := by
  unfold RawNode.takes
  split
  · rw [bare.attributes]
    exact ⟨rfl, nofun⟩
  · exact ⟨sound.pairs, .of_le sound.pending sound.linked⟩

include sound small

theorem Sound.completed_pushNode : Completed (a.pushNode node).tree done := by
  apply sound.completed.mono
  · exact fun index member => pushNode_before a node small (sound.completed.lt member)
  · exact links_pushNode a node small ▸ List.prefix_refl _

/-- The frames do not notice the new node, nor that it is completed. -/
theorem Sound.waiting_pushNode {done' : List Nat} (more : ∀ index ∈ done, index ∈ done')
    (fresh : ∀ index ∈ done', index ∉ done → a.tree.nodes.length ≤ index) :
    Waiting (a.pushNode node).tree done' a.tree.nodes.length frames := by
  apply sound.waiting.mono _ _ more fresh
  · exact fun index less => pushNode_before a node small less
  · exact links_pushNode a node small ▸ List.prefix_refl _

include bare

/-- A node that is complete as soon as it is there. -/
theorem Sound.leaf :
    Sound (a.pushNode node) (a.tree.nodes.length :: done) frames ∧
      (a.pushNode node).tree.links.length + holds frames < (a.pushNode node).tree.nodes.length := by
  obtain ⟨pairs, attributes⟩ := sound.takes bare
  have links := links_pushNode a node small
  have none := count_pushNode a node small
  have size := a.length_pushNode node
  have counted := sound.counted
  have childless : (node.takes a.pendingAttrs).childCount = 0 := (childCount_takes ..).trans bare.children
  have waiting : Waiting (a.pushNode node).tree (a.tree.nodes.length :: done) a.tree.nodes.length frames := by
    apply sound.waiting_pushNode small (fun _ member => List.mem_cons_of_mem _ member)
    intro index member new
    rcases List.mem_cons.mp member with rfl | member
    · exact Nat.le_refl _
    · exact absurd member new
  have whole : Sealed (a.pushNode node).tree done (node.takes a.pendingAttrs) := by
    refine ⟨⟨?_, pairs, ?_, ?_⟩, ?_, ?_⟩
    · rw [type_takes]
      exact bare.kind
    · rw [childless]
      exact fun _ => rfl
    · exact fun some => absurd childless some
    · rw [childless]
      exact nofun
    · rw [links]
      exact attributes
  refine ⟨⟨.cons (pushNode_last a node small) whole (sound.completed_pushNode small), ?_,
    waiting.weaken (by omega), by rw [none], fun some => absurd none some, ?_⟩, ?_⟩
  · rw [links]
    exact fun target member => List.mem_cons_of_mem _ (sound.linked target member)
  all_goals
    rw [links, size]
    omega

/-- The header of a container: its frame goes on top and waits for the first element. -/
theorem Sound.opens {kind : Kind} {len : Nat} (type : node.type = kind) (length : node.i64 = len)
    (aggregate : kind.isAggregate = true) (positive : len ≠ 0) (fits : kind.arity len < 2 ^ 32) :
    Sound (a.pushNode node) done (Parser.containerFrame kind len a.tree.nodes.length :: frames) := by
  obtain ⟨pairs, attributes⟩ := sound.takes bare
  have links := links_pushNode a node small
  have none := count_pushNode a node small
  have size := a.length_pushNode node
  have counted := sound.counted
  have childless : (node.takes a.pendingAttrs).childCount = 0 := (childCount_takes ..).trans bare.children
  have waiting : Waiting (a.pushNode node).tree done a.tree.nodes.length frames :=
    sound.waiting_pushNode small (fun _ member => member) fun _ member new => absurd member new
  have shape : (Parser.containerFrame kind len a.tree.nodes.length).Drives ∧
      (Parser.containerFrame kind len a.tree.nodes.length).state ≠ .mapValue ∧
      (Parser.containerFrame kind len a.tree.nodes.length).holds = 1 := by
    cases kind with
    | array | map | set | push => simp [Parser.containerFrame, Frame.Drives, Frame.holds]
    | _ => cases aggregate
  have is : Open (a.pushNode node).tree done (Parser.containerFrame kind len a.tree.nodes.length)
      (node.takes a.pendingAttrs) :=
    { drives := shape.1
      unfinished := Nat.pos_of_ne_zero positive
      fits := fits
      key := fun waits => absurd waits shape.2.1
      found := pushNode_last a node small
      type := (type_takes ..).trans type
      length := by rw [i64_takes, length]; omega
      count := by
        rw [childless]
        simp [Parser.containerFrame, Kind.arity]
      children := fun some => absurd childless some
      pairs := pairs
      attributes := by rw [links]; exact attributes }
  refine ⟨sound.completed_pushNode small, by rw [links]; exact sound.linked, ?_, by rw [none],
    fun some => absurd none some, ?_⟩
  · apply Waiting.container is
    · rw [size]
      exact Nat.lt_succ_self _
    · exact fun member => Nat.lt_irrefl _ (sound.completed.lt member)
    · exact waiting
  · rw [links, size, holds_cons, shape.2.2]
    omega

end Creating

/-- The header of an attribute block. -/
theorem Sound.blocks {a : Assembly τ} {done : List Nat} {frames : List Frame} (sound : Sound a done frames)
    {pairs : Nat} (positive : pairs ≠ 0) (fits : pairs < 2 ^ 32) :
    Sound a done (Parser.attributeFrame pairs :: .value :: frames) :=
  { sound with
    waiting := .block ⟨rfl, rfl, Nat.pos_of_ne_zero positive, fits, nofun⟩ sound.waiting
    counted := by
      rw [holds_cons, holds_cons, Frame.holds_value]
      simpa [Parser.attributeFrame, Frame.holds] using sound.counted }

/-! The loop of `parse_one`. -/

/-- The errors that the octets themselves can cause. -/
def ProtocolErrc.lexical : ProtocolErrc → Bool
  | .treeNotConsumed | .parserFailed | .invalidMapPairs | .invalidState => false
  | _ => true

def Token.Lexical : Token → Prop
  | .bad error _ => error.lexical = true
  | _ => True

section Lexical

variable {limits : Limits} {data : Bytes}

theorem withHeader_lexical {next : LengthHeader → Token} (rest : ∀ header, (next header).Lexical) :
    (withHeader limits data next).Lexical := by
  unfold withHeader
  split
  · rename_i error failed
    unfold parseLengthAfterType at failed
    dsimp only at failed
    repeat' split at failed
    all_goals cases failed
    all_goals rfl
  · trivial
  · exact rest _

theorem nextToken_lexical [FloatChars] (limits : Limits) (data : Bytes) : (nextToken limits data).Lexical := by
  unfold nextToken
  split
  · trivial
  · split
    · rfl
    · rename_i kind _
      cases kind with
      | null => unfold elementToken nullToken; repeat' split
                all_goals first | rfl | trivial
      | boolean => unfold elementToken booleanToken; repeat' split
                   all_goals first | rfl | trivial
      | bulkString | bulkError | verbatimString =>
        apply withHeader_lexical
        intro header
        dsimp only
        repeat' split
        all_goals first | rfl | trivial
      | simpleString | simpleError | integer | doubleNumber | bigNumber =>
        simp only [elementToken, lineToken]
        repeat' split
        all_goals first | rfl | trivial
      | array | map | set | push =>
        apply withHeader_lexical
        intro header
        unfold startContainer
        repeat' split
        all_goals first | rfl | trivial
      | «attribute» =>
        apply withHeader_lexical
        intro header
        unfold startAttribute
        repeat' split
        all_goals first | rfl | trivial

end Lexical

theorem RawNode.Bare.map {υ : Type} {node : RawNode τ} (bare : node.Bare) (f : Kind → τ → υ) : (node.map f).Bare :=
  ⟨bare.kind, bare.children, bare.attributes⟩

theorem Leaf.bare [FloatChars] {limits : Limits} {leaf : Leaf} (formed : leaf.WellFormed limits) : leaf.node.Bare := by
  cases formed with
  | @line kind text lineKind free short integer double =>
    refine ⟨?_, rfl, rfl⟩
    rintro rfl
    cases lineKind
  | null => exact ⟨nofun, rfl, rfl⟩
  | boolean value => exact ⟨nofun, rfl, rfl⟩
  | @bulk kind numeral payload bulkKind length within verbatim =>
    refine ⟨?_, rfl, rfl⟩
    rintro rfl
    cases bulkKind
  | @typedNull kind numeral nullable length =>
    refine ⟨?_, rfl, rfl⟩
    rintro rfl
    rcases nullable with nullable | nullable <;> cases nullable

/-- An admissible length, in elements, fits the counters of the node. -/
theorem Admissible.arity_lt {limits : Limits} {kind : Kind} {n : Nat} (admissible : Admissible limits kind n) :
    kind.arity n < 2 ^ 32 := by
  have representable := admissible.representable
  simp only [isRepresentableLength, if_neg (Int.not_lt.mpr (Int.natCast_nonneg n)), maxU32] at representable
  cases kind with
  | array | set | push => have := of_decide_eq_true representable; simp [Kind.arity]; omega
  | map | «attribute» => have := of_decide_eq_true representable; simp [Kind.arity]; omega
  | _ => cases representable

namespace Parser

/-- The stack between two passes: frames that wait for a value, with the value frame
on top or without it. -/
structure Standing (p : Parser β τ) (done : List Nat) (frames : List Frame) : Prop where
  sound : Sound p.toAssembly done frames
  shape : p.stack = .value :: frames ∨ p.stack = frames

/-- Nodes and unread octets together: a node takes at least one octet. -/
def load [Source β τ] (p : Parser β τ) : Nat := p.tree.nodes.length + p.data.length

/-- A call ends with a value, or with an error that the octets caused. -/
def Proper : Answer → Prop
  | .ok _ => True
  | .error (.protocol error) => error.lexical = true
  | .error _ => False

variable [Source β τ]

/-- What a pass leaves behind. -/
def Steps (load' : Nat) : Pass (Parser β τ) (Answer × Parser β τ) → Prop
  | .again p => p.load ≤ load' ∧ p.stack ≠ [] ∧ ∃ done frames, p.Standing done frames
  | .leave (answer, p) => p.load ≤ load' ∧ Proper answer ∧ (∃ done frames, p.Standing done frames) ∧
      ∀ root, answer = .ok (some root) → ∃ earlier, Sound p.toAssembly (root :: earlier) []

theorem settle_steps {p : Parser β τ} {childIdx load' : Nat} {earlier : List Nat} {frames : List Frame}
    (sound : Sound p.toAssembly (childIdx :: earlier) frames)
    (spare : p.tree.links.length + holds frames < p.tree.nodes.length) (small : p.tree.nodes.length < 2 ^ 32)
    (within : p.load ≤ load') : Steps load' (settle (p.attachToParent childIdx frames)) := by
  have attaches := attachToParent_attaches sound spare small
  have size := attachToParent_size p childIdx frames
  have input := attachToParent_input p childIdx frames
  have kept : (p.attachToParent childIdx frames).2.load = p.load := by
    simp only [load, data, size, input]
  generalize p.attachToParent childIdx frames = settled at attaches kept ⊢
  rcases settled with ⟨stop | _ | root, q⟩
  · exact attaches.elim
  · obtain ⟨done, frames', stack, sound'⟩ := attaches
    refine ⟨kept ▸ within, ?_, done, frames', sound', .inl stack⟩
    rw [stack]
    exact List.cons_ne_nil _ _
  · obtain ⟨stack, earlier', sound'⟩ := attaches
    refine ⟨kept ▸ within, trivial, ⟨root :: earlier', [], sound', .inr stack⟩, ?_⟩
    intro other same
    cases same
    exact ⟨earlier', sound'⟩

theorem load_consume (p : Parser β τ) (used : Nat) :
    (p.consume used).load = p.tree.nodes.length + (p.data.length - used) := by
  rw [load, data_consume, List.length_drop]
  rfl

/-- A node that is complete at once goes to the frames below. -/
theorem leaf_steps {p q : Parser β τ} {done : List Nat} {frames : List Frame} {node : RawNode τ} {used load' : Nat}
    (sound : Sound p.toAssembly done frames) (bare : node.Bare) (assembly : q.toAssembly = p.pushNode node)
    (octets : q.data = p.data.drop used) (positive : 0 < used) (inside : used ≤ p.data.length)
    (within : p.load ≤ load') (small : load' < 2 ^ 32) :
    Steps load' (settle (q.attachToParent p.tree.nextIndex frames)) := by
  have bound : p.tree.nodes.length + p.data.length ≤ load' := within
  have index : p.tree.nextIndex = p.tree.nodes.length := u32_of_lt (by omega)
  obtain ⟨pushed, spare⟩ := sound.leaf bare (by omega)
  have size := p.toAssembly.length_pushNode node
  rw [← assembly] at pushed spare size
  rw [index]
  apply settle_steps pushed spare
  · omega
  · rw [load, octets, List.length_drop]
    omega

variable [FloatChars]

theorem parsePass_steps_value {p : Parser β τ} {done : List Nat} {frames : List Frame} {load' : Nat}
    (sound : Sound p.toAssembly done frames) (stack : p.stack = .value :: frames) (within : p.load ≤ load')
    (small : load' < 2 ^ 32) : Steps load' p.parsePass := by
  have bound : p.tree.nodes.length + p.data.length ≤ load' := within
  have spelled := nextToken_spells p.limits p.data
  have lexical := nextToken_lexical p.limits p.data
  have inside := nextToken_within p.limits p.data
  rw [parsePass_value (topsValue_value stack)]
  generalize nextToken p.limits p.data = token at spelled lexical inside ⊢
  cases token with
  | more => exact ⟨within, trivial, ⟨done, frames, sound, .inl stack⟩, nofun⟩
  | bad error used =>
    refine ⟨?_, lexical, ⟨done, frames, sound, .inl stack⟩, nofun⟩
    show (p.consume used).load ≤ load'
    rw [load_consume]
    omega
  | leaf node used =>
    obtain ⟨leaf, formed, -, -, rfl⟩ := spelled
    obtain ⟨positive, inside, -⟩ := inside
    simp only [perform, proceed, stack_consume, stack, List.tail_cons]
    exact leaf_steps sound ((Leaf.bare formed).map _) rfl (data_consume p used) positive inside within small
  | container kind n used =>
    obtain ⟨numeral, aggregate, -, admissible, -, -⟩ := spelled
    obtain ⟨positive, inside⟩ := inside
    have bare : ((containerNode kind n p.tree.nextLink).map (Source.text p.input)).Bare := by
      refine ⟨?_, rfl, rfl⟩
      rintro rfl
      cases aggregate
    by_cases empty : n = 0
    · simp only [perform, if_pos empty, proceed, stack_consume, stack, List.tail_cons]
      exact leaf_steps sound bare rfl (data_consume p used) positive inside within small
    · have index : p.tree.nextIndex = p.tree.nodes.length := u32_of_lt (by omega)
      simp only [perform, if_neg empty, proceed, stack, List.tail_cons, index]
      refine ⟨?_, List.cons_ne_nil _ _, done, _,
        sound.opens bare (by omega) rfl rfl aggregate empty admissible.arity_lt, .inr rfl⟩
      show (p.toAssembly.pushNode _).tree.nodes.length + (p.consume used).data.length ≤ _
      rw [Assembly.length_pushNode, data_consume, List.length_drop]
      omega
  | attributes n used =>
    obtain ⟨numeral, -, admissible, -, -⟩ := spelled
    have less : (p.consume used).load ≤ load' := by
      rw [load_consume]
      omega
    by_cases empty : n = 0
    · simp only [perform, if_pos empty, proceed]
      refine ⟨less, ?_, done, frames, sound, .inl stack⟩
      rw [stack]
      exact List.cons_ne_nil _ _
    · simp only [perform, if_neg empty, proceed]
      refine ⟨less, List.cons_ne_nil _ _, done, _, sound.blocks empty admissible.lt, .inr ?_⟩
      rw [stack]

omit [Source β τ] [FloatChars] in
/-- Frames that wait for a value have another frame on top. -/
theorem covered_of_waiting {tree : RawTree τ} {done : List Nat} {bound : Nat} {frames : List Frame}
    (waiting : Waiting tree done bound frames) : topsValue frames = false := by
  cases waiting with
  | bottom => rfl
  | container is older apart below => simp [topsValue, is.drives.neither.1]
  | block is below => simp [topsValue, is.state]

theorem parsePass_steps {p : Parser β τ} {done : List Nat} {frames : List Frame} {load' : Nat}
    (standing : p.Standing done frames) (present : p.stack ≠ []) (within : p.load ≤ load') (small : load' < 2 ^ 32) :
    Steps load' p.parsePass := by
  rcases standing.shape with stack | stack
  · exact parsePass_steps_value standing.sound stack within small
  · have covered : topsValue p.stack = false := by
      rw [stack]
      exact covered_of_waiting standing.sound.waiting
    rw [parsePass_covered present covered]
    refine ⟨within, List.cons_ne_nil _ _, done, frames, standing.sound, .inl ?_⟩
    rw [← stack]

omit [Source β τ] [FloatChars] in
/-- The parser as its loop starts. -/
theorem Standing.entered {p : Parser β τ} {done : List Nat} {frames : List Frame} (standing : p.Standing done frames) :
    Standing { p with stack := if p.stack = [] then [.value] else p.stack } done frames := by
  refine ⟨standing.sound, ?_⟩
  by_cases empty : p.stack = []
  · rcases standing.shape with stack | stack
    · rw [empty] at stack
      cases stack
    · rw [if_pos empty, ← stack, empty]
      exact .inl rfl
  · rw [if_neg empty]
    exact standing.shape

/-- What a call of `parse_one` leaves behind: the flags and the octets cause every error. -/
theorem parseOne_steps {p : Parser β τ} {done : List Nat} {frames : List Frame} {load' : Nat}
    (standing : p.Standing done frames) (within : p.load ≤ load') (small : load' < 2 ^ 32) :
    p.parseOne.2.load ≤ load' ∧ (∃ done frames, p.parseOne.2.Standing done frames) ∧
      (∀ stop, p.parseOne.1 = .error stop →
        ∃ error, stop = .protocol error ∧ error ≠ .invalidState ∧ error ≠ .invalidMapPairs) ∧
      ∀ root, p.parseOne.1 = .ok (some root) → ∃ earlier, Sound p.parseOne.2.toAssembly (root :: earlier) [] := by
  unfold parseOne
  split
  · refine ⟨within, ⟨done, frames, standing⟩, ?_, nofun⟩
    rintro stop same
    cases same
    exact ⟨_, rfl, nofun, nofun⟩
  split
  · refine ⟨within, ⟨done, frames, standing⟩, ?_, nofun⟩
    rintro stop same
    cases same
    exact ⟨_, rfl, nofun, nofun⟩
  have steps := run_invariant parsePass_decreases (fun q : Parser β τ => Steps load' (.again q))
    (fun result => Steps load' (.leave result))
    (by
      rintro q next ⟨within, present, done, frames, standing⟩ again
      exact again ▸ parsePass_steps standing present within small)
    (by
      rintro q result ⟨within, present, done, frames, standing⟩ left
      exact left ▸ parsePass_steps standing present within small)
    { p with stack := if p.stack = [] then [.value] else p.stack }
    ⟨within, by dsimp only; split <;> first | exact List.cons_ne_nil _ _ | assumption, done, frames, standing.entered⟩
  rw [parseLoop]
  generalize run parsePass_decreases { p with stack := if p.stack = [] then [.value] else p.stack } = result at steps ⊢
  obtain ⟨within, proper, standing, root⟩ := steps
  refine ⟨within, standing, ?_, root⟩
  intro stop failed
  rw [failed] at proper
  cases stop with
  | protocol error =>
    refine ⟨error, rfl, ?_, ?_⟩
    · rintro rfl
      cases proper
    · rintro rfl
      cases proper
  | assertion => cases proper
  | outOfRange => cases proper

end Parser

end Rediscoro.Resp3

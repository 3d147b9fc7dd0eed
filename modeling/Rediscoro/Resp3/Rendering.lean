import Rediscoro.Resp3.Streams

/-! Messages as they are shown.

A message is built when its last octets have arrived. The texts of its earlier nodes may be
in storage that is gone by then, and what is shown for them is whatever is found there. The
rest of the message is not affected: its containers, its numbers, and its value at the top,
whose node is made in the very call that returns the message.
-/

set_option autoImplicit false

namespace Rediscoro.Resp3

open Rediscoro.Semantics

/-- What is shown for a message: the same up to the texts, with the same value at the top, and all of it the same
if the texts are `still`. -/
structure Message.Renders (still : Prop) (shown message : Message) : Prop where
  blank : shown.blank = message.blank
  bare : shown.bare = message.bare
  same : still → shown = message

theorem Message.map_bare_of_renders {still : Prop} {shown messages : List Message}
    (renders : List.Forall₂ (Message.Renders still) shown messages) :
    shown.map Message.bare = messages.map Message.bare := by
  induction renders with
  | nil => rfl
  | cons here _ ih => rw [List.map_cons, List.map_cons, here.bare, ih]

theorem Message.eq_of_renders {still : Prop} {shown messages : List Message}
    (renders : List.Forall₂ (Message.Renders still) shown messages) (quiet : still) : shown = messages := by
  induction renders with
  | nil => rfl
  | cons here _ ih => rw [here.same quiet, ih]

namespace Parser

/-- The last node was made in the storage that the buffer has. -/
def Recent (p : Parser Buffer View) : Prop :=
  ∀ node, p.tree.nodes.getLast? = some node → node.text.storage = p.input.storage

theorem storage_perform (p : Parser Buffer View) (token : Token) :
    (p.perform token).2.input.storage = p.input.storage := by
  cases token with
  | container type len used =>
    simp only [perform]
    split <;> rfl
  | _ => rfl

/-- A node that was pushed is the last one as long as only windows change. -/
theorem recent_pushed {p q : Parser Buffer View} (node : RawNode Span) (storage : q.input.storage = p.input.storage)
    (cores : q.tree.nodes.map RawNode.core =
      (p.pushNode (node.map (Source.text p.input))).tree.nodes.map RawNode.core) : q.Recent := by
  rw [cores_pushNode] at cores
  intro last found
  have same := congrArg List.getLast? cores
  rw [List.getLast?_map, found, Option.map_some, List.map_append, List.map_singleton, List.getLast?_concat] at same
  have core : last.core = (node.map (Source.text p.input)).core := Option.some.inj same
  have text : last.core.text = (node.map (Source.text p.input)).core.text := by rw [core]
  rw [storage]
  exact congrArg View.storage text

variable [FloatChars]

theorem parsePass_storage (p : Parser Buffer View) : (after p.parsePass).input.storage = p.input.storage := by
  by_cases empty : p.stack = []
  · simp only [parsePass, empty]
    rfl
  · cases top : topsValue p.stack with
    | true =>
      rw [parsePass_value top, input_proceed]
      exact storage_perform p _
    | false =>
      rw [parsePass_covered empty top]
      rfl

/-- The pass that returns a root has pushed a node. -/
theorem parsePass_recent {p q : Parser Buffer View} {root : Nat} (left : p.parsePass = .leave (.ok (some root), q)) :
    q.Recent := by
  have storage := parsePass_storage p
  rw [left] at storage
  by_cases empty : p.stack = []
  · simp only [parsePass, empty] at left
    cases left
  · cases top : topsValue p.stack with
    | true =>
      rw [parsePass_value top] at left
      have cores := cores_proceed (p.perform (nextToken p.limits p.data))
      rw [left] at cores
      generalize nextToken p.limits p.data = token at left cores
      -- a leaf and an empty container push the node that completes the root; nothing else returns one
      cases token with
      | more | bad error used | attributes pairs used => cases left
      | container type len used =>
        by_cases none : len = 0
        · simp only [perform, if_pos none] at cores
          exact recent_pushed _ storage cores
        · simp only [perform, if_neg none] at left
          cases left
      | leaf node used => exact recent_pushed node storage cores
    | false =>
      rw [parsePass_covered empty top] at left
      cases left

theorem parseOne_recent {p q : Parser Buffer View} {root : Nat} (parsed : p.parseOne = (.ok (some root), q)) :
    q.Recent := by
  unfold parseOne at parsed
  split at parsed
  · cases parsed
  split at parsed
  · cases parsed
  have post := run_invariant parsePass_decreases (fun _ : Parser Buffer View => True)
    (fun result => ∀ root, result.1 = .ok (some root) → result.2.Recent) (fun _ _ _ _ => trivial)
    (by
      rintro r ⟨answer, q⟩ - leave root rfl
      exact parsePass_recent leave)
    { p with stack := if p.stack = [] then [.value] else p.stack } trivial root
  rw [← parseLoop, parsed] at post
  exact post rfl

theorem drain_recent (p : Parser Buffer View) : ∀ root ∈ p.drain.roots, root.parser.Recent := by
  induction p using drain_induction with
  | root p q root parsed ih =>
    rw [drain_root parsed]
    exact List.forall_mem_cons.mpr ⟨parseOne_recent parsed, ih⟩
  | last p q answer parsed last =>
    rw [drain_end parsed last]
    exact List.forall_mem_nil _

end Parser

/-! What a root is shown as. -/

section Roots

variable [FloatChars] {limits : Limits} {fuel : Nat} {memory later : Memory}

omit [FloatChars] in
/-- The text at the top of a root is found in any memory. -/
theorem node_recent {p : Parser Buffer View} (recent : p.Recent) {index : Nat} {raw : RawNode View}
    (found : p.tree.nodes[index]? = some raw)
    (place : raw.type.isAggregate = true ∨ index + 1 = p.tree.nodes.length) :
    raw.map (p.input.textOf memory) = raw.map (p.input.textOf later) := by
  have texts : p.input.textOf memory raw.type raw.text = p.input.textOf later raw.type raw.text := by
    rcases place with aggregate | last
    · have plain : raw.type.textual = false := by
        cases kind : raw.type <;> rw [kind] at aggregate <;> first | rfl | cases aggregate
      simp [Buffer.textOf, plain]
    · have here : raw.text.storage = p.input.storage := by
        apply recent
        rw [List.getLast?_eq_getElem?, ← last]
        exact found
      rw [Buffer.textOf, Buffer.textOf, Buffer.look_here here memory later]
  exact congrArg (fun text => { raw with text := text }) texts

/-- A root with the tree of a sentence, whose texts may be lost, is built to its message in as many passes. -/
theorem build_rendered {root : Root Buffer View} {sentence : Sentence} (formed : sentence.WellFormed limits)
    (small : sentence.encode.length < 2 ^ 32) (built : sentence.builtIn fuel = true)
    (same : (root.index, root.parser.contents later) = sentence.root) (inside : root.parser.Inside)
    (recent : root.parser.Recent) (colons : root.parser.Colons memory) :
    ∃ shown, build fuel (root.parser.contents memory) root.index = some (.ok shown) ∧
      shown.blank = (sentence.message fuel).blank ∧ shown.bare = (sentence.message fuel).bare := by
  have told := Sentence.build_message built
  have whole := (Sentence.whole formed small).1
  obtain ⟨message, node, builds, found, initial, -, place⟩ := Sentence.builds_node formed small
  rw [Sentence.Builds.unique builds ⟨fuel, told⟩] at initial
  rw [← same] at told whole found place
  have legible := Parser.legible_colons inside colons whole.legible
  -- Both trees are built in step with the blanked one.
  have blanked := build_blank legible fuel root.index
  rw [root.parser.blank_contents memory later, build_blank whole.legible, told] at blanked
  obtain ⟨answer, shownAs, blank⟩ := Option.map_eq_some_iff.mp blanked.symm
  cases answer with
  | error fault => cases blank
  | ok shown =>
    refine ⟨shown, shownAs, Except.ok.inj blank, ?_⟩
    obtain ⟨other, yields, node', found', initial'⟩ := (whole.map legible).yields
    obtain ⟨enough, done⟩ := yields.build
    obtain rfl : other = shown := Except.ok.inj (iterate_deterministic done shownAs)
    -- The nodes at the top are the same.
    simp only [Parser.contents, RawTree.map, List.getElem?_map, List.length_map] at found found' place
    obtain ⟨raw, there, rfl⟩ := Option.map_eq_some_iff.mp found
    rw [there, Option.map_some] at found'
    obtain rfl := Option.some.inj found'
    rw [@node_recent memory later _ recent _ _ there place, initial] at initial'
    exact (Except.ok.inj initial').symm

variable {still : Prop} {p : Parser Buffer View} {kept : Parser Bytes Text} {sentences : List Sentence}

/-- Roots that were returned for sentences are shown as the messages of these. -/
theorem Parser.Recalls.rendered (recalls : p.Recalls still kept) (inside : p.Inside) (colons : p.Colons memory)
    (trees : kept.drain.trees = sentences.map Sentence.root)
    (formed : ∀ sentence ∈ sentences, sentence.WellFormed limits)
    (small : ∀ sentence ∈ sentences, sentence.encode.length < 2 ^ 32)
    (built : ∀ sentence ∈ sentences, sentence.builtIn fuel = true) :
    ∃ messages, (p.drain.roots.map fun root => build fuel (root.parser.contents memory) root.index) =
        messages.map (fun message => some (.ok message)) ∧
      List.Forall₂ (Message.Renders still) messages (sentences.map (Sentence.message fuel)) := by
  obtain ⟨⟨later, once⟩, always⟩ := recalls.trees
  have within := (drain_invariant Inside (fun _ => parseOne_inside) (fun p _ => reclaim_inside p) inside).2
  have recent := drain_recent p
  have found := (drain_colons colons).2
  rw [trees] at once always
  have exact := fun quiet => always quiet memory
  unfold Drained.contents at once exact
  clear always trees recalls inside colons
  generalize p.drain.roots = roots at once exact within recent found
  -- Induction on the sentences: each has its root.
  induction sentences generalizing roots with
  | nil =>
    rw [List.map_nil, List.map_eq_nil_iff] at once
    subst once
    exact ⟨[], rfl, .nil⟩
  | cons sentence rest ih =>
    cases roots with
    | nil => cases once
    | cons root roots =>
      simp only [List.map_cons, List.cons.injEq] at once exact
      simp only [List.forall_mem_cons] at formed small built within recent found
      obtain ⟨shown, shownAs, blank, bare⟩ :=
        build_rendered formed.1 small.1 built.1 once.1 within.1 recent.1 found.1
      obtain ⟨messages, shownRest, renders⟩ := ih formed.2 small.2 built.2 roots once.2
        (fun quiet => (exact quiet).2) within.2 recent.2 found.2
      refine ⟨shown :: messages, by rw [List.map_cons, List.map_cons, shownAs, shownRest], ?_⟩
      refine .cons ⟨blank, bare, fun quiet => ?_⟩ renders
      have told := Sentence.build_message built.1
      rw [← (exact quiet).1] at told
      exact Except.ok.inj (Option.some.inj (shownAs.symm.trans told))

end Roots

/-! Reading in pieces. -/

namespace Parser

variable [FloatChars] {still : Prop} {first kept : Parser Bytes Text} {p : Parser Buffer View}
  {octets chunk : Bytes} {trees : List (Nat × RawTree Text)}

/-- The parser has read the octets and returned the trees, and returns none without more octets. -/
structure Follows (still : Prop) (first : Parser Bytes Text) (octets : Bytes) (trees : List (Nat × RawTree Text))
    (kept : Parser Bytes Text) (p : Parser Buffer View) : Prop where
  inside : p.Inside
  recalls : p.Recalls still kept
  takes : Takes first octets trees kept
  dry : kept.drain.trees = []

theorem follows_reset (still : Prop) (p : Parser Buffer View) :
    Follows still (p.reset.copy .zeroed) [] [] (p.reset.copy .zeroed) p.reset where
  inside := List.forall_mem_nil _
  recalls := ⟨⟨.zeroed, rfl⟩, fun _ _ => rfl⟩
  takes := takes_start _
  dry := by
    have idle : (p.reset.copy .zeroed).Idle := ⟨rfl, rfl, rfl⟩
    rw [drain_end (parseOne_empty idle p.input.data_reset) (by simp)]
    rfl

section Piece

variable (follows : Follows still first octets trees kept p) (fits : chunk.length ≤ (p.input.prepare 4096).available)
  (undisturbed : still → p.Undisturbed 4096)

include follows fits undisturbed

theorem Follows.fed : (p.feed 4096 chunk).Inside ∧ (p.feed 4096 chunk).Recalls still (kept.append chunk) :=
  ⟨feed_inside follows.inside, follows.recalls.feed fits follows.inside undisturbed⟩

/-- A piece behind which the parser asks for more. -/
theorem Follows.next {value : Option Nat} (asked : (p.feed 4096 chunk).drain.answer = .ok value) :
    Follows still first (octets ++ chunk) (trees ++ (kept.append chunk).drain.trees) (kept.append chunk).drain.parser
      (p.feed 4096 chunk).drain.parser := by
  obtain ⟨inside, recalls⟩ := follows.fed fits undisturbed
  obtain ⟨answer, behind⟩ := recalls.drain
  rw [asked] at answer
  refine ⟨drain_inside inside, behind, follows.takes.next answer, ?_⟩
  rw [drain_end (parseOne_waits (drain_waits answer).2) (by simp)]
  rfl

end Piece

section Values

variable {values : List Sentence} {n : Nat} {stream rest : Bytes}
  (follows : Follows still first octets ((values.take n).map Sentence.root) kept p) (within : n ≤ values.length)
  (fits : chunk.length ≤ (p.input.prepare 4096).available) (undisturbed : still → p.Undisturbed 4096)
  (whole : (first.append stream).drain.trees = values.map Sentence.root) (arrives : octets ++ (chunk ++ rest) = stream)
  (bounded : first.Bounded (first.input.length + (octets ++ chunk).length + rest.length))

include follows within fits undisturbed whole arrives bounded

/-- A piece of a stream that is parsed to some values returns the next of them. -/
theorem Follows.returned : n + (p.feed 4096 chunk).drain.roots.length ≤ values.length ∧
    (kept.append chunk).drain.trees =
      ((values.drop n).take (p.feed 4096 chunk).drain.roots.length).map Sentence.root := by
  obtain ⟨-, recalls⟩ := follows.fed fits undisturbed
  have onward := follows.takes.isPrefix bounded
  have split : values.map Sentence.root = (values.take n).map Sentence.root ++ (values.drop n).map Sentence.root := by
    rw [← List.map_append, List.take_append_drop]
  rw [arrives, whole, split, List.prefix_append_right_inj] at onward
  have size := onward.length_le
  rw [List.length_map, List.length_drop, recalls.count] at size
  rw [List.prefix_iff_eq_take, ← List.map_take, recalls.count] at onward
  exact ⟨by omega, onward⟩

theorem Follows.onward {value : Option Nat} (asked : (p.feed 4096 chunk).drain.answer = .ok value) :
    Follows still first (octets ++ chunk)
      ((values.take (n + (p.feed 4096 chunk).drain.roots.length)).map Sentence.root) (kept.append chunk).drain.parser
      (p.feed 4096 chunk).drain.parser := by
  obtain ⟨-, trees⟩ := follows.returned within fits undisturbed whole arrives bounded
  have next := follows.next fits undisturbed asked
  rwa [trees, ← List.map_append, ← List.take_add] at next

/-- Through any memory that has the colons, what a piece returns is shown as the next values. -/
theorem Follows.rendered {fuel : Nat} {memory : Memory} {limits : Limits}
    (formed : ∀ value ∈ values, value.WellFormed limits) (small : ∀ value ∈ values, value.encode.length < 2 ^ 32)
    (built : ∀ value ∈ values, value.builtIn fuel = true) (colons : (p.feed 4096 chunk).Colons memory) :
    ∃ messages, ((p.feed 4096 chunk).drain.roots.map fun root =>
        build fuel (root.parser.contents memory) root.index) = messages.map (fun message => some (.ok message)) ∧
      List.Forall₂ (Message.Renders still) messages
        (((values.drop n).take (p.feed 4096 chunk).drain.roots.length).map (Sentence.message fuel)) := by
  obtain ⟨inside, recalls⟩ := follows.fed fits undisturbed
  obtain ⟨-, trees⟩ := follows.returned within fits undisturbed whole arrives bounded
  have known (value : Sentence) (member : value ∈ (values.drop n).take (p.feed 4096 chunk).drain.roots.length) :
      value ∈ values := List.mem_of_mem_drop (List.mem_of_mem_take member)
  exact recalls.rendered inside colons trees (fun value member => formed value (known value member))
    (fun value member => small value (known value member)) fun value member => built value (known value member)

end Values

section Arrivals

variable {fuel n m : Nat} {values : List Sentence} (stream : Stream fuel first values)
  (follows : Follows still first octets ((values.take n).map Sentence.root) kept p) (within : n ≤ values.length)
  (known : m ≤ values.length)

include stream follows within known

/-- The values that were returned are those that have arrived to their ends. -/
theorem Follows.arrived_iff (front : octets <+: Sentence.encodeAll values) :
    m ≤ n ↔ Sentence.encodeAll (values.take m) <+: octets := by
  have short := front.length_le.trans stream.short
  have whole := (follows.takes.later [] (.inr (by rw [stream.empty]; simpa using short))).1
  have nothing : kept.append [] = kept := by rw [append, List.append_nil]
  rw [nothing, follows.dry, List.append_nil, List.append_nil] at whole
  rw [← stream.arrived_iff front known, ← whole, List.length_map, List.length_take, Nat.min_eq_left within]

/-- A piece returns those that are in it to their ends. -/
theorem Follows.returned_iff (fits : chunk.length ≤ (p.input.prepare 4096).available)
    (undisturbed : still → p.Undisturbed 4096) (front : octets ++ chunk <+: Sentence.encodeAll values) :
    m ≤ n + (p.feed 4096 chunk).drain.roots.length ↔ Sentence.encodeAll (values.take m) <+: octets ++ chunk := by
  obtain ⟨-, recalls⟩ := follows.fed fits undisturbed
  have short := front.length_le.trans stream.short
  rw [List.length_append] at short
  have whole := (follows.takes.later chunk (.inr (by rw [stream.empty]; simpa using short))).1
  rw [← stream.arrived_iff front known, ← whole, List.length_append, List.length_map, List.length_take,
    Nat.min_eq_left within, recalls.count]

end Arrivals

end Parser

end Rediscoro.Resp3

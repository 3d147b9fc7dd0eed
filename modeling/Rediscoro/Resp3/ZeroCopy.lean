import Rediscoro.Resp3.Drain

/-! The zero-copy parser against the copying one.

`copy` looks through every view of the repository's parser and so gives the
copying parser in the same state; what it finds in storage that is gone is an
argument. A call of `parse_one` leaves the buffer where it is, so it commutes
with `copy` whatever happened before; a chunk that is fed commutes with it as
long as the buffer stays in place, or no text of the unfinished message is shown.
-/

set_option autoImplicit false

namespace Rediscoro.Resp3

open Rediscoro.Semantics

/-- The text of a node as a message built from it shows it. -/
def Buffer.textOf (memory : Memory) (buf : Buffer) (kind : Kind) (view : View) : Text :=
  if kind.textual then buf.look memory view else []

/-- A buffer, the octets it offers, and what its views denote. -/
def Buffer.Offers (memory : Memory) (texts : Kind → View → Text) (buf : Buffer) (octets : Bytes) : Prop :=
  buf.textOf memory = texts ∧ buf.data = octets

theorem Buffer.offers_mirror (memory : Memory) (texts : Kind → View → Text) :
    Mirror texts (Buffer.Offers memory texts) where
  data := fun relation => relation.2
  consume := by
    rintro buf octets n ⟨same, rfl⟩
    exact ⟨same, buf.data_consume n⟩
  text := by
    rintro buf octets span kind ⟨rfl, rfl⟩ within
    have read : buf.read (buf.slice span.offset span.length) =
        some ((buf.data.drop span.offset).take span.length) := buf.read_slice within
    simp only [Source.text, Buffer.textOf, Buffer.look, read]
    rfl

/-- The tree with its views looked through, as whoever is given the message does. -/
def Parser.contents (memory : Memory) (p : Parser Buffer View) : RawTree Text := p.tree.map (p.input.textOf memory)

/-- The roots of a drained parser with their trees. -/
def Drained.trees (drained : Drained Bytes Text) : List (Nat × RawTree Text) :=
  drained.roots.map fun root => (root.index, root.parser.tree)

/-- The trees of the roots, each looked through when it was returned. -/
def Drained.contents (memory : Memory) (drained : Drained Buffer View) : List (Nat × RawTree Text) :=
  drained.roots.map fun root => (root.index, root.parser.contents memory)

namespace Parser

/-- The copying parser in the same state. -/
def copy (memory : Memory) (p : Parser Buffer View) : Parser Bytes Text :=
  p.recast (p.input.textOf memory) p.input.data

/-- More octets behind those the copying parser has. -/
def append (p : Parser Bytes Text) (more : Bytes) : Parser Bytes Text := { p with input := p.input ++ more }

theorem copy_reclaim (memory : Memory) (p : Parser Buffer View) :
    p.reclaim.copy memory = (p.copy memory).reclaim :=
  congrArg (clear (p.copy memory)) p.input.data_compact

section Calls

variable [FloatChars] (memory : Memory)

theorem parseOne_copy (p : Parser Buffer View) :
    (p.copy memory).parseOne = (p.parseOne.1, p.parseOne.2.copy memory) := by
  have offers : Buffer.Offers memory (p.input.textOf memory) p.input p.input.data := ⟨rfl, rfl⟩
  obtain ⟨octets, ⟨texts, rfl⟩, same⟩ :=
    parseOne_recast (Buffer.offers_mirror memory (p.input.textOf memory)) offers
  rw [copy, same, copy, texts]

theorem parseOne_copy_of {p q : Parser Buffer View} {answer : Answer} (parsed : p.parseOne = (answer, q)) :
    (p.copy memory).parseOne = (answer, q.copy memory) := by
  rw [parseOne_copy, parsed]

def copyRoot (root : Root Buffer View) : Root Bytes Text := ⟨root.index, root.parser.copy memory⟩

/-- The whole loop commutes with `copy`: no octet is committed inside it. -/
theorem drain_copy (p : Parser Buffer View) :
    (p.copy memory).drain =
      ⟨p.drain.roots.map (copyRoot memory), p.drain.answer, p.drain.parser.copy memory⟩ := by
  induction p using drain_induction with
  | root p q root parsed ih =>
    rw [drain_root (parseOne_copy_of memory parsed), drain_root parsed, ← copy_reclaim, ih]
    rfl
  | last p q answer parsed last =>
    rw [drain_end (parseOne_copy_of memory parsed) last, drain_end parsed last]
    rfl

/-! Views never reach beyond the committed octets, and a call makes them only in
the storage the buffer has. -/

/-- The views end below the write position, in storage that the buffer has or had. -/
def Inside (p : Parser Buffer View) : Prop :=
  ∀ node ∈ p.tree.nodes,
    node.text.offset + node.text.length ≤ p.input.writePos ∧ node.text.storage ≤ p.input.storage

/-- No text that holds an octet points into storage that is gone. -/
def Live (p : Parser Buffer View) : Prop :=
  ∀ node ∈ p.tree.nodes, node.text.length ≠ 0 → node.text.storage = p.input.storage

instance (p : Parser Buffer View) : Decidable p.Live := inferInstanceAs (Decidable (∀ node ∈ _, _))

theorem parseOne_inside {p : Parser Buffer View} (inside : p.Inside) : p.parseOne.2.Inside := by
  obtain ⟨⟨writePos, storage⟩, texts⟩ := parseOne_texts
    (fun buf : Buffer => buf.writePos = p.input.writePos ∧ buf.storage = p.input.storage)
    (fun _ (view : View) => view.offset + view.length ≤ p.input.writePos ∧ view.storage ≤ p.input.storage)
    (fun _ same => same)
    (by
      intro buf span _ same within
      have size := buf.data_length
      have order := buf.read_le
      simp only [Source.data, Source.text, Buffer.slice, Buffer.size] at within size ⊢
      omega)
    ⟨rfl, rfl⟩ inside
  rw [Inside, writePos, storage]
  exact texts

theorem parseOne_live {p : Parser Buffer View} (live : p.Live) : p.parseOne.2.Live := by
  obtain ⟨same, texts⟩ := parseOne_texts (fun buf : Buffer => buf.storage = p.input.storage)
    (fun _ (view : View) => view.length ≠ 0 → view.storage = p.input.storage)
    (fun _ same => same) (fun _ same _ _ => same) rfl live
  rw [Live, same]
  exact texts

omit [FloatChars] in
theorem reclaim_live (p : Parser Buffer View) : p.reclaim.Live := nofun

omit [FloatChars] in
theorem reclaim_inside (p : Parser Buffer View) : p.reclaim.Inside := nofun

theorem drain_live {p : Parser Buffer View} (live : p.Live) :
    p.drain.parser.Live ∧ ∀ root ∈ p.drain.roots, root.parser.Live :=
  drain_invariant Live (fun _ => parseOne_live) (fun p _ => reclaim_live p) live

theorem drain_inside {p : Parser Buffer View} (inside : p.Inside) : p.drain.parser.Inside :=
  (drain_invariant Inside (fun _ => parseOne_inside) (fun p _ => reclaim_inside p) inside).1

end Calls

/-! Feeding a chunk: room is prepared, and the chunk committed. -/

section Feed

variable (memory : Memory) {p : Parser Buffer View} {room : Nat} {chunk : Bytes}

theorem prepare_inside (inside : p.Inside) : { p with input := p.input.prepare room }.Inside := by
  intro node member
  obtain ⟨below, older⟩ := inside node member
  show _ ≤ (p.input.prepare room).writePos ∧ _ ≤ (p.input.prepare room).storage
  rw [p.input.writePos_prepare, p.input.storage_prepare]
  refine ⟨below, ?_⟩
  split
  · exact Nat.le_succ_of_le older
  · exact older

theorem commit_inside (inside : p.Inside) :
    { p with input := (p.input.write chunk).commit chunk.length }.Inside := by
  intro node member
  obtain ⟨below, older⟩ := inside node member
  exact ⟨Nat.le_trans below (p.input.writePos_le_commit_write chunk), older⟩

theorem feed_inside (inside : p.Inside) : (p.feed room chunk).Inside := commit_inside (prepare_inside inside)

theorem feed_live (live : p.Live)
    (settled : p.input.Grows room → ∀ node ∈ p.tree.nodes, node.text.length = 0) : (p.feed room chunk).Live := by
  intro node member some
  have same := live node member some
  show node.text.storage = (p.input.feed room chunk).storage
  rw [Buffer.storage_feed, if_neg, same]
  intro grows
  exact some (settled grows node member)

omit memory in
/-- Another buffer through which the texts are found as before. -/
theorem contents_input {memory later : Memory} {input : Buffer}
    (same : ∀ node ∈ p.tree.nodes, node.type.textual = true →
      input.look later node.text = p.input.look memory node.text) :
    { p with input := input }.contents later = p.contents memory := by
  have nodes : ∀ node ∈ p.tree.nodes, node.map (input.textOf later) = node.map (p.input.textOf memory) := by
    intro node member
    have read : input.textOf later node.type node.text = p.input.textOf memory node.type node.text := by
      unfold Buffer.textOf
      split
      · exact same node member ‹_›
      · rfl
    exact congrArg (fun text => { node with text := text }) read
  exact congrArg (fun nodes => { p.contents memory with nodes := nodes }) (List.map_congr_left nodes)

theorem contents_prepare
    (settled : p.input.Grows room → ∀ node ∈ p.tree.nodes, node.type.textual = true → node.text.length = 0) :
    { p with input := p.input.prepare room }.contents memory = p.contents memory := by
  apply contents_input
  intro node member textual
  by_cases grows : p.input.Grows room
  · simp only [Buffer.look, Buffer.read, settled grows node member textual, if_true]
  · rw [Buffer.prepare_of_not_grows grows]

theorem contents_commit (inside : p.Inside) :
    { p with input := (p.input.write chunk).commit chunk.length }.contents memory = p.contents memory :=
  contents_input fun node member _ => by rw [Buffer.look, Buffer.read_commit_write (inside node member).1, Buffer.look]

/-- Reading through the views gives the same texts before and after the chunk. -/
theorem contents_feed (inside : p.Inside)
    (settled : p.input.Grows room → ∀ node ∈ p.tree.nodes, node.type.textual = true → node.text.length = 0) :
    (p.feed room chunk).contents memory = p.contents memory :=
  (contents_commit memory (prepare_inside inside)).trans (contents_prepare memory settled)

theorem copy_of_contents {later : Memory} (fits : chunk.length ≤ (p.input.prepare room).available)
    (same : (p.feed room chunk).contents later = p.contents memory) :
    (p.feed room chunk).copy later = (p.copy memory).append chunk := by
  show { p.copy memory with
    tree := (p.feed room chunk).contents later, input := (p.input.feed room chunk).data } = _
  rw [same, p.input.data_feed fits]
  rfl

theorem copy_feed (fits : chunk.length ≤ (p.input.prepare room).available) (inside : p.Inside)
    (settled : p.input.Grows room → ∀ node ∈ p.tree.nodes, node.type.textual = true → node.text.length = 0) :
    (p.feed room chunk).copy memory = (p.copy memory).append chunk :=
  copy_of_contents memory fits (contents_feed memory inside settled)

/-- A buffer that moves takes the texts with it, if its old storage is remembered. -/
theorem exists_copy_feed (fits : chunk.length ≤ (p.input.prepare room).available) (inside : p.Inside) :
    ∃ later, (p.feed room chunk).copy later = (p.copy memory).append chunk := by
  by_cases grows : p.input.Grows room
  · refine ⟨p.input.remembered memory, copy_of_contents memory fits ?_⟩
    refine (contents_commit _ (prepare_inside inside)).trans (contents_input fun node member _ => ?_)
    obtain ⟨below, older⟩ := inside node member
    apply Buffer.look_remembered _ below
    rw [Buffer.storage_prepare, if_pos grows]
    omega
  · exact ⟨memory, copy_feed memory fits inside fun moved => absurd moved grows⟩

end Feed

/-! What a parser would hold if no text were ever lost. -/

/-- Preparing the room moves no text that a message would show. -/
def Undisturbed (room : Nat) (p : Parser Buffer View) : Prop :=
  p.input.Grows room → ∀ node ∈ p.tree.nodes, node.type.textual = true → node.text.length = 0

instance (room : Nat) (p : Parser Buffer View) : Decidable (p.Undisturbed room) :=
  inferInstanceAs (Decidable (_ → ∀ node ∈ _, _))

/-- The copying parser that has kept every text. If the texts are `still`, they are found whatever has become
of storage that is gone. -/
structure Recalls (still : Prop) (p : Parser Buffer View) (kept : Parser Bytes Text) : Prop where
  once : ∃ memory, p.copy memory = kept
  always : still → ∀ memory, p.copy memory = kept

namespace Recalls

variable {still : Prop} {p : Parser Buffer View} {kept : Parser Bytes Text} {room : Nat} {chunk : Bytes}

theorem feed (recalls : p.Recalls still kept) (fits : chunk.length ≤ (p.input.prepare room).available)
    (inside : p.Inside) (undisturbed : still → p.Undisturbed room) :
    (p.feed room chunk).Recalls still (kept.append chunk) where
  once := by
    obtain ⟨memory, same⟩ := recalls.once
    rw [← same]
    exact exists_copy_feed memory fits inside
  always quiet memory := by
    rw [← recalls.always quiet memory]
    exact copy_feed memory fits inside (undisturbed quiet)

variable [FloatChars]

theorem drain (recalls : p.Recalls still kept) :
    kept.drain.answer = p.drain.answer ∧ p.drain.parser.Recalls still kept.drain.parser := by
  obtain ⟨memory, same⟩ := recalls.once
  have once := drain_copy memory p
  rw [same] at once
  refine ⟨congrArg Drained.answer once, ⟨memory, (congrArg Drained.parser once).symm⟩, fun quiet later => ?_⟩
  have always := drain_copy later p
  rw [recalls.always quiet later] at always
  exact (congrArg Drained.parser always).symm

theorem trees (recalls : p.Recalls still kept) :
    (∃ memory, p.drain.contents memory = kept.drain.trees) ∧
      (still → ∀ memory, p.drain.contents memory = kept.drain.trees) := by
  have found (memory : Memory) (same : p.copy memory = kept) : p.drain.contents memory = kept.drain.trees := by
    rw [← same, drain_copy, Drained.contents, Drained.trees, List.map_map]
    rfl
  obtain ⟨memory, same⟩ := recalls.once
  exact ⟨⟨memory, found memory same⟩, fun quiet later => found later (recalls.always quiet later)⟩

theorem count (recalls : p.Recalls still kept) : kept.drain.trees.length = p.drain.roots.length := by
  obtain ⟨memory, same⟩ := recalls.trees.1
  rw [← same, Drained.contents, List.length_map]

end Recalls

end Parser

end Rediscoro.Resp3

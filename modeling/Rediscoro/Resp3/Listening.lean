import Rediscoro.Resp3.Rendering

/-! Any stream, heard in pieces.

Whatever a server sends, there are sentences in front of it, and the parser returns
one after another as the pieces arrive. A piece ends with a parser that waits for
more, or with a protocol error, and then no sentence is left in the stream.
-/

set_option autoImplicit false

namespace Rediscoro.Resp3.Parser

open Rediscoro.Semantics

variable [FloatChars]

/-- Only the octets can make a regular parser fail. -/
theorem drain_proper {p : Parser Bytes Text} {load' : Nat} {stop : Stop} (regular : p.Regular load')
    (small : load' < 2 ^ 32) (ended : p.drain.answer = .error stop) : ∃ errc, stop = .protocol errc := by
  induction p using drain_induction with
  | root p q root parsed ih =>
    have after := regular.parseOne small
    rw [parsed] at after
    rw [drain_root parsed] at ended
    exact ih after.reclaim ended
  | last p q answer parsed last =>
    obtain ⟨done, frames, standing⟩ := regular.standing
    obtain ⟨-, -, proper, -⟩ := parseOne_steps standing regular.within small
    rw [drain_end parsed last] at ended
    rw [parsed] at proper
    obtain ⟨errc, same, -⟩ := proper stop ended
    exact ⟨errc, same⟩

/-! The sentences in front of a stream. -/

/-- The sentences that a parser which holds nothing returns for the stream. -/
structure Spelling (first : Parser Bytes Text) (stream : Bytes) (values : List Sentence) : Prop where
  vacant : first.Vacant
  empty : first.input = []
  within : stream.length ≤ first.limits.maxRespLineBytes
  small : stream.length < 2 ^ 32
  formed : ∀ value ∈ values, value.WellFormed first.limits
  front : Sentence.encodeAll values <+: stream
  trees : (first.append stream).drain.trees = values.map Sentence.root

section Spelling

variable {first : Parser Bytes Text} {stream : Bytes} {values : List Sentence}

omit [FloatChars] in
theorem fits_of_small (small : stream.length < 2 ^ 32) : stream.length ≤ Buffer.sizeMax := by
  rw [Buffer.sizeMax]
  omega

/-- A parser that was reset returns some sentences of any stream. -/
theorem exists_spelling (p : Parser Buffer View) (within : stream.length ≤ p.limits.maxRespLineBytes)
    (small : stream.length < 2 ^ 32) : ∃ values, Spelling (p.reset.copy .zeroed) stream values := by
  have vacant : (p.reset.copy .zeroed).Vacant := ⟨⟨rfl, rfl, rfl⟩, rfl⟩
  have empty : (p.reset.copy .zeroed).input = [] := p.input.data_reset
  have input : ((p.reset.copy .zeroed).append stream).input = stream := by
    rw [append, empty]
    rfl
  obtain ⟨values, formed, trees, front⟩ := drain_spelled (p := (p.reset.copy .zeroed).append stream) (vacant.input _)
    (by rw [input]; exact fits_of_small small)
  rw [input] at front
  exact ⟨values, vacant, empty, within, small, formed, front, trees⟩

/-- Sentences that stand in front of the stream are returned first. -/
theorem Spelling.starts (spelling : Spelling first stream values) {others : List Sentence}
    (formed : ∀ other ∈ others, other.WellFormed first.limits) (front : Sentence.encodeAll others <+: stream) :
    others.map Sentence.root <+: values.map Sentence.root := by
  obtain ⟨rest, same⟩ := front
  have input : (first.append stream).input = Sentence.encodeAll others ++ rest := by
    rw [same, append, spelling.empty]
    rfl
  have short : (first.append stream).input.length ≤ Buffer.sizeMax := by
    rw [input, same]
    exact fits_of_small spelling.small
  have trees := (drain_encoded (p := first.append stream) (spelling.vacant.input _) formed input short).1
  rw [← spelling.trees, trees]
  exact List.prefix_append ..

theorem Spelling.value_small (spelling : Spelling first stream values) {value : Sentence} (member : value ∈ values) :
    value.encode.length < 2 ^ 32 := by
  have whole := spelling.front.length_le
  have small := spelling.small
  have part := Sentence.length_encode_le member
  omega

theorem Spelling.bounded (spelling : Spelling first stream values) {octets chunk rest : Bytes}
    (arrives : octets ++ (chunk ++ rest) = stream) :
    first.input.length + (octets ++ chunk).length + rest.length ≤ first.limits.maxRespLineBytes := by
  have within := spelling.within
  rw [← arrives, ← List.append_assoc, List.length_append] at within
  rw [spelling.empty, List.length_nil, Nat.zero_add]
  exact within

end Spelling

/-! Pieces. -/

/-- The parser has read the octets of the stream and returned its first `n` sentences. -/
structure Listens (first : Parser Bytes Text) (values : List Sentence) (octets : Bytes) (n : Nat)
    (p : Parser Buffer View) : Prop where
  count : n ≤ values.length
  held : ∃ kept, Follows False first octets ((values.take n).map Sentence.root) kept p ∧ kept.Regular octets.length

/-- A parser that was reset has heard nothing. -/
theorem listens_reset (p : Parser Buffer View) (values : List Sentence) :
    Listens (p.reset.copy .zeroed) values [] 0 p.reset where
  count := Nat.zero_le _
  held := by
    refine ⟨_, follows_reset False p, ⟨⟨[], [], Sound.start, .inr rfl⟩, ?_, List.forall_mem_nil _⟩⟩
    show 0 + (Buffer.data _).length ≤ 0
    rw [Buffer.data_length]
    exact Nat.le_refl 0

section Piece

variable {first kept : Parser Bytes Text} {stream octets chunk rest : Bytes} {values : List Sentence} {n : Nat}
  {p : Parser Buffer View} (spelling : Spelling first stream values)
  (arrives : octets ++ (chunk ++ rest) = stream) (fits : chunk.length ≤ (p.input.prepare 4096).available)

include spelling arrives fits

variable (listens : Listens first values octets n p)

include listens

theorem Listens.count_piece : n + (p.feed 4096 chunk).drain.roots.length ≤ values.length := by
  obtain ⟨kept, follows, -⟩ := listens.held
  exact (follows.returned listens.count fits False.elim spelling.trees arrives (.inl (spelling.bounded arrives))).1

/-- Through any memory that has the colons, the messages of a piece have the values of the next sentences. -/
theorem Listens.rendered {fuel : Nat} {memory : Memory} (built : ∀ value ∈ values, value.builtIn fuel = true)
    (colons : (p.feed 4096 chunk).Colons memory) :
    ∃ messages : List Message, ((p.feed 4096 chunk).drain.roots.map fun root =>
        build fuel (root.parser.contents memory) root.index) = messages.map (fun message => some (.ok message)) ∧
      messages.map Message.bare = ((values.drop n).take (p.feed 4096 chunk).drain.roots.length).map
        fun value => value.meaning.bare := by
  obtain ⟨kept, follows, -⟩ := listens.held
  have small (value : Sentence) (member : value ∈ values) := spelling.value_small member
  obtain ⟨messages, shown, renders⟩ := follows.rendered listens.count fits False.elim spelling.trees arrives
    (.inl (spelling.bounded arrives)) spelling.formed small built colons
  refine ⟨messages, shown, (Message.map_bare_of_renders renders).trans ?_⟩
  rw [List.map_map]
  apply List.map_congr_left
  intro value member
  have known : value ∈ values := List.mem_of_mem_drop (List.mem_of_mem_take member)
  exact Sentence.bare_message (spelling.formed value known) (small value known) (built value known)

/-- Behind a piece the parser listens on, or the stream is spoilt behind its last sentence. -/
theorem Listens.read {drained : Drained Buffer View} (loop : (p.feed 4096 chunk).drain = drained) :
    (drained.answer = .ok none ∧ Listens first values (octets ++ chunk) (n + drained.roots.length) drained.parser) ∨
      (∃ errc, drained.answer = .error (.protocol errc)) ∧ n + drained.roots.length = values.length := by
  obtain ⟨kept, follows, regular⟩ := listens.held
  obtain ⟨count, trees⟩ :=
    follows.returned listens.count fits False.elim spelling.trees arrives (.inl (spelling.bounded arrives))
  obtain ⟨answers, -⟩ := (follows.fed fits False.elim).2.drain
  have load : (octets.length + chunk.length) < 2 ^ 32 := by
    have small := spelling.small
    rw [← arrives, List.length_append, List.length_append] at small
    omega
  have regular := regular.append chunk
  cases answer : drained.answer with
  | ok value =>
    have asked : (p.feed 4096 chunk).drain.answer = .ok value := by rw [loop, answer]
    rw [asked] at answers
    obtain rfl := (drain_waits answers).1
    have onward := follows.onward listens.count fits False.elim spelling.trees arrives
      (.inl (spelling.bounded arrives)) asked
    have last := (drain_whole regular load).2
    rw [loop] at onward
    rw [← List.length_append] at last
    rw [loop] at count
    exact .inl ⟨rfl, count, _, onward, last⟩
  | error stop =>
    -- what arrives later cannot make good what was rejected, so the whole stream holds no more sentences
    rw [loop, answer] at answers
    rw [loop] at count trees
    obtain ⟨errc, rfl⟩ := drain_proper regular load answers
    have bounded := spelling.bounded arrives
    have whole := (follows.takes.error (.inl bounded) (.inl bounded) answers).1
    rw [arrives, spelling.trees, trees, ← List.map_append, ← List.take_add] at whole
    have size := congrArg List.length whole
    rw [List.length_map, List.length_map, List.length_take] at size
    exact .inr ⟨⟨errc, rfl⟩, by omega⟩

omit arrives fits in
/-- When all of the stream is read, all its sentences are returned. -/
theorem Listens.complete (all : octets = stream) : n = values.length := by
  obtain ⟨kept, follows, -⟩ := listens.held
  have within := spelling.within
  have whole := (follows.takes.later [] (.inl (by rw [spelling.empty, all]; simpa using within))).1
  have nothing : kept.append [] = kept := by rw [append, List.append_nil]
  rw [nothing, follows.dry, List.append_nil, List.append_nil, all, spelling.trees] at whole
  have size := congrArg List.length whole
  have count := listens.count
  rw [List.length_map, List.length_map, List.length_take] at size
  omega

end Piece

end Rediscoro.Resp3.Parser

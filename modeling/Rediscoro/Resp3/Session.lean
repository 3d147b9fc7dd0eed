import Rediscoro.Resp3.Builder
import Rediscoro.Resp3.Framing
import Rediscoro.Resp3.Resume
import Rediscoro.Semantics.Transition

/-! Sessions: the reads of a connection, one after another.

A read prepares room, commits what arrived and drains the parser, as `do_read`
and the handshake do. An error stops the reader for good; only a `reset` makes
it read again. The views of an unfinished message are kept between two reads,
while the room prepared for the second may move the buffer's storage: a session
is sound as long as no such read finds a text in the unfinished tree.
-/

set_option autoImplicit false

namespace Rediscoro.Resp3

open Rediscoro.Semantics

inductive Reading where
  | chunk (room : Nat) (octets : Bytes)
  | reset
  deriving DecidableEq, Repr

/-- A parser with what it has returned so far: every root, in order, with the
parser as it was then, and the last answer of the loop. -/
structure Reader where
  parser : Parser Buffer View
  roots : List (Root Buffer View) := []
  status : Parser.Answer := .ok none

namespace Reader

def start (limits : Limits) : Reader := { parser := .fresh limits }

/-- The reads of a list of pieces, each with the room prepared for it. -/
def pieces (cut : List (Nat × Bytes)) : List Reading := cut.map fun piece => .chunk piece.1 piece.2

section Steps

variable [FloatChars]

def take (r : Reader) (room : Nat) (octets : Bytes) : Reader :=
  let drained := (r.parser.feed room octets).drain
  { parser := drained.parser, roots := r.roots ++ drained.roots, status := drained.answer }

/-- A read is refused when more octets arrive than the prepared span holds. -/
def step (r : Reader) : Reading → Option Reader
  | .reset => some { r with parser := r.parser.reset, status := .ok none }
  | .chunk room octets =>
      match r.status with
      | .error _ => some r
      | .ok _ => if octets.length ≤ (r.parser.input.prepare room).available then some (r.take room octets) else none

theorem step_cases {r next : Reader} {reading : Reading} (stepped : r.step reading = some next) :
    (reading = .reset ∧ next = { r with parser := r.parser.reset, status := .ok none }) ∨
    (∃ room octets stop, reading = .chunk room octets ∧ r.status = .error stop ∧ next = r) ∨
    (∃ room octets value, reading = .chunk room octets ∧ r.status = .ok value ∧
      octets.length ≤ (r.parser.input.prepare room).available ∧ next = r.take room octets) := by
  cases reading with
  | reset => exact .inl ⟨rfl, (Option.some.inj stepped).symm⟩
  | chunk room octets =>
    rw [step] at stepped
    split at stepped
    · rename_i stop stopped
      exact .inr (.inl ⟨room, octets, stop, rfl, stopped, (Option.some.inj stepped).symm⟩)
    · rename_i value reading
      split at stepped
      · rename_i fits
        exact .inr (.inr ⟨room, octets, value, rfl, reading, fits, (Option.some.inj stepped).symm⟩)
      · cases stepped

/-! Storage. -/

/-- A read that moves the buffer finds no text with an octet in it among the
nodes of the unfinished message. -/
def Settled (r : Reader) : Reading → Prop
  | .reset => True
  | .chunk room _ => r.status.isOk = true → r.parser.input.Grows room →
      ∀ node ∈ r.parser.tree.nodes, node.text.length = 0

instance (r : Reader) (reading : Reading) : Decidable (r.Settled reading) :=
  match reading with
  | .reset => inferInstanceAs (Decidable True)
  | .chunk .. => inferInstanceAs (Decidable (_ → _ → ∀ node ∈ _, _))

/-- Everything the reader holds or has returned points into the storage of its time. -/
structure Sound (r : Reader) : Prop where
  parser : r.parser.Live
  roots : ∀ root ∈ r.roots, root.parser.Live

omit [FloatChars] in
theorem start_sound (limits : Limits) : (start limits).Sound := ⟨nofun, nofun⟩

theorem step_sound {r next : Reader} {reading : Reading} (sound : r.Sound) (settled : r.Settled reading)
    (stepped : r.step reading = some next) : next.Sound := by
  obtain ⟨rfl, rfl⟩ | ⟨room, octets, stop, rfl, stopped, rfl⟩ | ⟨room, octets, value, rfl, status, fits, rfl⟩ :=
    step_cases stepped
  · exact ⟨nofun, sound.roots⟩
  · exact sound
  · have fed : (r.parser.feed room octets).Live := Parser.feed_live sound.parser (settled (by rw [status]; rfl))
    obtain ⟨last, roots⟩ := Parser.drain_live fed
    exact ⟨last, List.forall_mem_append.mpr ⟨sound.roots, roots⟩⟩

/-- Whenever a root was returned, no text of its tree pointed into storage that was gone. -/
theorem roots_live {limits : Limits} {readings : List Reading} {last : Reader}
    (settled : Guarded step Settled (start limits) readings)
    (run : runFrom step (start limits) readings = some last) : ∀ root ∈ last.roots, root.parser.Live :=
  (runFrom_invariant Sound (fun _ _ _ sound settled stepped => step_sound sound settled stepped)
    (start_sound limits) settled run).roots

/-- The octets of a reply as it stands on the wire. -/
def wire (text : String) : Bytes := text.toUTF8.toList

/-- An array of two strings, cut behind the first: the read of the second moves
the buffer and leaves the first string behind. -/
def splitReply : List (Nat × Bytes) := [(4096, wire "*2\r\n+OK\r\n"), (4096, wire "+OK\r\n")]

/-- The same array cut behind its header, where the unfinished tree holds no text. -/
def headedReply : List (Nat × Bytes) := [(4096, wire "*2\r\n"), (4096, wire "+OK\r\n+OK\r\n")]

omit [FloatChars] in
theorem splitReply_stale :
    letI := FloatChars.none
    ∃ last, runFrom step (start {}) (pieces splitReply) = some last ∧ ∃ root ∈ last.roots, ¬ root.parser.Live := by
  let := FloatChars.none
  have stale : ((runFrom step (start {}) (pieces splitReply)).map fun last =>
      last.roots.any fun root => !decide root.parser.Live) = some true := by decide +kernel
  obtain ⟨last, run, found⟩ := Option.map_eq_some_iff.mp stale
  obtain ⟨root, member, moved⟩ := List.any_eq_true.mp found
  exact ⟨last, run, root, member, by simpa using moved⟩

omit [FloatChars] in
theorem headedReply_live :
    letI := FloatChars.none
    ∃ last, runFrom step (start {}) (pieces headedReply) = some last ∧ last.roots.length = 1 ∧
      ∀ root ∈ last.roots, root.parser.Live := by
  let := FloatChars.none
  have counted : ((runFrom step (start {}) (pieces headedReply)).map fun last => last.roots.length) = some 1 := by
    decide +kernel
  have settled : Guarded step Settled (start {}) (pieces headedReply) := by decide +kernel
  obtain ⟨last, run, one⟩ := Option.map_eq_some_iff.mp counted
  exact ⟨last, run, one, roots_live settled run⟩

/-! Chunks. -/

/-- The trees of the roots, looked through their views when they are returned. -/
def contents (memory : Memory) (r : Reader) : List (Nat × RawTree Text) :=
  r.roots.map fun root => (root.index, root.parser.contents memory)

/-- What `build_message` makes of each root in at most `fuel` passes. -/
def messages (memory : Memory) (r : Reader) (fuel : Nat) : List (Option (Except Fault Message)) :=
  (r.contents memory).map fun root => build fuel root.2 root.1

/-- A read that moves the buffer finds no text that a message would show among
the nodes of the unfinished one. -/
def Calm (r : Reader) : Reading → Prop
  | .reset => True
  | .chunk room _ => r.status.isOk = true → r.parser.input.Grows room →
      ∀ node ∈ r.parser.tree.nodes, node.type.textual = true → node.text.length = 0

instance (r : Reader) (reading : Reading) : Decidable (r.Calm reading) :=
  match reading with
  | .reset => inferInstanceAs (Decidable True)
  | .chunk .. => inferInstanceAs (Decidable (_ → _ → ∀ node ∈ _, _))

theorem runFrom_stopped {r last : Reader} {cut : List (Nat × Bytes)} {stop : Stop} (stopped : r.status = .error stop)
    (run : runFrom step r (pieces cut) = some last) : last = r := by
  induction cut with
  | nil => exact (Option.some.inj run).symm
  | cons piece rest ih =>
    obtain ⟨next, stepped, run⟩ := runFrom_cons run
    have same : r.step (.chunk piece.1 piece.2) = some r := by rw [step, stopped]
    rw [same] at stepped
    cases stepped
    exact ih run

/-- A read of the zero-copy parser is a read of the copying one. -/
theorem contents_take {r : Reader} {room : Nat} {octets : Bytes} {value : Option Nat} (memory : Memory)
    (inside : r.parser.Inside) (status : r.status = .ok value) (calm : r.Calm (.chunk room octets))
    (fits : octets.length ≤ (r.parser.input.prepare room).available) :
    let drained := ((r.parser.copy memory).append octets).drain
    (r.take room octets).contents memory = r.contents memory ++ drained.trees ∧
      (r.take room octets).status = drained.answer ∧ (r.take room octets).parser.copy memory = drained.parser := by
  intro drained
  have same : drained = _ := (congrArg Parser.drain
    (Parser.copy_feed memory fits inside (calm (by rw [status]; rfl))).symm).trans (Parser.drain_copy memory _)
  rw [same]
  refine ⟨?_, rfl, rfl⟩
  simp only [contents, take, Drained.trees, List.map_append, List.map_map]
  rfl

theorem runFrom_pieces {r last : Reader} {cut : List (Nat × Bytes)} (memory : Memory) (inside : r.parser.Inside)
    (status : r.status = .ok none) (calm : Guarded step Calm r (pieces cut))
    (run : runFrom step r (pieces cut) = some last) :
    (last.contents memory, last.status) =
      (r.contents memory ++ ((r.parser.copy memory).readAll (cut.map (·.2))).1,
        ((r.parser.copy memory).readAll (cut.map (·.2))).2) := by
  induction cut generalizing r with
  | nil =>
    obtain rfl : r = last := Option.some.inj run
    rw [status, List.map_nil, Parser.readAll, List.append_nil]
  | cons piece rest ih =>
    obtain ⟨next, stepped, run⟩ := runFrom_cons run
    have calm' := calm.tail stepped
    obtain ⟨read, -⟩ | ⟨room, octets, stop, read, stopped, -⟩ | ⟨room, octets, value, read, -, fits, rfl⟩ :=
      step_cases stepped
    · cases read
    · rw [status] at stopped
      cases stopped
    · cases read
      obtain ⟨trees, answer, parser⟩ := contents_take memory inside status calm.1 fits
      rw [List.map_cons, Parser.readAll]
      cases ended : ((r.parser.copy memory).append piece.2).drain.answer with
      | error stop =>
        rw [ended] at answer
        rw [runFrom_stopped answer run, trees, answer]
      | ok value =>
        obtain ⟨rfl, -⟩ := Parser.drain_waits ended
        rw [ended] at answer
        rw [ih (Parser.drain_inside (Parser.feed_inside inside)) answer calm' run, trees, parser, List.append_assoc]

/-- Only the octets matter to a session that starts with a fresh parser, not how they were cut. -/
theorem runFrom_start {limits : Limits} {cut : List (Nat × Bytes)} {octets : Bytes} {last : Reader} (memory : Memory)
    (joined : (cut.map (·.2)).flatten = octets) (roomy : octets.length ≤ limits.maxRespLineBytes)
    (calm : Guarded step Calm (start limits) (pieces cut))
    (run : runFrom step (start limits) (pieces cut) = some last) :
    (last.contents memory, last.status) = ((((start limits).parser.copy memory).append octets).drain.trees,
      (((start limits).parser.copy memory).append octets).drain.answer) := by
  subst joined
  have inside : (start limits).parser.Inside := nofun
  have waiting := Parser.parseOne_copy_of memory (Parser.parseOne_empty (Parser.idle_start limits Buffer.fresh) rfl)
  exact (runFrom_pieces memory inside rfl calm run).trans (Parser.readAll_flatten waiting roomy)

omit [FloatChars] in
theorem calm_start (limits : Limits) (room : Nat) (octets : Bytes) : (start limits).Calm (.chunk room octets) :=
  fun _ _ => nofun

/-- Cutting the octets into pieces changes neither the messages nor how the
session ends, and a call without new octets changes nothing. -/
theorem messages_pieces {limits : Limits} {cut : List (Nat × Bytes)} {room : Nat} {last whole : Reader}
    (roomy : (cut.map (·.2)).flatten.length ≤ limits.maxRespLineBytes)
    (calm : Guarded step Calm (start limits) (pieces cut))
    (run : runFrom step (start limits) (pieces cut) = some last)
    (once : runFrom step (start limits) (pieces [(room, (cut.map (·.2)).flatten)]) = some whole) :
    ((∀ memory later fuel, last.messages memory fuel = whole.messages later fuel) ∧ last.status = whole.status) ∧
      ∀ p q : Parser Buffer View, p.parseOne = (.ok none, q) → q.parseOne = (.ok none, q) := by
  have single : Guarded step Calm (start limits) (pieces [(room, (cut.map (·.2)).flatten)]) :=
    ⟨calm_start limits room _, by split <;> trivial⟩
  -- A fresh parser holds no text, so its copy is the same whatever is found in storage that is gone.
  have same (memory later : Memory) : (last.contents memory, last.status) = (whole.contents later, whole.status) :=
    (runFrom_start memory rfl roomy calm run).trans (runFrom_start later (List.append_nil _) roomy single once).symm
  refine ⟨⟨fun memory later fuel => ?_, (Prod.mk.inj (same .zeroed .zeroed)).2⟩,
    fun p q parsed => Parser.parseOne_waits (Parser.parseOne_none parsed)⟩
  rw [messages, messages, (Prod.mk.inj (same memory later)).1]

/-- An array of two strings. -/
def stringPair (first second : Bytes) : Message :=
  .sequence .array [.scalar (.simpleString first) none, .scalar (.simpleString second) none] none

/-- What both cuts of the array should give. -/
def okPair : Message := stringPair (wire "OK") (wire "OK")

/-- The tree of the array, with its two strings as they are found. -/
def okTree (first second : Text) : RawTree Text :=
  { nodes := [{ type := .array, text := [], i64 := 2, firstChild := 0, childCount := 2 },
      { type := .simpleString, text := first }, { type := .simpleString, text := second }]
    links := [1, 2] }

omit [FloatChars] in
/-- The message of the two pieces shows what has become of the storage that the first string was left in. -/
theorem splitReply_differs :
    letI := FloatChars.none
    ∃ last whole, runFrom step (start {}) (pieces splitReply) = some last ∧
      runFrom step (start {}) (pieces [(4096, (splitReply.map (·.2)).flatten)]) = some whole ∧
      last.messages .zeroed 16 = [some (.ok (stringPair [0, 0] (wire "OK")))] ∧
      whole.messages .zeroed 16 = [some (.ok okPair)] := by
  let := FloatChars.none
  have split : (runFrom step (start {}) (pieces splitReply)).map (contents .zeroed) =
      some [(0, okTree [0, 0] (wire "OK"))] := by decide +kernel
  have joined : (runFrom step (start {}) (pieces [(4096, (splitReply.map (·.2)).flatten)])).map
      (contents .zeroed) = some [(0, okTree (wire "OK") (wire "OK"))] := by decide +kernel
  obtain ⟨last, run, read⟩ := Option.map_eq_some_iff.mp split
  obtain ⟨whole, once, readOnce⟩ := Option.map_eq_some_iff.mp joined
  refine ⟨last, whole, run, once, ?_, ?_⟩
  · rw [messages, read]
    rfl
  · rw [messages, readOnce]
    rfl

omit [FloatChars] in
theorem headedReply_same :
    letI := FloatChars.none
    ∃ last whole, runFrom step (start {}) (pieces headedReply) = some last ∧
      runFrom step (start {}) (pieces [(4096, (headedReply.map (·.2)).flatten)]) = some whole ∧
      whole.messages .zeroed 16 = [some (.ok okPair)] ∧
      (∀ memory later fuel, last.messages memory fuel = whole.messages later fuel) ∧ last.status = whole.status := by
  let := FloatChars.none
  have calm : Guarded step Calm (start {}) (pieces headedReply) := by decide +kernel
  have accepted : ((runFrom step (start {}) (pieces headedReply)).map fun last => last.roots.length) = some 1 := by
    decide +kernel
  have joined : (runFrom step (start {}) (pieces [(4096, (headedReply.map (·.2)).flatten)])).map
      (contents .zeroed) = some [(0, okTree (wire "OK") (wire "OK"))] := by decide +kernel
  obtain ⟨last, run, -⟩ := Option.map_eq_some_iff.mp accepted
  obtain ⟨whole, once, read⟩ := Option.map_eq_some_iff.mp joined
  have same := (messages_pieces (by decide +kernel) calm run once).1
  refine ⟨last, whole, run, once, ?_, same⟩
  rw [messages, read]
  rfl

end Steps

end Reader

end Rediscoro.Resp3

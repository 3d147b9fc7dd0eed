import Rediscoro.Pipeline.Queue
import Rediscoro.Resp3.RoundTrip

/-! Requests on the wire.

A command is an array of bulk strings, so its octets are those of a message that
nests nothing. The parser of this repository, which reads replies, reads a request
back command by command. That no two requests share their octets needs no parser
and no limits: every length stands in front of what it measures.
-/

set_option autoImplicit false

namespace Rediscoro.Pipeline

open Rediscoro.Semantics Rediscoro.Resp3

/-- What `append_arg` is overloaded for; a null `const char*` is an empty text. -/
inductive Argument where
  | text (octets : Bytes)
  | cString (octets : Option Bytes)
  | integer (value : Int)

def Argument.octets : Argument → Bytes
  | .text octets => octets
  | .cString octets => octets.getD []
  | .integer value => writeInt value

/-- The forms of `push`: a list of words, or a word and arguments of several types. -/
inductive Command where
  | argv (words : List Bytes)
  | variadic (cmd : Bytes) (args : List Argument)

namespace Command

def words : Command → List Bytes
  | .argv words => words
  | .variadic cmd args => cmd :: args.map Argument.octets

/-- The message that a command is. -/
def message (words : List Bytes) : Message :=
  .sequence .array (words.map fun word => .scalar (.bulkString word) none) none

/-- The limits admit the number of words and the length of each. -/
structure Admitted (limits : Resp3.Limits) (words : List Bytes) : Prop where
  count : Length limits .array words.length
  each : ∀ word ∈ words, Payload limits word

end Command

namespace Request

def appendArg (wire : Bytes) (arg : Argument) : Bytes := appendBulkString wire arg.octets

def pushCommand (req : Request) : Command → Request
  | .argv words => req.push words
  | .variadic cmd args =>
      { wire := args.foldl appendArg (appendBulkString (appendCommandHeader req.wire (1 + args.length)) cmd)
        commandCount := req.commandCount + 1 }

/-- The request built by successive calls of `push`. -/
def ofCommands (commands : List Command) : Request := commands.foldl pushCommand {}

/-! The octets of a request are those of its commands, one after another. -/

theorem foldl_appendBulkString (wire : Bytes) (words : List Bytes) :
    words.foldl appendBulkString wire =
      wire ++ Sentence.encodeAll (Message.sentences (words.map fun word => .scalar (.bulkString word) none)) := by
  induction words generalizing wire with
  | nil => simp [Message.sentences, Sentence.encodeAll]
  | cons word rest ih =>
    rw [List.foldl_cons, ih, appendBulkString, List.append_assoc]
    simp [Message.sentences, Message.sentence, Sentence.encodeAll, Sentence.encode, Scalar.leaf, Leaf.encode, header]

theorem push_wire (req : Request) (words : List Bytes) :
    (req.push words).wire = req.wire ++ (Command.message words).encode := by
  rw [push, foldl_appendBulkString, appendCommandHeader, List.append_assoc]
  simp [Command.message, Message.encode, Message.sentence, Sentence.encode, header, SequenceKind.kind]

theorem pushCommand_eq (req : Request) (command : Command) : req.pushCommand command = req.push command.words := by
  cases command with
  | argv words => rfl
  | variadic cmd args =>
    have args (wire : Bytes) : args.foldl appendArg wire = (args.map Argument.octets).foldl appendBulkString wire := by
      rw [List.foldl_map]
      rfl
    simp only [pushCommand, push, Command.words, List.foldl_cons, List.length_cons, List.length_map, args]
    rw [Nat.add_comm]

theorem foldl_pushCommand (req : Request) (commands : List Command) :
    commands.foldl pushCommand req =
      { wire := req.wire ++ (commands.map fun command => (Command.message command.words).encode).flatten
        commandCount := req.commandCount + commands.length } := by
  induction commands generalizing req with
  | nil => simp
  | cons command rest ih =>
    rw [List.foldl_cons, ih, pushCommand_eq, push_wire, push]
    simp only [List.map_cons, List.flatten_cons, List.append_assoc, List.length_cons, Nat.add_assoc, Nat.add_comm 1]

theorem ofCommands_wire (commands : List Command) :
    (ofCommands commands).wire = (commands.map fun command => (Command.message command.words).encode).flatten := by
  rw [ofCommands, foldl_pushCommand]
  rfl

theorem ofCommands_commandCount (commands : List Command) : (ofCommands commands).commandCount = commands.length := by
  rw [ofCommands, foldl_pushCommand]
  exact Nat.zero_add _

end Request

/-! Different commands have different octets. -/

section Injective

/-- A length ends where its digits do. -/
theorem decimal_append_inj {n m : Nat} {rest other : Bytes}
    (same : decimal n ++ crlf ++ rest = decimal m ++ crlf ++ other) :
    n = m ∧ rest = other := by
  have free (k : Nat) : findPair cr lf (decimal k) = none := findCrlf_writeInt (k : Int)
  have ends (k : Nat) (behind : Bytes) : findPair cr lf (decimal k ++ crlf ++ behind) = some (decimal k).length := by
    rw [List.append_assoc]
    exact findPair_after (by decide) (free k) behind
  have length : (decimal n).length = (decimal m).length := by
    have found := ends n rest
    rw [same, ends m other] at found
    exact (Option.some.inj found).symm
  rw [List.append_assoc, List.append_assoc] at same
  obtain ⟨digits, behind⟩ := List.append_inj same length
  have value := readNat_decimal n
  rw [digits, readNat_decimal] at value
  exact ⟨(Option.some.inj value).symm, List.append_cancel_left behind⟩

/-- A bulk string in front of the octets is determined by them. -/
theorem bulkString_append_inj {word other : Bytes} {rest rest' : Bytes}
    (same : header .bulkString (decimal word.length) ++ word ++ crlf ++ rest =
      header .bulkString (decimal other.length) ++ other ++ crlf ++ rest') : word = other ∧ rest = rest' := by
  simp only [header, List.cons_append, List.append_assoc, List.cons.injEq, true_and] at same
  rw [← List.append_assoc, ← List.append_assoc (decimal other.length)] at same
  obtain ⟨length, behind⟩ := decimal_append_inj same
  obtain ⟨words, behind⟩ := List.append_inj behind length
  exact ⟨words, List.append_cancel_left behind⟩

theorem words_append_inj {words others : List Bytes} {rest rest' : Bytes} (length : words.length = others.length)
    (same : Sentence.encodeAll (Message.sentences (words.map fun word => .scalar (.bulkString word) none)) ++ rest =
      Sentence.encodeAll (Message.sentences (others.map fun word => .scalar (.bulkString word) none)) ++ rest') :
    words = others ∧ rest = rest' := by
  induction words generalizing others with
  | nil =>
    obtain rfl : others = [] := List.eq_nil_of_length_eq_zero length.symm
    exact ⟨rfl, same⟩
  | cons word words ih =>
    obtain ⟨other, others, rfl⟩ := List.exists_cons_of_length_eq_add_one length.symm
    simp only [List.map_cons, Message.sentences, Message.sentence, Sentence.encodeAll, Sentence.encode, Scalar.leaf,
      Leaf.encode, List.append_assoc] at same
    obtain ⟨rfl, later⟩ := bulkString_append_inj (by simpa only [List.append_assoc] using same)
    obtain ⟨rfl, behind⟩ := ih (Nat.succ.inj length) later
    exact ⟨rfl, behind⟩

/-- A command in front of the octets is determined by them. -/
theorem message_append_inj {words others : List Bytes} {rest rest' : Bytes}
    (same : (Command.message words).encode ++ rest = (Command.message others).encode ++ rest') :
    words = others ∧ rest = rest' := by
  simp only [Command.message, Message.encode, Message.sentence, Sentence.encode, header, List.cons_append,
    List.append_assoc, List.cons.injEq, true_and, List.length_map] at same
  rw [← List.append_assoc, ← List.append_assoc (decimal others.length)] at same
  obtain ⟨length, behind⟩ := decimal_append_inj same
  exact words_append_inj length behind

theorem messages_inj {commands others : List (List Bytes)}
    (same : (commands.map fun words => (Command.message words).encode).flatten =
      (others.map fun words => (Command.message words).encode).flatten) : commands = others := by
  have nonempty (words : List Bytes) (rest : Bytes) : (Command.message words).encode ++ rest ≠ [] := by
    simp [Command.message, Message.encode, Message.sentence, Sentence.encode, header]
  induction commands generalizing others with
  | nil =>
    cases others with
    | nil => rfl
    | cons words rest => exact absurd same.symm (nonempty words _)
  | cons words commands ih =>
    cases others with
    | nil => exact absurd same (nonempty words _)
    | cons other others =>
      obtain ⟨rfl, behind⟩ := message_append_inj same
      rw [ih behind]

end Injective

/-! The parser reads the commands back. -/

namespace Command

variable [FloatChars] {limits : Resp3.Limits} {words : List Bytes}

theorem Admitted.encodable (admitted : Admitted limits words) : (message words).Encodable limits := by
  refine .sequence (by rw [List.length_map]; exact admitted.count) ?_
  intro element member
  obtain ⟨word, inside, rfl⟩ := List.mem_map.mp member
  exact .scalar (.bulkString (admitted.each word inside))

omit [FloatChars] in
/-- Nothing is nested in a command. -/
theorem message_headNested (words : List Bytes) : (message words).HeadNested := by
  have leaf (element : Message) (member : element ∈ words.map fun word => .scalar (.bulkString word) none) :
      ∃ word, element = .scalar (.bulkString word) none := by
    obtain ⟨word, -, rfl⟩ := List.mem_map.mp member
    exact ⟨word, rfl⟩
  refine .sequence ?_ ?_
  · intro element first
    obtain ⟨word, rfl⟩ := leaf element (List.mem_of_mem_head? first)
    exact .scalar _ _
  · intro element later
    obtain ⟨word, rfl⟩ := leaf element (List.mem_of_mem_tail later)
    rfl

omit [FloatChars] in
theorem nodeCount_message (words : List Bytes) : (message words).nodeCount = 1 + words.length := by
  have each : Sentence.sizeAll (Message.sentences (words.map fun word => .scalar (.bulkString word) none)) =
      words.length := by
    induction words with
    | nil => rfl
    | cons word rest ih =>
      rw [List.map_cons, Message.sentences, Sentence.sizeAll, ih, List.length_cons, Nat.add_comm]
      rfl
  rw [Message.nodeCount, message, Message.sentence, Sentence.size, each]

/-- Round after round reads one command, until there is none left. -/
theorem drain_commands {p : Parser Buffer View} (blank : p.Blank) {commands : List (List Bytes)}
    (admitted : ∀ words ∈ commands, Admitted p.limits words)
    (octets : p.data = (commands.map fun words => (message words).encode).flatten)
    (short : p.data.length ≤ Buffer.sizeMax) :
    p.drain.answer = .ok none ∧ p.drain.parser.data = [] ∧
      List.Forall₂ (fun root words => ∃ fuel, ∀ memory,
        build fuel (root.parser.contents memory) root.index = some (.ok (message words))) p.drain.roots commands := by
  induction commands generalizing p with
  | nil =>
    rw [Parser.drain_end (Parser.parseOne_empty blank.toIdle octets) (by simp)]
    exact ⟨rfl, octets, .nil⟩
  | cons words rest ih =>
    have here := admitted words List.mem_cons_self
    have few : (message words).nodeCount ≤ 2 ^ 32 := by
      have bound := here.count.admissible.lt
      rw [nodeCount_message]
      omega
    rw [List.map_cons, List.flatten_cons] at octets
    obtain ⟨q, fuel, built, parsed, done, same, unread, limits, blank'⟩ :=
      Parser.parseOne_built blank here.encodable few octets short
    obtain rfl := same.mpr (message_headNested words)
    have fewer := Parser.parseOne_root parsed
    have unread' : q.reclaim.data = (rest.map fun words => (message words).encode).flatten :=
      (Parser.data_reclaim q).trans unread
    obtain ⟨answer, empty, roots⟩ := ih blank'
      (fun other member => by
        have inside := admitted other (List.mem_cons_of_mem _ member)
        rw [← limits] at inside
        exact inside)
      unread' (by rw [Parser.data_reclaim]; omega)
    rw [Parser.drain_root parsed]
    exact ⟨answer, empty, .cons ⟨fuel, done⟩ roots⟩

end Command

namespace Request

/-- A request is read back as its commands, in order and to its last octet, and
no other commands have the same octets. -/
theorem ofCommands_decodes [FloatChars] {limits : Resp3.Limits} {commands : List Command}
    (admitted : ∀ command ∈ commands, Command.Admitted limits command.words) (room : Nat)
    (short : (ofCommands commands).wire.length ≤ Buffer.sizeMax)
    (fits : (ofCommands commands).wire.length ≤ (Buffer.fresh.prepare room).available) :
    let drained := ((Parser.fresh limits).feed room (ofCommands commands).wire).drain
    (drained.answer = .ok none ∧ drained.parser.data = [] ∧
      drained.roots.length = (ofCommands commands).commandCount ∧
      List.Forall₂ (fun (root : Root Buffer View) (command : Command) =>
        ∃ fuel, ∀ memory, build fuel (root.parser.contents memory) root.index =
          some (.ok (Command.message command.words))) drained.roots commands) ∧
    ∀ others : List Command, (ofCommands others).wire = (ofCommands commands).wire →
      others.map Command.words = commands.map Command.words := by
  intro drained
  have data : ((Parser.fresh limits).feed room (ofCommands commands).wire).data = (ofCommands commands).wire :=
    Buffer.fresh.data_feed fits
  have octets (commands : List Command) : (ofCommands commands).wire =
      ((commands.map Command.words).map fun words => (Command.message words).encode).flatten := by
    rw [ofCommands_wire, List.map_map]
    rfl
  obtain ⟨answer, empty, roots⟩ := Command.drain_commands (Parser.blank_feed limits room _)
    (fun words member => by
      obtain ⟨command, inside, rfl⟩ := List.mem_map.mp member
      exact admitted command inside)
    (data.trans (octets commands)) (by rw [data]; exact short)
  have count := roots.length_eq
  rw [List.length_map] at count
  refine ⟨⟨answer, empty, count.trans (ofCommands_commandCount commands).symm, ?_⟩, ?_⟩
  · exact List.forall₂_map_right_iff.mp roots
  · intro others same
    rw [octets others, octets commands] at same
    exact messages_inj same

/-- `SET`, a key with a line end in it, and a number. -/
def setCounter : Command := .variadic [83, 69, 84] [.text [107, 13, 10], .integer (-7)]

theorem setCounter_decodes :
    letI := FloatChars.none
    ∃ root, ((Parser.fresh {}).feed 4096 (ofCommands [setCounter]).wire).drain.roots = [root] ∧
      ∃ fuel, ∀ memory, build fuel (root.parser.contents memory) root.index =
        some (.ok (Command.message [[83, 69, 84], [107, 13, 10], [45, 55]])) := by
  let := FloatChars.none
  have words : setCounter.words = [[83, 69, 84], [107, 13, 10], [45, 55]] := by decide
  have admitted : ∀ command ∈ [setCounter], Command.Admitted {} command.words := by
    intro command member
    rw [List.mem_singleton.mp member, words]
    refine ⟨⟨⟨by decide, by decide⟩, by decide⟩, ?_⟩
    simp only [List.forall_mem_cons]
    exact ⟨⟨by decide, by decide, by decide⟩, ⟨by decide, by decide, by decide⟩, ⟨by decide, by decide, by decide⟩,
      by simp⟩
  have fits : (ofCommands [setCounter]).wire.length ≤ (Buffer.fresh.prepare 4096).available :=
    Nat.le_trans (by decide) (Buffer.fresh.le_available_prepare 4096)
  obtain ⟨⟨-, -, -, roots⟩, -⟩ := ofCommands_decodes admitted 4096 (by decide) fits
  obtain ⟨root, rest, built, none, same⟩ := List.forall₂_cons_right_iff.mp roots
  rw [List.forall₂_nil_right_iff.mp none] at same
  exact ⟨root, same, built⟩

end Request

end Rediscoro.Pipeline

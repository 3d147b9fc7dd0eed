import Rediscoro.Resp3.Builder
import Rediscoro.Resp3.Layout

/-! The RESP3 encoding of messages.

`Message.sentence` is the standard derivation of a message without attributes and
`Sentence.meaning` takes it back. `Encodable` is what a message needs to be sent at
all: no CRLF inside a line and every length within the limits of the parser.
-/

set_option autoImplicit false

namespace Rediscoro.Resp3

open Rediscoro.Semantics

/-- Octet 58 is the colon between the encoding and the text. -/
def Scalar.leaf : Scalar → Leaf
  | .simpleString data => .line .simpleString data
  | .simpleError message => .line .simpleError message
  | .integer value => .line .integer (writeInt value)
  | .doubleNumber value => .line .doubleNumber value
  | .boolean value => .boolean value
  | .bigNumber value => .line .bigNumber value
  | .null source => if source = .null then .null else .typedNull source (writeInt (-1))
  | .bulkString data => .bulk .bulkString (decimal data.length) data
  | .bulkError message => .bulk .bulkError (decimal message.length) message
  | .verbatimString encoding data =>
      .bulk .verbatimString (decimal (encoding ++ 58 :: data).length) (encoding ++ 58 :: data)

namespace Message

mutual

def sentence : Message → Sentence
  | .scalar value _ => .leaf value.leaf
  | .sequence kind elements _ => .aggregate kind.kind (decimal elements.length) (sentences elements)
  | .map entries _ => .aggregate .map (decimal entries.length) (entrySentences entries)

def sentences : List Message → List Sentence
  | [] => []
  | element :: rest => element.sentence :: sentences rest

def entrySentences : List (Message × Message) → List Sentence
  | [] => []
  | (key, value) :: rest => key.sentence :: value.sentence :: entrySentences rest

end

/-- The standard encoding. -/
def encode (message : Message) : Bytes := message.sentence.encode

/-- The number of raw nodes of a message. -/
def nodeCount (message : Message) : Nat := message.sentence.size

end Message

/-! What a sentence without attributes stands for. -/

def Leaf.meaning : Leaf → Scalar
  | .line kind text =>
      match kind with
      | .simpleError => .simpleError text
      | .integer => .integer ((parseI64 text).getD 0)
      | .doubleNumber => .doubleNumber text
      | .bigNumber => .bigNumber text
      | _ => .simpleString text
  | .null => .null .null
  | .boolean value => .boolean value
  | .bulk kind _ payload =>
      match kind with
      | .bulkError => .bulkError payload
      | .verbatimString => .verbatimString (payload.take 3) (payload.drop 4)
      | _ => .bulkString payload
  | .typedNull kind _ => .null kind

/-- The elements of a map, listed key, value, key, value, as its entries. -/
def entriesOf {α : Type} : List α → List (α × α)
  | key :: value :: rest => (key, value) :: entriesOf rest
  | _ => []

/-- The container of the given kind. -/
def Message.collect (kind : Kind) (elements : List Message) : Message :=
  match kind with
  | .array => .sequence .array elements none
  | .set => .sequence .set elements none
  | .push => .sequence .push elements none
  | _ => .map (entriesOf elements) none

mutual

def Sentence.meaning : Sentence → Message
  | .leaf body => .scalar body.meaning none
  | .aggregate kind _ elements => .collect kind (Sentence.meanings elements)
  | .attributed _ _ value => value.meaning

def Sentence.meanings : List Sentence → List Message
  | [] => []
  | sentence :: rest => sentence.meaning :: Sentence.meanings rest

end

theorem Sentence.meanings_eq_map (elements : List Sentence) :
    Sentence.meanings elements = elements.map Sentence.meaning := by
  induction elements with
  | nil => rfl
  | cons element rest ih => rw [Sentence.meanings, List.map_cons, ih]

theorem Sentence.length_meanings (elements : List Sentence) :
    (Sentence.meanings elements).length = elements.length := by
  rw [Sentence.meanings_eq_map, List.length_map]

/-! The derivation of a list of messages. -/

namespace Message

theorem length_sentences (elements : List Message) : (sentences elements).length = elements.length := by
  induction elements with
  | nil => rfl
  | cons element rest ih => simp only [sentences, List.length_cons, ih]

theorem length_entrySentences (entries : List (Message × Message)) :
    (entrySentences entries).length = 2 * entries.length := by
  induction entries with
  | nil => rfl
  | cons entry rest ih =>
    simp only [entrySentences, List.length_cons, ih]
    omega

theorem mem_sentences {elements : List Message} {sentence : Sentence} (member : sentence ∈ sentences elements) :
    ∃ element ∈ elements, element.sentence = sentence := by
  induction elements with
  | nil => cases member
  | cons element rest ih =>
    rcases List.mem_cons.mp member with rfl | later
    · exact ⟨element, List.mem_cons_self .., rfl⟩
    · obtain ⟨other, inside, same⟩ := ih later
      exact ⟨other, List.mem_cons_of_mem _ inside, same⟩

theorem mem_entrySentences {entries : List (Message × Message)} {sentence : Sentence}
    (member : sentence ∈ entrySentences entries) :
    ∃ entry ∈ entries, entry.1.sentence = sentence ∨ entry.2.sentence = sentence := by
  induction entries with
  | nil => cases member
  | cons entry rest ih =>
    simp only [entrySentences, List.mem_cons] at member
    rcases member with rfl | rfl | later
    · exact ⟨entry, List.mem_cons_self .., .inl rfl⟩
    · exact ⟨entry, List.mem_cons_self .., .inr rfl⟩
    · obtain ⟨other, inside, same⟩ := ih later
      exact ⟨other, List.mem_cons_of_mem _ inside, same⟩

theorem meanings_sentences {elements : List Message}
    (each : ∀ element ∈ elements, element.sentence.meaning = element) :
    Sentence.meanings (sentences elements) = elements := by
  induction elements with
  | nil => rfl
  | cons element rest ih =>
    rw [sentences, Sentence.meanings, each element (List.mem_cons_self ..),
      ih fun other member => each other (List.mem_cons_of_mem _ member)]

theorem entriesOf_meanings {entries : List (Message × Message)}
    (keys : ∀ entry ∈ entries, entry.1.sentence.meaning = entry.1)
    (values : ∀ entry ∈ entries, entry.2.sentence.meaning = entry.2) :
    entriesOf (Sentence.meanings (entrySentences entries)) = entries := by
  induction entries with
  | nil => rfl
  | cons entry rest ih =>
    rw [entrySentences, Sentence.meanings, Sentence.meanings, entriesOf, keys entry (List.mem_cons_self ..),
      values entry (List.mem_cons_self ..), ih (fun other member => keys other (List.mem_cons_of_mem _ member))
        fun other member => values other (List.mem_cons_of_mem _ member)]

end Message

theorem parseI64_writeInt {value : Int} (low : -2 ^ 63 ≤ value) (high : value < 2 ^ 63) :
    parseI64 (writeInt value) = some value := by
  rw [parseI64, readInt_writeInt, Option.filter_some, if_pos (decide_eq_true ⟨low, high⟩)]

theorem parseI64_decimal {n : Nat} (range : n < 2 ^ 63) : parseI64 (decimal n) = some (n : Int) := by
  rw [parseI64, readInt_decimal, Option.filter_some, if_pos (decide_eq_true ⟨by omega, by omega⟩)]

/-- The numeral of an integer has no CRLF, since it can be read. -/
theorem findCrlf_writeInt (value : Int) : findCrlf (writeInt value) = none := by
  apply findPair_none_of_not_mem
  intro member
  rcases readInt_octets (readInt_writeInt value) cr member with minus | digit
  · exact absurd minus (by decide)
  · exact absurd digit (by decide)

/-! Messages that can be encoded. -/

section

variable [FloatChars] (limits : Limits)

/-- A text that fits on a line. -/
structure Line (text : Bytes) : Prop where
  free : findCrlf text = none
  short : text.length ≤ limits.maxRespLineBytes

/-- A payload whose length can be written in front of it. -/
structure Payload (data : Bytes) : Prop where
  within : data.length ≤ limits.maxRespBulkBytes
  range : data.length < 2 ^ 63
  short : (decimal data.length).length ≤ limits.maxRespLineBytes

inductive Scalar.Encodable : Scalar → Prop where
  | simpleString {data : Bytes} (line : Line limits data) : Encodable (.simpleString data)
  | simpleError {message : Bytes} (line : Line limits message) : Encodable (.simpleError message)
  | integer {value : Int} (low : -2 ^ 63 ≤ value) (high : value < 2 ^ 63)
      (short : (writeInt value).length ≤ limits.maxRespLineBytes) : Encodable (.integer value)
  | doubleNumber {value : Bytes} (line : Line limits value) (number : parseDouble value = true) :
      Encodable (.doubleNumber value)
  | boolean (value : Bool) : Encodable (.boolean value)
  | bigNumber {value : Bytes} (line : Line limits value) : Encodable (.bigNumber value)
  | null : Encodable (.null .null)
  | typedNull {source : Kind} (nullable : isTypedNullKind source = true) (short : 2 ≤ limits.maxRespLineBytes) :
      Encodable (.null source)
  | bulkString {data : Bytes} (payload : Payload limits data) : Encodable (.bulkString data)
  | bulkError {message : Bytes} (payload : Payload limits message) : Encodable (.bulkError message)
  | verbatimString {encoding data : Bytes} (three : encoding.length = 3)
      (payload : Payload limits (encoding ++ 58 :: data)) : Encodable (.verbatimString encoding data)

/-- A number of elements, or of entries, that a header may announce. -/
structure Length (kind : Kind) (n : Nat) : Prop where
  admissible : Admissible limits kind n
  short : (decimal n).length ≤ limits.maxRespLineBytes

/-- A message without attributes whose texts and lengths the parser admits. -/
inductive Message.Encodable : Message → Prop where
  | scalar {value : Scalar} (encodable : value.Encodable limits) : Encodable (.scalar value none)
  | sequence {kind : SequenceKind} {elements : List Message} (length : Length limits kind.kind elements.length)
      (each : ∀ element ∈ elements, Encodable element) : Encodable (.sequence kind elements none)
  | map {entries : List (Message × Message)} (length : Length limits .map entries.length)
      (keys : ∀ entry ∈ entries, Encodable entry.1) (values : ∀ entry ∈ entries, Encodable entry.2) :
      Encodable (.map entries none)

end

section

variable {limits : Limits}

theorem Payload.numeral {data : Bytes} (payload : Payload limits data) :
    Numeral limits (decimal data.length) data.length := ⟨parseI64_decimal payload.range, payload.short⟩

theorem Length.numeral {kind : Kind} {n : Nat} (length : Length limits kind n) : Numeral limits (decimal n) n :=
  ⟨parseI64_decimal (Nat.lt_trans length.admissible.lt (by decide)), length.short⟩

variable [FloatChars]

theorem Scalar.leaf_wellFormed {value : Scalar} (encodable : value.Encodable limits) :
    value.leaf.WellFormed limits := by
  cases encodable with
  | simpleString line => exact .line rfl line.free line.short nofun nofun
  | simpleError line => exact .line rfl line.free line.short nofun nofun
  | integer low high short =>
    refine .line rfl (findCrlf_writeInt _) short (fun _ => ?_) nofun
    rw [parseI64_writeInt low high]
    rfl
  | doubleNumber line number => exact .line rfl line.free line.short nofun fun _ => number
  | boolean value => exact .boolean value
  | bigNumber line => exact .line rfl line.free line.short nofun nofun
  | null => exact .null
  | @typedNull source nullable short =>
    have typed (bulk : source.isBulk = true ∨ source.isAggregate = true) (other : source ≠ .null) :
        (Scalar.null source).leaf.WellFormed limits := by
      rw [Scalar.leaf, if_neg other]
      exact .typedNull bulk ⟨by decide, short⟩
    cases source with
    | bulkString | bulkError | verbatimString => exact typed (.inl rfl) nofun
    | array | set | push | map => exact typed (.inr rfl) nofun
    | _ => cases nullable
  | bulkString payload => exact .bulk rfl payload.numeral payload.within nofun
  | bulkError payload => exact .bulk rfl payload.numeral payload.within nofun
  | verbatimString three payload =>
    refine .bulk rfl payload.numeral payload.within fun _ => ?_
    simp [isValidVerbatimPayload, three]
    omega

theorem Scalar.meaning_leaf {value : Scalar} (encodable : value.Encodable limits) : value.leaf.meaning = value := by
  cases encodable with
  | integer low high short => simp [Scalar.leaf, Leaf.meaning, parseI64_writeInt low high]
  | @typedNull source nullable short =>
    by_cases plain : source = .null
    · subst plain
      rfl
    · simp [Scalar.leaf, plain, Leaf.meaning]
  | @verbatimString encoding data three payload =>
    simp only [Scalar.leaf, Leaf.meaning, Scalar.verbatimString.injEq]
    have behind : (encoding ++ 58 :: data).drop encoding.length = 58 :: data := List.drop_left
    have colon : (encoding ++ 58 :: data).drop 4 = ((encoding ++ 58 :: data).drop 3).drop 1 := by rw [List.drop_drop]
    rw [three] at behind
    exact ⟨by rw [← three, List.take_left], by rw [colon, behind]; rfl⟩
  | _ => rfl

namespace Message

theorem sentence_wellFormed {message : Message} (encodable : message.Encodable limits) :
    message.sentence.WellFormed limits := by
  induction encodable with
  | scalar encodable => exact .leaf (Scalar.leaf_wellFormed encodable)
  | @sequence kind elements length each ih =>
    refine .aggregate (by cases kind <;> rfl) length.numeral length.admissible ?_ ?_
    · rw [length_sentences]
      cases kind <;> rfl
    · intro sentence member
      obtain ⟨element, inside, rfl⟩ := mem_sentences member
      exact ih element inside
  | @map entries length keys values ihKeys ihValues =>
    refine .aggregate rfl length.numeral length.admissible (length_entrySentences entries) ?_
    intro sentence member
    obtain ⟨entry, inside, rfl | rfl⟩ := mem_entrySentences member
    · exact ihKeys entry inside
    · exact ihValues entry inside

/-- A message is what its derivation stands for. -/
theorem meaning_sentence {message : Message} (encodable : message.Encodable limits) :
    message.sentence.meaning = message := by
  induction encodable with
  | scalar encodable => rw [sentence, Sentence.meaning, Scalar.meaning_leaf encodable]
  | @sequence kind elements length each ih =>
    rw [sentence, Sentence.meaning, meanings_sentences ih]
    cases kind <;> rfl
  | @map entries length keys values ihKeys ihValues =>
    rw [sentence, Sentence.meaning]
    exact congrArg (fun entries => Message.map entries none) (entriesOf_meanings ihKeys ihValues)

theorem sentence_plain {message : Message} (encodable : message.Encodable limits) : message.sentence.Plain := by
  induction encodable with
  | scalar encodable => exact .leaf _
  | @sequence kind elements length each ih =>
    refine .aggregate (by cases kind <;> rfl) (by cases kind <;> nofun) ?_
    intro sentence member
    obtain ⟨element, inside, rfl⟩ := mem_sentences member
    exact ih element inside
  | @map entries length keys values ihKeys ihValues =>
    refine .aggregate rfl (fun _ => ?_) ?_
    · rw [length_entrySentences]
      omega
    · intro sentence member
      obtain ⟨entry, inside, rfl | rfl⟩ := mem_entrySentences member
      · exact ihKeys entry inside
      · exact ihValues entry inside

end Message

end

end Rediscoro.Resp3

import Rediscoro.Resp3.Token

/-! The language of RESP3 sentences.

A sentence is any number of attribute blocks and one body. The trees below are
its derivations: they keep the numeral of every header, since the parser accepts
each spelling of a length that `std::from_chars` does. The elements of a map and
the entries of an attribute block are listed key, value, key, value.
-/

set_option autoImplicit false

namespace Rediscoro.Resp3

open Rediscoro.Semantics

/-- A body without elements of its own. -/
inductive Leaf where
  | line (kind : Kind) (text : Bytes)
  | null
  | boolean (value : Bool)
  | bulk (kind : Kind) (numeral payload : Bytes)
  | typedNull (kind : Kind) (numeral : Bytes)

inductive Sentence where
  | leaf (body : Leaf)
  | aggregate (kind : Kind) (numeral : Bytes) (elements : List Sentence)
  | attributed (numeral : Bytes) (entries : List Sentence) (value : Sentence)

def Kind.isLine : Kind → Bool
  | .simpleString | .simpleError | .integer | .doubleNumber | .bigNumber => true
  | _ => false

def Kind.isBulk : Kind → Bool
  | .bulkString | .bulkError | .verbatimString => true
  | _ => false

def Kind.isAggregate : Kind → Bool
  | .array | .set | .push | .map => true
  | _ => false

/-- The number of sentences behind a header of length `n`. -/
def Kind.arity (kind : Kind) (n : Nat) : Nat := if kind = .map ∨ kind = .attribute then 2 * n else n

def header (kind : Kind) (numeral : Bytes) : Bytes := kindToPrefix kind :: (numeral ++ crlf)

def Leaf.encode : Leaf → Bytes
  | .line kind text => header kind text
  | .null => header .null []
  | .boolean value => header .boolean [if value then 116 else 102]
  | .bulk kind numeral payload => header kind numeral ++ payload ++ crlf
  | .typedNull kind numeral => header kind numeral

mutual

def Sentence.encode : Sentence → Bytes
  | .leaf body => body.encode
  | .aggregate kind numeral elements => header kind numeral ++ Sentence.encodeAll elements
  | .attributed numeral entries value => header .attribute numeral ++ Sentence.encodeAll entries ++ value.encode

def Sentence.encodeAll : List Sentence → Bytes
  | [] => []
  | sentence :: rest => sentence.encode ++ Sentence.encodeAll rest

end

/-- The text of a header: a numeral for `value` that is not longer than a line may be. -/
structure Numeral (limits : Limits) (text : Bytes) (value : Int) : Prop where
  read : parseI64 text = some value
  short : text.length ≤ limits.maxRespLineBytes

section

variable [FloatChars] (limits : Limits)

inductive Leaf.WellFormed : Leaf → Prop where
  | line {kind : Kind} {text : Bytes} (lineKind : kind.isLine = true) (free : findCrlf text = none)
      (short : text.length ≤ limits.maxRespLineBytes)
      (integer : kind = .integer → (parseI64 text).isSome = true)
      (double : kind = .doubleNumber → parseDouble text = true) : WellFormed (.line kind text)
  | null : WellFormed .null
  | boolean (value : Bool) : WellFormed (.boolean value)
  | bulk {kind : Kind} {numeral payload : Bytes} (bulkKind : kind.isBulk = true)
      (length : Numeral limits numeral payload.length) (within : payload.length ≤ limits.maxRespBulkBytes)
      (verbatim : kind = .verbatimString → isValidVerbatimPayload payload = true) :
      WellFormed (.bulk kind numeral payload)
  | typedNull {kind : Kind} {numeral : Bytes} (nullable : kind.isBulk = true ∨ kind.isAggregate = true)
      (length : Numeral limits numeral (-1)) : WellFormed (.typedNull kind numeral)

/-- A length within the limits of the parser and of its 32-bit counters. -/
structure Admissible (kind : Kind) (n : Nat) : Prop where
  within : n ≤ limits.maxRespContainerLen
  representable : isRepresentableLength kind n = true

inductive Sentence.WellFormed : Sentence → Prop where
  | leaf {body : Leaf} (formed : body.WellFormed limits) : WellFormed (.leaf body)
  | aggregate {kind : Kind} {numeral : Bytes} {n : Nat} {elements : List Sentence}
      (aggregate : kind.isAggregate = true) (length : Numeral limits numeral n) (admissible : Admissible limits kind n)
      (count : elements.length = kind.arity n) (formed : ∀ element ∈ elements, WellFormed element) :
      WellFormed (.aggregate kind numeral elements)
  | attributed {numeral : Bytes} {n : Nat} {entries : List Sentence} {value : Sentence}
      (length : Numeral limits numeral n) (admissible : Admissible limits .attribute n)
      (count : entries.length = Kind.arity .attribute n) (formed : ∀ entry ∈ entries, WellFormed entry)
      (body : WellFormed value) : WellFormed (.attributed numeral entries value)

omit [FloatChars] in
/-- An admissible length fits the counters of the frames. -/
theorem Admissible.lt {limits : Limits} {kind : Kind} {n : Nat} (admissible : Admissible limits kind n) :
    n < 2 ^ 32 := by
  have representable := admissible.representable
  simp only [isRepresentableLength, if_neg (Int.not_lt.mpr (Int.natCast_nonneg n)), maxU32] at representable
  cases kind with
  | array | set | push => have := of_decide_eq_true representable; omega
  | map | «attribute» => have := of_decide_eq_true representable; omega
  | _ => cases representable

/-- The octets of some sentence. -/
def IsSentence (octets : Bytes) : Prop := ∃ sentence : Sentence, sentence.WellFormed limits ∧ sentence.encode = octets

end

end Rediscoro.Resp3

import Rediscoro.Resp3.Raw

/-! What the parser reads at the front of the unread octets.

`nextToken` is the part of `parse_value`, `start_container` and
`start_attribute` that only looks at `buf_.data()` and the limits: it decides
that more octets are needed, that they are malformed, or which element stands in
front and how many octets it takes. The changes of state that follow a token are
the parser's `perform`.
-/

set_option autoImplicit false

namespace Rediscoro.Resp3

open Rediscoro.Semantics

structure Limits where
  maxRespBulkBytes : Nat := 512 * 1024 * 1024
  maxRespContainerLen : Nat := 1000000
  maxRespLineBytes : Nat := 64 * 1024
  deriving DecidableEq

/-- The literals `std::from_chars` accepts as a `double` to their end. -/
class FloatChars where
  accepts : Bytes → Bool

/-- A platform whose `std::from_chars` knows no double at all. -/
@[reducible] def FloatChars.none : FloatChars := ⟨fun _ => false⟩

def findCrlf (text : Bytes) : Option Nat := findPair cr lf text

/-- `std::from_chars` for `std::int64_t`, which must accept the text to its end. -/
def parseI64 (text : Bytes) : Option Int :=
  (readInt text).filter fun value => decide (-2 ^ 63 ≤ value ∧ value < 2 ^ 63)

def parseDouble [FloatChars] (text : Bytes) : Bool :=
  text == [105, 110, 102]            -- inf
    || text == [45, 105, 110, 102]   -- -inf
    || text == [110, 97, 110]        -- nan
    || FloatChars.accepts text

def maxU32 : Int := 2 ^ 32 - 1

def isRepresentableLength (type : Kind) (len : Int) : Bool :=
  if len < 0 then false
  else
    match type with
    | .array | .set | .push => len ≤ maxU32
    | .map | .attribute => len ≤ maxU32 / 2
    | _ => false

/-- Octet 58 is the colon. -/
def isValidVerbatimPayload (payload : Bytes) : Bool := payload.length ≥ 4 && payload[3]? == some 58

def exceedsI64Limit (value : Int) (limit : Nat) : Bool := if value < 0 then false else value.toNat > limit

structure LengthHeader where
  length : Int
  headerBytes : Nat

/-- `none` means that the header is not complete yet. -/
def parseLengthAfterType (limits : Limits) (data : Bytes) : Except ProtocolErrc (Option LengthHeader) :=
  let line := data.drop 1
  match findCrlf line with
  | none => if line.length > limits.maxRespLineBytes then .error .invalidLength else .ok none
  | some pos =>
      if pos > limits.maxRespLineBytes then .error .invalidLength
      else
        match parseI64 (line.take pos) with
        | none => .error .invalidLength
        | some len => .ok (some ⟨len, 1 + pos + 2⟩)

/-- A part of the unread octets, before it is turned into a view. -/
structure Span where
  offset : Nat
  length : Nat
  deriving DecidableEq

def Span.empty : Span := ⟨0, 0⟩

/-- `used` counts the octets the parser consumes for the token. -/
inductive Token where
  | more
  | bad (error : ProtocolErrc) (used : Nat)
  | attributes (pairs used : Nat)
  | container (type : Kind) (len used : Nat)
  | leaf (node : RawNode Span) (used : Nat)

def Token.used : Token → Nat
  | .more => 0
  | .bad _ used | .attributes _ used | .container _ _ used | .leaf _ used => used

/-- The header is consumed before its length is checked. -/
def startContainer (limits : Limits) (type : Kind) (header : LengthHeader) : Token :=
  if header.length < -1 then .bad .invalidLength header.headerBytes
  else if header.length > limits.maxRespContainerLen then .bad .invalidLength header.headerBytes
  else if header.length = -1 then .leaf { type := type, text := .empty, i64 := -1 } header.headerBytes
  else if ¬ isRepresentableLength type header.length then .bad .invalidLength header.headerBytes
  else .container type header.length.toNat header.headerBytes

def startAttribute (limits : Limits) (header : LengthHeader) : Token :=
  if header.length < 0 then .bad .invalidLength header.headerBytes
  else if header.length > limits.maxRespContainerLen then .bad .invalidLength header.headerBytes
  else if header.length = 0 then .attributes 0 header.headerBytes
  else if ¬ isRepresentableLength .attribute header.length then .bad .invalidLength header.headerBytes
  else .attributes header.length.toNat header.headerBytes

def withHeader (limits : Limits) (data : Bytes) (next : LengthHeader → Token) : Token :=
  match parseLengthAfterType limits data with
  | .error error => .bad error 0
  | .ok none => .more
  | .ok (some header) => next header

def nullToken : Bytes → Token
  | _ :: second :: third :: _ =>
      if second ≠ cr ∨ third ≠ lf then .bad .invalidNull 0
      else .leaf { type := .null, text := .empty } 3
  | _ => .more

def booleanToken : Bytes → Token
  | _ :: value :: third :: fourth :: _ =>
      if third ≠ cr ∨ fourth ≠ lf then .bad .invalidBoolean 0
      else if value = 116 then .leaf { type := .boolean, text := .empty, boolean := true } 4        -- t
      else if value = 102 then .leaf { type := .boolean, text := .empty, boolean := false } 4   -- f
      else .bad .invalidBoolean 0
  | _ => .more

/-- Bulk-like elements: `$`, `!` and `=`. -/
def bulkToken (limits : Limits) (type : Kind) (data : Bytes) : Token :=
  withHeader limits data fun header =>
    if header.length < -1 then .bad .invalidLength 0
    else if exceedsI64Limit header.length limits.maxRespBulkBytes then .bad .invalidLength 0
    else if header.length = -1 then .leaf { type := type, text := .empty, i64 := -1 } header.headerBytes
    else
      let len := header.length.toNat
      let need := header.headerBytes + len + 2
      if need > Buffer.sizeMax then .bad .invalidLength 0
      else if data.length < need then .more
      else if (data.drop (header.headerBytes + len)).take 2 ≠ crlf then .bad .invalidBulkTrailer 0
      else if type = .verbatimString ∧ ¬ isValidVerbatimPayload ((data.drop header.headerBytes).take len) then
        .bad .invalidVerbatim 0
      else .leaf { type := type, text := ⟨header.headerBytes, len⟩, i64 := header.length } need

/-- Line-like elements: `+`, `-`, `:`, `,` and `(`. -/
def lineToken [FloatChars] (limits : Limits) (type : Kind) (data : Bytes) : Token :=
  let lineData := data.drop 1
  match findCrlf lineData with
  | none => if lineData.length > limits.maxRespLineBytes then .bad .invalidLength 0 else .more
  | some pos =>
      if pos > limits.maxRespLineBytes then .bad .invalidLength 0
      else
        let line := lineData.take pos
        let used := 1 + pos + 2
        match type with
        | .simpleString | .simpleError | .bigNumber => .leaf { type := type, text := ⟨1, pos⟩ } used
        | .integer =>
            match parseI64 line with
            | none => .bad .invalidInteger 0
            | some value => .leaf { type := .integer, text := ⟨1, pos⟩, i64 := value } used
        | .doubleNumber =>
            if parseDouble line then .leaf { type := .doubleNumber, text := ⟨1, pos⟩, f64 := line } used
            else .bad .invalidDouble 0
        | _ => .bad .invalidTypeByte 0

def elementToken [FloatChars] (limits : Limits) (type : Kind) (data : Bytes) : Token :=
  match type with
  | .attribute => withHeader limits data (startAttribute limits)
  | .array | .map | .set | .push => withHeader limits data (startContainer limits type)
  | .null => nullToken data
  | .boolean => booleanToken data
  | .bulkString | .bulkError | .verbatimString => bulkToken limits type data
  | .simpleString | .simpleError | .integer | .doubleNumber | .bigNumber => lineToken limits type data

def nextToken [FloatChars] (limits : Limits) (data : Bytes) : Token :=
  match data.head? with
  | none => .more
  | some octet =>
      match prefixToKind octet with
      | none => .bad .invalidTypeByte 0
      | some type => elementToken limits type data

/-! Length headers. -/

theorem findCrlf_numeral {numeral : Bytes} {value : Int} (read : parseI64 numeral = some value) (rest : Bytes) :
    findCrlf (numeral ++ cr :: lf :: rest) = some numeral.length := by
  apply findPair_after (by decide)
  apply findPair_none_of_not_mem
  intro member
  obtain ⟨known, -⟩ := Option.filter_eq_some_iff.mp read
  rcases readInt_octets known cr member with minus | digit
  · exact absurd minus (by decide)
  · exact absurd digit (by decide)

theorem parseLengthAfterType_numeral {limits : Limits} {numeral : Bytes} {value : Int} (octet : UInt8)
    (read : parseI64 numeral = some value) (short : numeral.length ≤ limits.maxRespLineBytes) (rest : Bytes) :
    parseLengthAfterType limits (octet :: (numeral ++ cr :: lf :: rest)) =
      .ok (some ⟨value, 1 + numeral.length + 2⟩) := by
  simp only [parseLengthAfterType, List.drop_succ_cons, List.drop_zero, findCrlf_numeral read,
    if_neg (Nat.not_lt.mpr short), List.take_left, read]

theorem parseLengthAfterType_some {limits : Limits} {data : Bytes} {header : LengthHeader}
    (complete : parseLengthAfterType limits data = .ok (some header)) :
    ∃ octet numeral rest, data = octet :: (numeral ++ cr :: lf :: rest) ∧
      numeral.length ≤ limits.maxRespLineBytes ∧ parseI64 numeral = some header.length ∧
      header.headerBytes = 1 + numeral.length + 2 := by
  cases data with
  | nil => simp [parseLengthAfterType, findCrlf, findPair] at complete
  | cons octet line =>
    simp only [parseLengthAfterType, List.drop_succ_cons, List.drop_zero] at complete
    cases found : findCrlf line with
    | none =>
      simp only [found] at complete
      split at complete <;> cases complete
    | some pos =>
      have bound := findPair_bound found
      have taken : (line.take pos).length = pos := by rw [List.length_take]; omega
      simp only [found] at complete
      split at complete
      · cases complete
      · rename_i short
        split at complete
        · cases complete
        · rename_i value read
          cases complete
          refine ⟨octet, line.take pos, line.drop (pos + 2), ?_, by omega, read, by rw [taken]⟩
          exact congrArg (List.cons octet) (findPair_split found).2

/-- Octets that arrive behind a header that was already decided do not change it. -/
theorem parseLengthAfterType_append {limits : Limits} {data more : Bytes}
    (roomy : (data ++ more).length ≤ limits.maxRespLineBytes)
    (decided : parseLengthAfterType limits data ≠ .ok none) :
    parseLengthAfterType limits (data ++ more) = parseLengthAfterType limits data := by
  cases data with
  | nil => simp [parseLengthAfterType, findCrlf, findPair] at decided
  | cons octet line =>
    simp only [parseLengthAfterType, List.cons_append, List.drop_succ_cons, List.drop_zero] at decided ⊢
    cases found : findCrlf line with
    | none =>
      simp only [List.cons_append, List.length_cons, List.length_append] at roomy
      simp only [found] at decided
      rw [if_neg (by omega)] at decided
      exact absurd rfl decided
    | some pos =>
      have bound := findPair_bound found
      simp only [findPair_append found more, findCrlf]
      have same : (line ++ more).take pos = line.take pos := List.take_append_of_le_length (by omega)
      rw [same]

/-- What the parser relies on about a token: it takes no more octets than there are, at least
one unless it is an error, and its text lies inside them. -/
def Token.Within (length : Nat) : Token → Prop
  | .more => True
  | .bad _ used => used ≤ length
  | .attributes _ used | .container _ _ used => 0 < used ∧ used ≤ length
  | .leaf node used => 0 < used ∧ used ≤ length ∧ node.text.offset + node.text.length ≤ used

theorem withHeader_within {limits : Limits} {data : Bytes} {next : LengthHeader → Token}
    (inside : ∀ header, 0 < header.headerBytes → header.headerBytes ≤ data.length →
      (next header).Within data.length) : (withHeader limits data next).Within data.length := by
  unfold withHeader
  cases read : parseLengthAfterType limits data with
  | error error => exact Nat.zero_le _
  | ok answer =>
    cases answer with
    | none => trivial
    | some header =>
      obtain ⟨octet, numeral, rest, rfl, -, -, taken⟩ := parseLengthAfterType_some read
      apply inside
      · omega
      · simp only [List.length_cons, List.length_append]
        omega

theorem startContainer_within {limits : Limits} {type : Kind} {header : LengthHeader} {length : Nat}
    (positive : 0 < header.headerBytes) (inside : header.headerBytes ≤ length) :
    (startContainer limits type header).Within length := by
  unfold startContainer
  repeat' split
  all_goals first | trivial | exact ⟨positive, inside, by simp [Span.empty]⟩

theorem startAttribute_within {limits : Limits} {header : LengthHeader} {length : Nat}
    (positive : 0 < header.headerBytes) (inside : header.headerBytes ≤ length) :
    (startAttribute limits header).Within length := by
  unfold startAttribute
  repeat' split
  all_goals trivial

theorem bulkToken_within (limits : Limits) (type : Kind) (data : Bytes) :
    (bulkToken limits type data).Within data.length := by
  apply withHeader_within
  intro header positive inside
  dsimp only
  repeat' split
  all_goals first | trivial | exact Nat.zero_le _ | skip
  · exact ⟨positive, inside, by simp [Span.empty]⟩
  · refine ⟨by omega, by omega, ?_⟩
    show header.headerBytes + header.length.toNat ≤ _
    omega

theorem nullToken_within (data : Bytes) : (nullToken data).Within data.length := by
  unfold nullToken
  split
  · split
    · exact Nat.zero_le _
    · exact ⟨by decide, by simp, by simp [Span.empty]⟩
  · trivial

theorem booleanToken_within (data : Bytes) : (booleanToken data).Within data.length := by
  unfold booleanToken
  split
  · repeat' split
    all_goals first | exact Nat.zero_le _ | exact ⟨by decide, by simp, by simp [Span.empty]⟩
  · trivial

variable [FloatChars]

theorem lineToken_within (limits : Limits) (type : Kind) (data : Bytes) :
    (lineToken limits type data).Within data.length := by
  unfold lineToken
  dsimp only
  split
  · split
    · exact Nat.zero_le _
    · trivial
  · rename_i pos found
    have bound := findPair_bound found
    rw [List.length_drop] at bound
    repeat' split
    all_goals first | exact Nat.zero_le _ | exact ⟨by omega, by omega, by simp only; omega⟩

theorem nextToken_within (limits : Limits) (data : Bytes) : (nextToken limits data).Within data.length := by
  unfold nextToken
  split
  · trivial
  · split
    · exact Nat.zero_le _
    · rename_i type _
      cases type with
      | null => exact nullToken_within data
      | boolean => exact booleanToken_within data
      | bulkString | bulkError | verbatimString => exact bulkToken_within limits _ data
      | simpleString | simpleError | integer | doubleNumber | bigNumber =>
        simp only [elementToken]
        exact lineToken_within limits _ data
      | array | map | set | push => exact withHeader_within fun _ => startContainer_within
      | _ => exact withHeader_within fun _ => startAttribute_within

/-! A token that was decided stays when more octets arrive, as long as the line
limit is out of reach. -/

section Append

variable {limits : Limits} {data more : Bytes}

omit [FloatChars] in
theorem withHeader_append {next next' : LengthHeader → Token}
    (roomy : (data ++ more).length ≤ limits.maxRespLineBytes)
    (decided : withHeader limits data next ≠ .more)
    (same : ∀ header, parseLengthAfterType limits data = .ok (some header) → next header ≠ .more →
      next' header = next header) :
    withHeader limits (data ++ more) next' = withHeader limits data next := by
  unfold withHeader at decided ⊢
  cases read : parseLengthAfterType limits data with
  | error error => rw [parseLengthAfterType_append roomy (by rw [read]; nofun), read]
  | ok answer =>
    cases answer with
    | none => simp [read] at decided
    | some header =>
      rw [parseLengthAfterType_append roomy (by rw [read]; nofun), read]
      rw [read] at decided
      exact same header read decided

omit [FloatChars] in
theorem bulkToken_append {type : Kind} (roomy : (data ++ more).length ≤ limits.maxRespLineBytes)
    (decided : bulkToken limits type data ≠ .more) :
    bulkToken limits type (data ++ more) = bulkToken limits type data := by
  refine withHeader_append roomy decided ?_
  intro header read decided
  dsimp only at decided ⊢
  by_cases complete : data.length < header.headerBytes + header.length.toNat + 2
  · -- The payload was not there yet, so an earlier check has decided.
    simp only [if_pos complete] at decided
    repeat' split
    all_goals simp_all
  · have longer : ¬ (data ++ more).length < header.headerBytes + header.length.toNat + 2 := by
      rw [List.length_append]; omega
    have trailer : ((data ++ more).drop (header.headerBytes + header.length.toNat)).take 2 =
        (data.drop (header.headerBytes + header.length.toNat)).take 2 := by
      rw [List.drop_append_of_le_length (by omega),
        List.take_append_of_le_length (by rw [List.length_drop]; omega)]
    have payload : ((data ++ more).drop header.headerBytes).take header.length.toNat =
        (data.drop header.headerBytes).take header.length.toNat := by
      rw [List.drop_append_of_le_length (by omega),
        List.take_append_of_le_length (by rw [List.length_drop]; omega)]
    simp only [if_neg complete, if_neg longer, trailer, payload]

theorem lineToken_append {type : Kind} (present : data ≠ [])
    (roomy : (data ++ more).length ≤ limits.maxRespLineBytes) (decided : lineToken limits type data ≠ .more) :
    lineToken limits type (data ++ more) = lineToken limits type data := by
  have shifted : (data ++ more).drop 1 = data.drop 1 ++ more :=
    List.drop_append_of_le_length (List.length_pos_iff.mpr present)
  simp only [lineToken, shifted] at decided ⊢
  cases found : findCrlf (data.drop 1) with
  | none =>
    rw [List.length_append] at roomy
    simp only [found, List.length_drop] at decided
    rw [if_neg (by omega)] at decided
    exact absurd rfl decided
  | some pos =>
    have bound := findPair_bound found
    have later : findCrlf (data.drop 1 ++ more) = some pos := findPair_append found more
    have same : (data.drop 1 ++ more).take pos = (data.drop 1).take pos :=
      List.take_append_of_le_length (by omega)
    simp only [later, same]

theorem nextToken_append (roomy : (data ++ more).length ≤ limits.maxRespLineBytes)
    (decided : nextToken limits data ≠ .more) : nextToken limits (data ++ more) = nextToken limits data := by
  cases data with
  | nil => exact absurd rfl decided
  | cons octet rest =>
    simp only [nextToken, List.cons_append, List.head?_cons] at decided ⊢
    rw [← List.cons_append]
    cases known : prefixToKind octet with
    | none => rfl
    | some type =>
      simp only [known] at decided
      cases type with
      | null =>
        match rest, decided with
        | _ :: _ :: _, _ => rfl
      | boolean =>
        match rest, decided with
        | _ :: _ :: _ :: _, _ => rfl
      | bulkString | bulkError | verbatimString => exact bulkToken_append roomy decided
      | simpleString | simpleError | integer | doubleNumber | bigNumber =>
        simp only [elementToken] at decided ⊢
        exact lineToken_append (by simp) roomy decided
      | _ => exact withHeader_append roomy decided fun _ _ _ => rfl

end Append

end Rediscoro.Resp3

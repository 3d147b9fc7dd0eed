import Rediscoro.Semantics.Octets

/-! RESP3 kinds, their type octets, and the protocol error codes of the parser. -/

set_option autoImplicit false

namespace Rediscoro.Resp3

export Rediscoro.Semantics (Bytes)

/-- RESP3 protocol data kinds. -/
inductive Kind where
  | simpleString | simpleError | integer | doubleNumber | boolean | bigNumber | null
  | bulkString | bulkError | verbatimString
  | array | map | set | attribute | push
  deriving DecidableEq, Repr

def kindToPrefix : Kind → UInt8
  | .simpleString => 43    -- +
  | .simpleError => 45     -- -
  | .integer => 58         -- :
  | .doubleNumber => 44    -- ,
  | .boolean => 35         -- #
  | .bigNumber => 40       -- (
  | .null => 95            -- _
  | .bulkString => 36      -- $
  | .bulkError => 33       -- !
  | .verbatimString => 61  -- =
  | .array => 42           -- *
  | .map => 37             -- %
  | .set => 126            -- ~
  | .attribute => 124      -- |
  | .push => 62            -- >

def prefixToKind (octet : UInt8) : Option Kind :=
  if octet = 43 then some .simpleString
  else if octet = 45 then some .simpleError
  else if octet = 58 then some .integer
  else if octet = 44 then some .doubleNumber
  else if octet = 35 then some .boolean
  else if octet = 40 then some .bigNumber
  else if octet = 95 then some .null
  else if octet = 36 then some .bulkString
  else if octet = 33 then some .bulkError
  else if octet = 61 then some .verbatimString
  else if octet = 42 then some .array
  else if octet = 37 then some .map
  else if octet = 126 then some .set
  else if octet = 124 then some .attribute
  else if octet = 62 then some .push
  else none

@[simp] theorem prefixToKind_kindToPrefix (kind : Kind) : prefixToKind (kindToPrefix kind) = some kind := by
  cases kind <;> decide

private theorem switch_case {found : Prop} [Decidable found] {kind other : Kind} {rest : Option Kind}
    (taken : (if found then some other else rest) = some kind) :
    (found ∧ other = kind) ∨ rest = some kind := by
  split at taken
  · exact Or.inl ⟨‹found›, Option.some.inj taken⟩
  · exact Or.inr taken

theorem prefixToKind_some {octet : UInt8} {kind : Kind} (known : prefixToKind octet = some kind) :
    octet = kindToPrefix kind := by
  unfold prefixToKind at known
  repeat
    replace known := switch_case known
    rcases known with ⟨rfl, rfl⟩ | known
    · rfl
  cases known

inductive ProtocolErrc where
  | treeNotConsumed | invalidTypeByte | invalidNull | invalidBoolean | invalidBulkTrailer
  | invalidDouble | invalidInteger | invalidLength | invalidMapPairs | invalidState
  | parserFailed | invalidVerbatim
  deriving DecidableEq, Repr

def cr : UInt8 := 13
def lf : UInt8 := 10
def crlf : Bytes := [cr, lf]

end Rediscoro.Resp3

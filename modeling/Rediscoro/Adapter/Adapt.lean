import Mathlib.Data.Finmap
import Mathlib.Data.Vector.Basic
import Rediscoro.Resp3.Message

/-! `adapter::adapt`: from a message to a value of the type the caller asks for.

The C++ template is instantiated for a type; here the type is data, a `Target`,
and `Target.Value` is the Lean type it stands for. A map with unique keys is a
finite map, so the order of insertion is forgotten as it is in the containers of
the standard library. Doubles are opaque: only what their literals are read to
and whether two of them are equal is a parameter. That equality is lawful, so a
NaN that differs from itself and two zeros that are one key are not modelled.
-/

set_option autoImplicit false

namespace Rediscoro.Adapter

open Rediscoro.Semantics Rediscoro.Resp3

inductive Width where
  | bits8 | bits16 | bits32 | bits64
  deriving DecidableEq, Repr

def Width.bits : Width → Nat
  | .bits8 => 8
  | .bits16 => 16
  | .bits32 => 32
  | .bits64 => 64

structure IntegerType where
  signed : Bool
  width : Width
  deriving DecidableEq, Repr

namespace IntegerType

/-- `std::numeric_limits<U>`. -/
def min (type : IntegerType) : Int := if type.signed then -2 ^ (type.width.bits - 1) else 0

def max (type : IntegerType) : Int := if type.signed then 2 ^ (type.width.bits - 1) - 1 else 2 ^ type.width.bits - 1

def Value (type : IntegerType) : Type := { value : Int // type.min ≤ value ∧ value ≤ type.max }

instance (type : IntegerType) : DecidableEq type.Value := inferInstanceAs (DecidableEq { _value : Int // _ })

/-- The representative of `value` modulo the width, as `static_cast` gives it. -/
def wrap (type : IntegerType) (value : Int) : Int :=
  if type.signed then value.bmod (2 ^ type.width.bits) else value % 2 ^ type.width.bits

theorem wrap_range (type : IntegerType) (value : Int) : type.min ≤ type.wrap value ∧ type.wrap value ≤ type.max := by
  obtain ⟨signed, width⟩ := type
  cases signed with
  | false =>
    simp only [min, max, wrap, Bool.false_eq_true, if_false]
    cases width <;> simp only [Width.bits] <;> omega
  | true =>
    have low := Int.le_bmod (x := value) (Nat.two_pow_pos width.bits)
    have high := Int.bmod_lt (x := value) (Nat.two_pow_pos width.bits)
    simp only [min, max, wrap, if_true]
    cases width <;> simp only [Width.bits] at low high ⊢ <;> omega

def staticCast (type : IntegerType) (value : Int) : type.Value := ⟨type.wrap value, type.wrap_range value⟩

end IntegerType

/-- The types `adapt` is instantiated for. -/
inductive Target where
  | string
  | integer (type : IntegerType)
  | boolean
  | double
  | optional (inner : Target)
  | sequence (element : Target)
  | array (size : Nat) (element : Target)
  | map (key value : Target)
  deriving DecidableEq, Repr

section Values

variable (δ : Type)

def Target.Value : Target → Type
  | .string => Bytes
  | .integer type => type.Value
  | .boolean => Bool
  | .double => δ
  | .optional inner => Option inner.Value
  | .sequence element => List element.Value
  | .array size element => List.Vector element.Value size
  | .map key value => Finmap fun _ : key.Value => value.Value

variable [DecidableEq δ]

instance Target.decidableEqValue : (target : Target) → DecidableEq (target.Value δ)
  | .string => inferInstanceAs (DecidableEq Bytes)
  | .integer type => inferInstanceAs (DecidableEq type.Value)
  | .boolean => inferInstanceAs (DecidableEq Bool)
  | .double => inferInstanceAs (DecidableEq δ)
  | .optional inner =>
      let _ := decidableEqValue inner
      inferInstanceAs (DecidableEq (Option (inner.Value δ)))
  | .sequence element =>
      let _ := decidableEqValue element
      inferInstanceAs (DecidableEq (List (element.Value δ)))
  | .array size element =>
      let _ := decidableEqValue element
      inferInstanceAs (DecidableEq (List.Vector (element.Value δ) size))
  | .map key value =>
      let _ := decidableEqValue key
      let _ := decidableEqValue value
      inferInstanceAs (DecidableEq (Finmap fun _ : key.Value δ => value.Value δ))

end Values

/-! Errors. -/

inductive AdapterErrc where
  | typeMismatch | unexpectedNull | valueOutOfRange | duplicateKey | sizeMismatch
  deriving DecidableEq, Repr

inductive Field where
  | key | value
  deriving DecidableEq, Repr

inductive PathElement where
  | index (index : Nat)
  | key (key : Bytes)
  | field (field : Field)
  deriving DecidableEq, Repr

structure Error where
  kind : AdapterErrc
  actualType : Kind
  expectedTypes : List Kind := []
  path : List PathElement := []
  expectedSize : Option Nat := none
  gotSize : Option Nat := none
  deriving DecidableEq, Repr

namespace Error

def prependPath (e : Error) (element : PathElement) : Error := { e with path := element :: e.path }

def typeMismatch (actual : Kind) (expected : List Kind) : Error :=
  { kind := .typeMismatch, actualType := actual, expectedTypes := expected }

def unexpectedNull (expected : List Kind) : Error :=
  { kind := .unexpectedNull, actualType := .null, expectedTypes := expected }

def valueOutOfRange (kind : Kind) : Error := { kind := .valueOutOfRange, actualType := kind, expectedTypes := [kind] }

def duplicateKey : Error := { kind := .duplicateKey, actualType := .map, expectedTypes := [.map] }

def sizeMismatch (actual : Kind) (expected got : Nat) : Error :=
  { kind := .sizeMismatch, actualType := actual, expectedSize := some expected, gotSize := some got }

end Error

/-! Messages as the adapters look at them. -/

def Scalar.getKind : Scalar → Kind
  | .simpleString _ => .simpleString
  | .simpleError _ => .simpleError
  | .integer _ => .integer
  | .doubleNumber _ => .doubleNumber
  | .boolean _ => .boolean
  | .bigNumber _ => .bigNumber
  | .null _ => .null
  | .bulkString _ => .bulkString
  | .bulkError _ => .bulkError
  | .verbatimString .. => .verbatimString

def getKind : Message → Kind
  | .scalar value _ => Scalar.getKind value
  | .sequence kind .. => kind.kind
  | .map .. => .map

/-- `is<null>()`, for the generic null and for the typed ones. -/
def isNull : Message → Bool
  | .scalar (.null _) _ => true
  | _ => false

/-! Scalars. -/

def stringKinds : List Kind := [.simpleString, .bulkString, .verbatimString]

def adaptString (msg : Message) : Except Error Bytes :=
  match msg with
  | .scalar (.null _) _ => .error (.unexpectedNull stringKinds)
  | .scalar (.simpleString data) _ => .ok data
  | .scalar (.bulkString data) _ => .ok data
  | .scalar (.verbatimString _ data) _ => .ok data
  | _ => .error (.typeMismatch (getKind msg) stringKinds)

/-- The checks that the type needs; those of 64 bits need none, or only the sign. -/
def adaptInteger (type : IntegerType) (msg : Message) : Except Error type.Value :=
  match msg with
  | .scalar (.null _) _ => .error (.unexpectedNull [.integer])
  | .scalar (.integer v) _ =>
      if type.signed then
        if type.width.bits < 64 ∧ (v < type.min ∨ type.max < v) then .error (.valueOutOfRange .integer)
        else .ok (type.staticCast v)
      else if v < 0 then .error (.valueOutOfRange .integer)
      else if type.width.bits < 64 ∧ type.max < v then .error (.valueOutOfRange .integer)
      else .ok (type.staticCast v)
  | _ => .error (.typeMismatch (getKind msg) [.integer])

def adaptBoolean (msg : Message) : Except Error Bool :=
  match msg with
  | .scalar (.null _) _ => .error (.unexpectedNull [.boolean])
  | .scalar (.boolean value) _ => .ok value
  | _ => .error (.typeMismatch (getKind msg) [.boolean])

section Doubles

variable {δ : Type} (readDouble : Bytes → δ)

def adaptDouble (msg : Message) : Except Error δ :=
  match msg with
  | .scalar (.null _) _ => .error (.unexpectedNull [.doubleNumber])
  | .scalar (.doubleNumber literal) _ => .ok (readDouble literal)
  | _ => .error (.typeMismatch (getKind msg) [.doubleNumber])

end Doubles

/-! Containers, given the adapters of what they hold. -/

section Containers

variable {α κ ν : Type}

def adaptOptional (adapt : Message → Except Error α) (msg : Message) : Except Error (Option α) :=
  if isNull msg then .ok none else (adapt msg).map some

/-- The loop over the elements of a sequence or an array, from the position `i` on. -/
def adaptElements (adapt : Message → Except Error α) :
    Nat → (elems : List Message) → Except Error (List.Vector α elems.length)
  | _, [] => .ok .nil
  | i, elem :: rest =>
      match adapt elem with
      | .error e => .error (e.prependPath (.index i))
      | .ok value =>
          match adaptElements adapt (i + 1) rest with
          | .error e => .error e
          | .ok values => .ok (value ::ᵥ values)

def adaptSequence (adapt : Message → Except Error α) (msg : Message) : Except Error (List α) :=
  match msg with
  | .sequence _ elems _ => (adaptElements adapt 0 elems).map List.Vector.toList
  | _ => .error (.typeMismatch (getKind msg) [.array, .set, .push])

def adaptStdArray (size : Nat) (adapt : Message → Except Error α) (msg : Message) : Except Error (List.Vector α size) :=
  match msg with
  | .sequence .array elems _ =>
      if same : elems.length = size then (adaptElements adapt 0 elems).map (same ▸ ·)
      else .error (.sizeMismatch (getKind msg) size elems.length)
  | _ => .error (.typeMismatch (getKind msg) [.array])

variable [DecidableEq κ]

/-- Where a key is a string the path names it, otherwise the entry and its side. -/
def Error.inEntry (e : Error) (label : Option Bytes) (i : Nat) (field : Field) : Error :=
  match label with
  | some key => e.prependPath (.key key)
  | none => (e.prependPath (.field field)).prependPath (.index i)

/-- The loop over the entries of a map. A key that the map holds already is an
error before its value is looked at, so `emplace` always inserts. -/
def adaptEntries (label : κ → Option Bytes) (adaptKey : Message → Except Error κ)
    (adaptValue : Message → Except Error ν) :
    Nat → Finmap (fun _ : κ => ν) → List (Message × Message) → Except Error (Finmap fun _ : κ => ν)
  | _, out, [] => .ok out
  | i, out, (km, vm) :: rest =>
      match adaptKey km with
      | .error e => .error ((e.prependPath (.field .key)).prependPath (.index i))
      | .ok key =>
          if key ∈ out then .error (Error.duplicateKey.inEntry (label key) i .key)
          else
            match adaptValue vm with
            | .error e => .error (e.inEntry (label key) i .value)
            | .ok value => adaptEntries label adaptKey adaptValue (i + 1) (out.insert key value) rest

def adaptMap (label : κ → Option Bytes) (adaptKey : Message → Except Error κ) (adaptValue : Message → Except Error ν)
    (msg : Message) : Except Error (Finmap fun _ : κ => ν) :=
  match msg with
  | .map entries _ => adaptEntries label adaptKey adaptValue 0 ∅ entries
  | _ => .error (.typeMismatch (getKind msg) [.map])

end Containers

section Adapt

variable {δ : Type} [DecidableEq δ] (readDouble : Bytes → δ)

/-- The text of a key whose type is `std::string`. -/
def keyLabel : (target : Target) → target.Value δ → Option Bytes
  | .string, text => some text
  | _, _ => none

def adapt : (target : Target) → Message → Except Error (target.Value δ)
  | .string, msg => adaptString msg
  | .integer type, msg => adaptInteger type msg
  | .boolean, msg => adaptBoolean msg
  | .double, msg => adaptDouble readDouble msg
  | .optional inner, msg => adaptOptional (adapt inner) msg
  | .sequence element, msg => adaptSequence (adapt element) msg
  | .array size element, msg => adaptStdArray size (adapt element) msg
  | .map key value, msg => adaptMap (keyLabel key) (adapt key) (adapt value) msg

end Adapt

end Rediscoro.Adapter

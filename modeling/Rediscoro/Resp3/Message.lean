import Rediscoro.Resp3.Kind

/-! RESP3 messages.

A message is a value with optional attributes. `array`, `set` and `push` differ
in their kind only, so they share one constructor; doubles are identified with
their literal. The texts of the source's messages are views like those of the raw
nodes, to be looked through before the parser is reclaimed; a message here holds
what such a look finds.
-/

set_option autoImplicit false

namespace Rediscoro.Resp3

open Rediscoro.Semantics

inductive Scalar where
  | simpleString (data : Bytes)
  | simpleError (message : Bytes)
  | integer (value : Int)
  | doubleNumber (value : Bytes)
  | boolean (value : Bool)
  | bigNumber (value : Bytes)
  | null (source : Kind)
  | bulkString (data : Bytes)
  | bulkError (message : Bytes)
  | verbatimString (encoding data : Bytes)
  deriving DecidableEq

inductive SequenceKind where
  | array | set | push
  deriving DecidableEq

def SequenceKind.kind : SequenceKind → Kind
  | .array => .array
  | .set => .set
  | .push => .push

inductive Message where
  | scalar (value : Scalar) (attrs : Option (List (Message × Message)))
  | sequence (kind : SequenceKind) (elements : List Message) (attrs : Option (List (Message × Message)))
  | map (entries : List (Message × Message)) (attrs : Option (List (Message × Message)))

namespace Message

/-- The message a default-constructed one is. -/
def null : Message := .scalar (.null .null) none

def withAttrs (message : Message) (attrs : List (Message × Message)) : Message :=
  match message with
  | .scalar value _ => .scalar value attrs
  | .sequence kind elements _ => .sequence kind elements attrs
  | .map entries _ => .map entries attrs

/-- `as<T>().elements.push_back`, where `T` is the container for `kind`. -/
def pushElement (message : Message) (kind : Kind) (element : Message) : Option Message :=
  match message with
  | .sequence own elements attrs => if own.kind = kind then some (.sequence own (elements ++ [element]) attrs) else none
  | _ => none

/-- `as<map>().entries.push_back`. -/
def pushEntry (message key value : Message) : Option Message :=
  match message with
  | .map entries attrs => some (.map (entries ++ [(key, value)]) attrs)
  | _ => none

end Message

end Rediscoro.Resp3

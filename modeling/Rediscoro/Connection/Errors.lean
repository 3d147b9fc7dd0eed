import Rediscoro.Adapter.Adapt

/-! Error codes and what is printed of them.

An error names one of four categories; `error_info` adds a detail for a reader.
Errors of the runtime library are kept apart: the connection looks at two of them
and passes the text of the others on.
-/

set_option autoImplicit false

namespace Rediscoro

open Rediscoro.Semantics Rediscoro.Resp3 Rediscoro.Adapter

/-- The octets of a text. -/
def text (words : String) : Bytes := words.toUTF8.toList

inductive ClientErrc where
  | operationAborted | connectionClosed | resolveFailed | resolveTimeout | connectFailed | connectTimeout
  | connectionReset | handshakeFailed | handshakeTimeout | writeError | connectionLost | unsolicitedMessage
  | requestTimeout | notConnected | alreadyInProgress | queueFull | internalError
  deriving DecidableEq, Repr

inductive ServerErrc where
  | redisError
  deriving DecidableEq, Repr

inductive ErrorCode where
  | client (errc : ClientErrc)
  | protocol (errc : ProtocolErrc)
  | server (errc : ServerErrc)
  | adapter (errc : AdapterErrc)
  deriving DecidableEq, Repr

def ClientErrc.message : ClientErrc → String
  | .operationAborted => "operation aborted"
  | .connectionClosed => "connection closed"
  | .resolveFailed => "resolve failed"
  | .resolveTimeout => "resolve timeout"
  | .connectFailed => "connect failed"
  | .connectTimeout => "connect timeout"
  | .connectionReset => "connection reset"
  | .handshakeFailed => "handshake failed"
  | .handshakeTimeout => "handshake timeout"
  | .writeError => "write error"
  | .connectionLost => "connection lost"
  | .unsolicitedMessage => "unsolicited message"
  | .requestTimeout => "request timeout"
  | .notConnected => "not connected"
  | .alreadyInProgress => "already in progress"
  | .queueFull => "queue full"
  | .internalError => "internal error"

end Rediscoro

namespace Rediscoro.Resp3

def ProtocolErrc.message : ProtocolErrc → String
  | .treeNotConsumed => "resp3 tree not consumed"
  | .invalidTypeByte => "resp3 invalid type byte"
  | .invalidNull => "resp3 invalid null"
  | .invalidBoolean => "resp3 invalid boolean"
  | .invalidBulkTrailer => "resp3 invalid bulk trailer"
  | .invalidVerbatim => "resp3 invalid verbatim"
  | .invalidDouble => "resp3 invalid double"
  | .invalidInteger => "resp3 invalid integer"
  | .invalidLength => "resp3 invalid length"
  | .invalidMapPairs => "resp3 invalid map pairs"
  | .invalidState => "resp3 invalid state"
  | .parserFailed => "resp3 parser failed"

end Rediscoro.Resp3

namespace Rediscoro.Adapter

def AdapterErrc.message : AdapterErrc → String
  | .typeMismatch => "type mismatch"
  | .unexpectedNull => "unexpected null"
  | .valueOutOfRange => "value out of range"
  | .duplicateKey => "duplicate key"
  | .sizeMismatch => "size mismatch"

end Rediscoro.Adapter

namespace Rediscoro

open Rediscoro.Semantics Rediscoro.Resp3 Rediscoro.Adapter

def ErrorCode.category : ErrorCode → String
  | .client _ => "rediscoro.client"
  | .protocol _ => "rediscoro.resp3"
  | .server _ => "rediscoro.server"
  | .adapter _ => "rediscoro.adapter"

def ErrorCode.message : ErrorCode → String
  | .client errc => errc.message
  | .protocol errc => errc.message
  | .server .redisError => "redis error reply"
  | .adapter errc => errc.message

structure ErrorInfo where
  code : ErrorCode
  detail : Bytes := []
  deriving DecidableEq, Repr

namespace ErrorInfo

/-- An error of the client without a detail. -/
def client (errc : ClientErrc) : ErrorInfo := { code := .client errc }

def toString (e : ErrorInfo) : Bytes :=
  text (e.code.category ++ ": " ++ e.code.message) ++
    if e.detail = [] then [] else text " (" ++ e.detail ++ text ")"

end ErrorInfo

/-- Errors of the runtime library. -/
inductive IoError where
  | timedOut
  | operationAborted
  | other (message : Bytes)
  deriving DecidableEq, Repr

/-- The error codes a handshake can end with. -/
inductive HandshakeError where
  | io (error : IoError)
  | code (code : ErrorCode)
  deriving DecidableEq, Repr

end Rediscoro

import Rediscoro.Semantics.Loop
import Rediscoro.Semantics.Octets
import Rediscoro.Semantics.Transition
import Rediscoro.Semantics.Ring
import Rediscoro.Semantics.Ledger
import Rediscoro.Semantics.History
import Rediscoro.Resp3.Kind
import Rediscoro.Resp3.Buffer
import Rediscoro.Resp3.ByteQueue
import Rediscoro.Resp3.Raw
import Rediscoro.Resp3.Token
import Rediscoro.Resp3.Grammar
import Rediscoro.Resp3.Lexing
import Rediscoro.Resp3.Parser
import Rediscoro.Resp3.Absorb
import Rediscoro.Resp3.Layout
import Rediscoro.Resp3.Mirror
import Rediscoro.Resp3.Message
import Rediscoro.Resp3.Builder
import Rediscoro.Resp3.Blank
import Rediscoro.Resp3.Encoding
import Rediscoro.Resp3.Drain
import Rediscoro.Resp3.ZeroCopy
import Rediscoro.Resp3.Resume
import Rediscoro.Resp3.Framing
import Rediscoro.Resp3.RoundTrip
import Rediscoro.Resp3.Attributes
import Rediscoro.Resp3.Session
import Rediscoro.Resp3.Frames
import Rediscoro.Resp3.Calls
import Rediscoro.Resp3.Buildable
import Rediscoro.Resp3.LineLimit
import Rediscoro.Resp3.Restarts
import Rediscoro.Resp3.Streams
import Rediscoro.Resp3.Rendering
import Rediscoro.Resp3.Listening
import Rediscoro.Pipeline.Sink
import Rediscoro.Pipeline.PendingResponse
import Rediscoro.Pipeline.Queue
import Rediscoro.Pipeline.Stock
import Rediscoro.Pipeline.RingQueue
import Rediscoro.Pipeline.Delivery
import Rediscoro.Pipeline.Accounts
import Rediscoro.Pipeline.Wire
import Rediscoro.Adapter.Adapt
import Rediscoro.Adapter.Exact
import Rediscoro.Adapter.Paths
import Rediscoro.Connection.Errors
import Rediscoro.Connection.Sink
import Rediscoro.Connection.Dispatch
import Rediscoro.Connection.System
import Rediscoro.Connection.Coroutines
import Rediscoro.Connection.Moves
import Rediscoro.Connection.Life
import Rediscoro.Connection.Projection
import Rediscoro.Connection.Sound
import Rediscoro.Connection.Exclusive
import Rediscoro.Connection.Shutdown
import Rediscoro.Connection.Served
import Rediscoro.Connection.Events
import Rediscoro.Connection.Resets
import Rediscoro.Connection.Traffic
import Rediscoro.Connection.Tenancy
import Rediscoro.Connection.Tracing
import Rediscoro.Connection.Writes
import Rediscoro.Connection.Hearing
import Rediscoro.Connection.Line
import Rediscoro.Connection.Pushes
import Rediscoro.Connection.Handshake
import Rediscoro.Connection.Dialogue
import Rediscoro.Connection.Answers
import Rediscoro.Connection.Wakeups
import Rediscoro.Connection.Settlement
import Rediscoro.Connection.Outcomes
import Rediscoro.Pipeline.Storage
import Rediscoro.Connection.Relabel
import Rediscoro.Connection.Link
import Rediscoro.Connection.Open
import Rediscoro.Connection.Opening
import Rediscoro.Connection.Period

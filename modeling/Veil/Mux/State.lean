import Veil.Mux.Profile

/-!
# Streams and sessions

The data of `internal/mux/stream.go` and `internal/mux/session.go`.  A session
keeps every stream it ever made, by identifier: the map `s.streams` holds the
identifiers the session still routes to, while an application may go on using
a stream that has left the map.

The reader, the writer and the goroutines inside a stream call are explicit
control states.  Times, deadlines and activity stamps are left out, and so are
the wake-up channels of blocked readers: a blocked call is a call whose next
critical section has not run yet.

History variables record what was written, read, sent and received.  No
operation of the model reads them.
-/

namespace Veil.Mux

/-- The errors of the package and of the transport below it. -/
inductive Err where
  | protocol
  | reset
  | full
  | openError (code : Byte)
  | closed
  | eof
  | unexpectedEOF
  | noProgress
  | shortWrite
  | notConnected
  | other (number : Nat)
  deriving DecidableEq, Repr

/-- The errors a transport may return; the others are the package's own. -/
def Err.ofTransport : Err → Bool
  | .protocol | .reset | .full | .openError _ => false
  | _ => true

/-- A receive block: the published bytes `b[:end]` and the read position. -/
structure Chunk where
  b : List Byte
  start : Nat
  complete : Bool
  deriving DecidableEq, Repr

/-- A pending `Write`. -/
structure WriteRequest where
  p : List Byte
  off : Nat
  finished : Bool
  deriving DecidableEq, Repr

/-- The call that holds a stream's `writeMu`. -/
inductive Call where
  | idle
  | respond
  | write
  | closeWrite
  | finish
  deriving DecidableEq, Repr

/--
One stream.  `controlDone`, `finDone` and `writeDone` are the contents of the
channels that report a written control frame, the FIN of `CloseWrite` and the
result of a `Write`.
-/
structure Stream where
  metadata : List Byte
  refundAt : Nat
  applicationDone : Bool
  peerDone : Bool
  pendingFIN : Bool
  ready : Bool
  closed : Bool
  localFIN : Bool
  remoteFIN : Bool
  err : Option Err
  sendCredit : Int
  recvCredit : Int
  refund : Int
  queue : List Chunk
  head : Nat
  request : Option WriteRequest
  controlDone : List (Option Err)
  finDone : List (Option Err)
  writeDone : List (Nat × Option Err)
  transferred : Nat
  call : Call
  /-- History: the bytes that returned `Write` calls reported as written. -/
  wrote : List Byte
  /-- History: the bytes that `Read` calls returned. -/
  delivered : List Byte
  /-- History: `wrote` at the time `CloseWrite` took effect. -/
  closedAt : Option (List Byte)
  deriving DecidableEq, Repr

/-- The channel a queued control frame reports to when it has been written. -/
inductive Waiter where
  | nobody
  | controlDone
  | finDone
  deriving DecidableEq, Repr

/-- A queued control frame. -/
structure Control where
  frame : Frame
  done : Waiter
  deriving DecidableEq, Repr

/--
The read loop's position.  A stream found at the header check is `live` when it
was in the map and had no error.  A stopped reader keeps the position it
stopped at.
-/
inductive Reader where
  /-- Reading the eight header bytes; with all eight, before the header check. -/
  | header (h : List Byte)
  /-- Reading a control payload; complete, before the frame takes effect. -/
  | payload (header : Header) (live : Bool) (p : List Byte)
  /-- A DATA header has passed its check; no block has been taken yet. -/
  | chunk (header : Header) (live : Bool)
  /-- Reading a DATA payload into a block. -/
  | receiving (header : Header) (got : List Byte) (discard : Bool)
  | stopped (cause : Err) (last : Reader)
  deriving DecidableEq, Repr

/-- A batch handed to the transport. -/
structure Batch where
  unsent : List Byte
  completed : List Nat
  sentControls : List Control
  more : Bool
  /-- The argument triple of the padding hook, when it is called. -/
  padding : Option (Nat × Nat × Nat)
  deriving DecidableEq, Repr

/-- The write loop's position. -/
inductive Writer where
  | parked
  | running
  | writing (batch : Batch)
  | stopped
  deriving DecidableEq, Repr

/-- One session. -/
structure Session where
  server : Bool
  shape : Shape
  /-- The parent context of accepted streams has been cancelled. -/
  cancelled : Bool
  objs : Nat → Option Stream
  streams : List Nat
  lastID : Nat
  lastSent : Nat
  controls : List Control
  err : Option Err
  wake : Bool
  accepted : List Nat
  /-- `prefix`: the caller's authentication frame, sent with the first batch. -/
  preamble : List Byte
  reader : Reader
  writer : Writer
  /-- The goroutines that have decided to call `fail` and hold no lock. -/
  failing : List Err
  /-- History: every frame put into a batch. -/
  emitted : List Frame
  /-- History: every frame read completely and not refused. -/
  processed : List Frame
  /-- History: every byte read from the transport. -/
  received : List Byte
  /-- History: every byte the transport accepted. -/
  sent : List Byte

/-- `New`: nothing opened, nothing read, nothing queued. -/
def Session.new (server : Bool) (shape : Shape) : Session where
  server := server
  shape := shape
  cancelled := false
  objs := fun _ => none
  streams := []
  lastID := 0
  lastSent := 0
  controls := []
  err := none
  wake := false
  accepted := []
  preamble := []
  reader := .header []
  writer := .parked
  failing := []
  emitted := []
  processed := []
  received := []
  sent := []

namespace Stream

/-- The stream `newStreamLocked` makes. -/
def fresh (metadata : List Byte) (refundAt : Nat) : Stream where
  metadata := metadata
  refundAt := refundAt
  applicationDone := false
  peerDone := false
  pendingFIN := false
  ready := false
  closed := false
  localFIN := false
  remoteFIN := false
  err := none
  sendCredit := windowBlocks
  recvCredit := windowBlocks
  refund := 0
  queue := []
  head := 0
  request := none
  controlDone := []
  finDone := []
  writeDone := []
  transferred := 0
  call := .idle
  wrote := []
  delivered := []
  closedAt := none

/-- `queue[head:]`; the entries below `head` are nil in the source. -/
def unread (st : Stream) : List Chunk := st.queue.drop st.head

end Stream

/-- The bytes published in a block and not yet returned by `Read`. -/
def Chunk.rest (c : Chunk) : List Byte := c.b.drop c.start

end Veil.Mux

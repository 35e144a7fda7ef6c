import Veil.Mux.Frame
import Veil.Rust.Traffic

/-!
# Slots and sessions of the Rust implementation

The data of `veil-rust/src/mux.rs`.  The map `streams` is a function together
with its keys in ascending order.  A `Stream` is a handle on one slot: it exists
from the call that inserts the slot until `Stream::drop` removes it, so the
handle and the slot have one name, the identifier.

The background task joins the read loop, the write loop and the watchdog.  When
one of them ends, all of them do, and `ended` holds the error the task will fail
the session with.

Wakers, activity stamps and `idle_since` are left out: a pending poll is a call
that returns `pending`, and which streams the watchdog finds idle is part of its
step.  The calls `ready`, `cancelled` and `poll_flush` only wait.

History variables record the frames and bytes of a session.  No operation of
the model reads them.
-/

namespace Veil.Rust

open Veil.Lib
open Veil.Mux (Byte Kind Header Frame blockSize headerSize maxStreams)

/-- `WINDOW`. -/
def window : Nat := 256
/-- `BATCH`. -/
def batchBytes : Nat := 128 * 1024
/-- `SEND_BUFFER`. -/
def sendBuffer : Nat := 256 * 1024
/-- The bound of the control queue in `State::control`. -/
def maxControls : Nat := 64
/-- The identifier from which a session opens no more streams: `u32::MAX - 2`. -/
def lastID : Nat := 2 ^ 32 - 1 - 2

/-- `+` on `u16`. -/
def u16Add (a b : Nat) : Nat := (a + b) % 2 ^ 16

/-- `-` on `u16`. -/
def u16Sub (a b : Nat) : Nat := (a + 2 ^ 16 - b) % 2 ^ 16

theorem u16Add_eq {a b : Nat} (fits : a + b < 2 ^ 16) : u16Add a b = a + b :=
  Nat.mod_eq_of_lt fits

theorem u16Sub_eq {a b : Nat} (ordered : b ≤ a) (small : a < 2 ^ 16) : u16Sub a b = a - b := by
  have shifted : a + 2 ^ 16 - b = (a - b) + 2 ^ 16 := by omega
  rw [u16Sub, shifted, Nat.add_mod_right]
  exact Nat.mod_eq_of_lt (by omega)

/-- `io::ErrorKind`, as far as the crate and its transport use it. -/
inductive ErrorKind where
  /-- `invalid()`: a frame or a state the protocol does not allow. -/
  | invalidData
  | other
  | connectionAborted
  | connectionRefused
  | connectionReset
  | timedOut
  | notConnected
  | wouldBlock
  | brokenPipe
  | unexpectedEof
  | transport (number : Nat)
  deriving DecidableEq, Repr

/-- The errors a reliable transport may return; `invalid()` is the crate's own. -/
def ErrorKind.ofTransport : ErrorKind → Bool
  | .invalidData => false
  | _ => true

/-- `Terminal`: not yet, finished, or failed with an error. -/
abbrev Terminal := Option (Except ErrorKind Unit)

/-- A receive block. -/
structure Chunk where
  bytes : List Byte
  complete : Bool
  deriving DecidableEq, Repr

structure Slot where
  opened : Bool
  localFin : Bool
  finSent : Bool
  finFlushed : Bool
  remoteFin : Bool
  terminal : Terminal
  transferred : Nat
  sendCredit : Nat
  recvCredit : Nat
  consumed : Nat
  creditAt : Nat
  input : List Chunk
  output : List (List Byte)
  queued : Nat
  inflight : Nat

/-- The address `Target::encode` makes: 7, 19 or 5 to 259 bytes. -/
structure Target where
  payload : List Byte
  sized : 0 < payload.length ∧ payload.length ≤ 259

/-- The read loop's position; with all bytes, before the frame takes effect. -/
inductive Reader where
  | header (h : List Byte)
  /-- A control header has passed its check. -/
  | payload (header : Header) (p : List Byte)
  /-- A DATA header has passed its check. -/
  | data (header : Header) (got : List Byte)
  deriving DecidableEq, Repr

/-- An entry of the list `batch` returns: `(id, fin, done)`. -/
structure Touched where
  id : Nat
  fin : Bool
  done : Bool
  deriving DecidableEq, Repr

/-- One session: `Inner` with its `State`, the channel `incoming`, and the task. -/
structure Session where
  server : Bool
  traffic : Traffic
  slots : Nat → Option Slot
  /-- The keys of `streams`, in ascending order. -/
  ids : List Nat
  high : Nat
  lastSent : Nat
  controls : List Frame
  failure : Option ErrorKind
  /-- The length of `prefix`: the peer's `accept` reads these bytes. -/
  preamble : Nat
  startup : Nat
  /-- The streams in the channel `incoming`. -/
  incoming : List Nat
  /-- The receiver of `incoming` has been dropped. -/
  hungUp : Bool
  /-- The callers of `Stream::drop` that will call `fail` and hold no lock. -/
  failing : List ErrorKind
  reader : Reader
  /-- `out` has been handed to the transport; these bytes are not accepted yet. -/
  writing : Bool
  out : List Byte
  touched : List Touched
  ended : Option ErrorKind
  /-- History: some call of `State::control` found the queue full. -/
  full : Bool
  /-- History: every frame put into a batch. -/
  emitted : List Frame
  /-- History: every frame read completely and not refused. -/
  processed : List Frame
  /-- History: every byte read from the transport. -/
  received : List Byte
  /-- History: every byte of a batch the transport accepted. -/
  sent : List Byte

/-- `Slot::new`. -/
def Slot.new (creditAt : Nat) : Slot where
  opened := false
  localFin := false
  finSent := false
  finFlushed := false
  remoteFin := false
  terminal := none
  transferred := 0
  sendCredit := window
  recvCredit := window
  consumed := 0
  creditAt := creditAt
  input := []
  output := []
  queued := 0
  inflight := 0

/-- `Session::start`. -/
def Session.start (server : Bool) (traffic : Traffic) (preamble : Nat) : Session where
  server := server
  traffic := traffic
  slots := fun _ => none
  ids := []
  high := 0
  lastSent := 0
  controls := []
  failure := none
  preamble := preamble
  startup := 0
  incoming := []
  hungUp := false
  failing := []
  reader := .header []
  writing := false
  out := []
  touched := []
  ended := none
  full := false
  emitted := []
  processed := []
  received := []
  sent := []

end Veil.Rust

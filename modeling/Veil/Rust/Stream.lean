import Veil.Rust.State

/-!
# The calls on a session and its streams

`State`, `Inner`, `Session` and `Stream` of `veil-rust/src/mux.rs` as functions
on the session.  Each function is one critical section of the state's mutex.  A
call on a stream takes the handle's identifier and is `none` when there is no
such handle.

`Stream::drop` that cannot queue its RESET releases the lock before it fails the
session, so the error goes to `failing` and the failure is a step of its own.
-/

namespace Veil.Rust

open Veil.Lib
open Veil.Mux (Byte Kind Header Frame blockSize headerSize maxStreams)

namespace Slot

/-- `terminal` is `None`. -/
def live (st : Slot) : Bool := st.terminal.isNone

/-- `Slot::fail`: a finished stream stays finished. -/
def fail (st : Slot) (kind : ErrorKind) : Slot :=
  match st.terminal with
  | some (.ok _) => st
  | _ => { st with terminal := some (.error kind), input := [], output := [], queued := 0 }

/-- `Slot::check`. -/
def check (st : Slot) : Option ErrorKind :=
  match st.terminal with
  | some (.error e) => some e
  | _ => none

/-- The effect of a written batch on one slot it touched (`write_loop`). -/
def flushed (st : Slot) (t : Touched) : Slot :=
  let st :=
    if t.done then
      if st.live then { st with terminal := some (.ok ()) } else st
    else { st with inflight := st.inflight - 1 }
  if t.fin then { st with finFlushed := true } else st

end Slot

namespace Session

/-- Replace one slot. -/
def set (s : Session) (k : Nat) (st : Slot) : Session :=
  { s with slots := fun i => if i = k then some st else s.slots i }

/-- `streams.insert`: a new identifier is larger than every key of the map. -/
def insert (s : Session) (k : Nat) (st : Slot) : Session :=
  { s.set k st with ids := s.ids ++ [k] }

/-- `high` becomes the identifier of a new stream. -/
def raise (s : Session) (id : Nat) : Session := { s with high := id }

/-- `streams.remove`. -/
def remove (s : Session) (k : Nat) : Session :=
  { s with
    slots := fun i => if i = k then none else s.slots i
    ids := s.ids.filter (· ≠ k) }

/-- The stream is in the map and not terminal. -/
def liveAt (s : Session) (k : Nat) : Bool := (s.slots k).any Slot.live

/-- `State::active`. -/
def active (s : Session) : Nat := s.ids.countP s.liveAt

/--
The coalescing branch of `State::control`: the first queued CREDIT of the stream
takes the new amount, unless the sum exceeds the window.
-/
def coalesce (id : Nat) (payload : List Byte) :
    List Frame → Option (Except ErrorKind (List Frame))
  | [] => none
  | c :: rest =>
      if c.kind = .credit ∧ c.id = id then
        let amount := u16Add (fromBigEndian c.payload) (fromBigEndian payload)
        if window < amount then some (.error .invalidData)
        else some (.ok ({ c with payload := bigEndian 2 amount } :: rest))
      else (coalesce id payload rest).map fun result => result.map (c :: ·)

/-- `State::control`. -/
def control (s : Session) (kind : Kind) (id : Nat) (payload : List Byte) :
    Session × Option ErrorKind :=
  match if kind = .credit then coalesce id payload s.controls else none with
  | some (.error e) => (s, some e)
  | some (.ok controls) => ({ s with controls := controls }, none)
  | none =>
      if maxControls ≤ s.controls.length then ({ s with full := true }, some .other)
      else ({ s with controls := s.controls ++ [⟨kind, id, payload⟩] }, none)

/-- `Inner::fail`. -/
def fail (s : Session) (kind : ErrorKind) : Session :=
  match s.failure with
  | some _ => s
  | none =>
      { s with
        failure := some kind
        slots := fun k => (s.slots k).map (·.fail kind)
        controls := [] }

/-- `Session::snapshot`. -/
def snapshot (s : Session) : Nat × Bool :=
  (s.active, s.failure.isSome || decide (lastID ≤ s.high))

/-- `Session::bulk`. -/
def bulk (s : Session) : Bool :=
  s.ids.any fun k => (s.slots k).any fun st => st.live && decide (256 * 1024 ≤ st.transferred)

/-- The identifier `reserve` takes next: 1, 3, 5 and so on. -/
def nextID (s : Session) : Nat := if s.high = 0 then 1 else s.high + 2

/-- `Session::reserve`, with the draw for the slot's CREDIT threshold. -/
def reserve (s : Session) (target : Target) (draw : Nat) : Session × Option ErrorKind :=
  if s.server || s.failure.isSome then (s, some .notConnected)
  else if maxStreams ≤ s.active ∨ lastID ≤ s.high then (s, some .wouldBlock)
  else
    match s.control .open s.nextID target.payload with
    | (s', some e) => (s', some e)
    | (s', none) =>
        ((s'.raise s.nextID).insert s.nextID
          (Slot.new (s.traffic.creditBlocks.choose draw)), none)

/-- `Stream::accept`. -/
def accept (s : Session) (k : Nat) : Option (Session × Option ErrorKind) :=
  match s.slots k with
  | none => none
  | some st =>
      match st.check with
      | some e => some (s, some e)
      | none =>
          if !s.server || st.opened then some (s, some .invalidData)
          else some ((s.set k { st with opened := true }).control .opened k [])

/-- `Stream::reject`. -/
def reject (s : Session) (k : Nat) (code : Byte) : Option (Session × Option ErrorKind) :=
  match s.slots k with
  | none => none
  | some st =>
      if !s.server || st.opened then some (s, some .invalidData)
      else some ((s.set k (st.fail .connectionRefused)).control .failed k [code])

/-- `Stream::finish` up to its wait; a client waits at once. -/
def finish (s : Session) (k : Nat) : Option (Session × Option ErrorKind) :=
  match s.slots k with
  | none => none
  | some st =>
      if s.server then
        match st.check with
        | some e => some (s, some e)
        | none =>
            if !st.finFlushed || !st.remoteFin || !st.input.isEmpty then
              some (s, some .invalidData)
            else some (s.control .finished k [])
      else some (s, none)

/-- `Stream::drop`. -/
def drop (s : Session) (k : Nat) : Option Session :=
  match s.slots k with
  | none => none
  | some st =>
      if st.live && s.failure.isNone then
        match (s.remove k).control .reset k [] with
        | (s, none) => some s
        | (s, some _) => some { s with failing := s.failing ++ [.connectionAborted] }
      else some (s.remove k)

/-- The copying loop of `poll_read`: the blocks left, the bytes and `consumed`. -/
def drain : List Chunk → Nat → List Byte → Nat → List Chunk × List Byte × Nat
  | [], _, out, consumed => ([], out, consumed)
  | c :: rest, remaining, out, consumed =>
      let n := min remaining c.bytes.length
      let c' := { c with bytes := c.bytes.drop n }
      let out := out ++ c.bytes.take n
      if c'.bytes ≠ [] ∨ c'.complete = false then (c' :: rest, out, consumed)
      else if remaining - n = 0 then (rest, out, u16Add consumed 1)
      else drain rest (remaining - n) out (u16Add consumed 1)

/-- What a poll returns. -/
inductive Poll where
  | ready (bytes : List Byte)
  | error (e : ErrorKind)
  | pending
  deriving DecidableEq, Repr

/-- The amount `poll_read` grants when `consumed` blocks have been counted. -/
def grant (creditAt consumed : Nat) : Nat := if creditAt ≤ consumed then consumed else 0

/-- `Stream::poll_read` into a buffer with room for `n` bytes. -/
def pollRead (s : Session) (k : Nat) (n : Nat) : Option (Session × Poll) :=
  match s.slots k with
  | none => none
  | some st =>
      if n = 0 then some (s, .ready [])
      else match st.check with
      | some e => some (s, .error e)
      | none =>
          let (input, out, consumed) := drain st.input n [] st.consumed
          let amount := grant st.creditAt consumed
          let s := s.set k { st with
            input := input
            consumed := if st.creditAt ≤ consumed then 0 else consumed
            recvCredit := u16Add st.recvCredit amount }
          let poll := if out ≠ [] ∨ st.remoteFin = true ∧ input = [] then .ready out else .pending
          if 0 < amount then
            match s.control .credit k (bigEndian 2 amount) with
            | (s, some e) => some (s, .error e)
            | (s, none) => some (s, poll)
          else some (s, poll)

/-- `Stream::poll_write`: the number of bytes it queued, if it is ready. -/
def pollWrite (s : Session) (k : Nat) (buf : List Byte) :
    Option (Session × Except ErrorKind (Option Nat)) :=
  match s.slots k with
  | none => none
  | some st =>
      match st.check with
      | some e => some (s, .error e)
      | none =>
          if !st.opened || st.localFin then some (s, .error .brokenPipe)
          else if buf = [] then some (s, .ok (some 0))
          else
            let n := min (min buf.length (sendBuffer - st.queued)) (batchBytes - 32)
            if n = 0 then some (s, .ok none)
            else
              some (s.set k { st with
                output := st.output ++ [buf.take n], queued := st.queued + n }, .ok (some n))

/-- `Stream::poll_shutdown`: whether the FIN has been flushed. -/
def pollShutdown (s : Session) (k : Nat) : Option (Session × Except ErrorKind Bool) :=
  match s.slots k with
  | none => none
  | some st =>
      match st.check with
      | some e => some (s, .error e)
      | none => some (s.set k { st with localFin := true }, .ok st.finFlushed)

end Session

end Veil.Rust

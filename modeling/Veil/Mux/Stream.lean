import Veil.Mux.State

/-!
# The critical sections of a stream

The operations of `internal/mux/stream.go`, and the helpers of `session.go`
they use, as functions on the session state.  Each function is one critical
section: it runs from taking the session lock to releasing it.  A call that
waits in the middle is split there, and the field `call` records that it still
holds the stream's `writeMu`.

A call that ends by failing the session does so after releasing the lock, so
the error goes to `failing` and the failure itself is a step of its own.
-/

namespace Veil.Mux

open Veil.Lib

namespace Stream

/-- `stopLocked`: the first error stays, and a pending write ends with `e`. -/
def stop (st : Stream) (e : Err) : Stream :=
  { st with
    err := st.err.or (some e)
    request := st.request.map fun r => { r with finished := true }
    writeDone := st.writeDone ++
      ((st.request.filter fun r => !r.finished).map fun r => (r.off, some e)).toList }

/-- The effect of `closeLocked` on the stream itself. -/
def shut (st : Stream) (e : Err) : Stream :=
  { ({ st with closed := true }).stop e with queue := [], head := 0 }

/-- `writeRequest.finishLocked` on the stream's request. -/
def finishRequest (st : Stream) (e : Option Err) : Stream :=
  { st with
    request := st.request.map fun r => { r with finished := true }
    writeDone := st.writeDone ++
      ((st.request.filter fun r => !r.finished).map fun r => (r.off, e)).toList }

/--
Report the written (or dropped) control frames to the channels they name, one
result for each frame.
-/
def notifyAll (st : Stream) (e : Option Err) (controls : List Control) : Stream :=
  { st with
    controlDone := st.controlDone ++
      (controls.filter (·.done = .controlDone)).map fun _ => e
    finDone := st.finDone ++ (controls.filter (·.done = .finDone)).map fun _ => e }

/-- The writer would send DATA for this stream. -/
def wantsToSend (st : Stream) : Bool :=
  match st.request with
  | none => false
  | some r =>
      !r.finished && r.off < r.p.length && decide (0 < st.sendCredit) && st.err.isNone

/-- Remove the block at `head`, counting it for the refund (`Stream.Read`). -/
def pop (st : Stream) (bytes : List Byte) : Stream :=
  let head := st.head + 1
  let st := { st with refund := st.refund + 1, delivered := st.delivered ++ bytes }
  if head = st.queue.length then { st with queue := [], head := 0 }
  else if (head : Int) ≥ windowBlocks then
    { st with queue := st.queue.drop head, head := 0 }
  else { st with head := head }

/-- Copy bytes out of the block at `head` without finishing it. -/
def advance (st : Stream) (c : Chunk) (bytes : List Byte) : Stream :=
  { st with
    queue := st.queue.set st.head { c with start := c.start + bytes.length }
    delivered := st.delivered ++ bytes }

/-- The refund has been queued as a CREDIT. -/
def granted (st : Stream) (refundAt : Nat) : Stream :=
  { st with recvCredit := st.recvCredit + st.refund, refund := 0, refundAt := refundAt }

/-- Publish bytes in the last block of the queue (`Session.receive`). -/
def publish (st : Stream) (bytes : List Byte) (complete : Bool) : Stream :=
  { st with
    queue := st.queue.modify (st.queue.length - 1) fun c =>
      { c with b := c.b ++ bytes, complete := complete }
    transferred := st.transferred + bytes.length }

/-- `Stream.failure`. -/
def failure (st : Stream) : Err := st.err.getD .closed

end Stream

/-- A stream reset or closed takes its unfinished block out of the queue. -/
def Reader.discardFor (k : Nat) : Reader → Reader
  | .receiving hd got discard => .receiving hd got (discard || hd.id == k)
  | reader => reader

namespace Session

/-- Replace one stream. -/
def set (s : Session) (k : Nat) (st : Stream) : Session :=
  { s with objs := fun i => if i = k then some st else s.objs i }

/--
The coalescing loop of `controlLocked`: the first queued CREDIT of the stream
takes the new amount, unless the sum exceeds the window.
-/
def coalesce (id : Nat) (p : List Byte) : List Control → Option (Except Err (List Control))
  | [] => none
  | c :: rest =>
      if c.frame.kind = .credit ∧ c.frame.id = id then
        let n := c.frame.amount + fromBigEndian p
        if windowBlocks < n then some (.error .protocol)
        else some (.ok ({ c with frame := { c.frame with payload := bigEndian 2 n } } :: rest))
      else (coalesce id p rest).map fun result => result.map (c :: ·)

/-- `controlLocked`. -/
def controlLocked (s : Session) (t : Kind) (id : Nat) (p : List Byte) (done : Waiter) :
    Session × Option Err :=
  match s.err with
  | some e => (s, some e)
  | none =>
      match if t = .credit then coalesce id p s.controls else none with
      | some (.error e) => (s, some e)
      | some (.ok controls) => ({ s with controls := controls }, none)
      | none =>
          if maxControls ≤ s.controls.length then (s, some .full)
          else
            ({ s with controls := s.controls ++ [⟨⟨t, id, p⟩, done⟩], wake := true }, none)

/-- `newStreamLocked`, with the draw for its first refund threshold. -/
def newStreamLocked (s : Session) (id : Nat) (metadata : List Byte) (draw : Nat) : Session :=
  { s.set id (Stream.fresh metadata (s.shape.credit.choose draw)) with
    streams := s.streams ++ [id] }

/--
`closeLocked`: a live stream is announced with RESET when `notify` asks for it;
the stream stops, loses its queue and leaves the map.
-/
def closeLocked (s : Session) (k : Nat) (st : Stream) (reason : Err) (notify : Bool) :
    Session × Option Err :=
  if st.closed then (s, none)
  else
    let (s, e) :=
      if notify && !(st.applicationDone || st.peerDone) && st.err.isNone
      then s.controlLocked .reset k [] .nobody
      else (s, none)
    ({ s.set k (st.shut reason) with
        streams := s.streams.filter (· ≠ k)
        reader := s.reader.discardFor k }, e)

/-- A call that returned an error and fails the session next. -/
def willFail (s : Session) (e : Option Err) : Session :=
  { s with failing := s.failing ++ e.toList }

/-- `Stream.Close`. -/
def close (s : Session) (k : Nat) : Option Session :=
  match s.objs k with
  | none => none
  | some st =>
      let (s, e) := s.closeLocked k st .closed true
      some (s.willFail (e.filter (· ≠ .closed)))

/-- The error of `fail` as a stream sees it: the end of input is unexpected. -/
def streamError (e : Err) : Err := if e = .eof then .unexpectedEOF else e

/-- What `fail` does to one stream. -/
def failStream (s : Session) (e : Err) (k : Nat) (st : Stream) : Stream :=
  let st := if k ∈ s.streams ∧ ¬ st.peerDone then st.stop (streamError e) else st
  st.notifyAll (some e) (s.controls.filter (·.frame.id = k))

/-- `Session.fail`. -/
def fail (s : Session) (e : Err) : Session :=
  match s.err with
  | some _ => s
  | none =>
      { s with
        err := some e
        objs := fun k => (s.objs k).map (s.failStream e k)
        controls := [] }

/-- The stream's context is done: it was stopped, or its parent was cancelled. -/
def stopped (s : Session) (st : Stream) : Bool := st.err.isSome || s.cancelled

/-- The identifier `Open` allocates next: 1, 3, 5 and so on. -/
def nextID (s : Session) : Nat := if s.lastID = 0 then 1 else s.lastID + 2

/-- The stream that `Open` allocates, before its OPEN is queued. -/
def allocated (s : Session) (metadata : List Byte) (draw : Nat) : Session :=
  { s with lastID := s.nextID }.newStreamLocked s.nextID metadata draw

/--
`Session.Open` up to its wait.  The result is the error it returns at once, if
any; with a full control queue the stream exists and still has to be closed.
-/
def «open» (s : Session) (metadata : List Byte) (draw : Nat) : Session × Option Err :=
  if metadata.length = 0 ∨ 512 < metadata.length ∨ s.server then (s, some .protocol)
  else
    match s.err with
    | some e => (s, some e)
    | none =>
        if maxStreams ≤ s.streams.length then (s, some .full)
        else if 2 ^ 32 - 1 - 2 ≤ s.lastID then (s, some .full)
        else (s.allocated metadata draw).controlLocked .open s.nextID metadata .nobody

/-- One turn of `Session.Accept`: the stream taken, if it is still alive. -/
def accept (s : Session) : Option (Session × Option Nat) :=
  match s.accepted with
  | [] => none
  | k :: rest =>
      let alive := match s.objs k with
        | some st => st.err.isNone && !st.closed
        | none => false
      some ({ s with accepted := rest }, if alive then some k else none)

/--
`Stream.Respond` up to its wait.  The second component is the error it returns
at once; `none` means that it waits.
-/
def respond (s : Session) (k : Nat) (code : Byte) : Option (Session × Option Err) :=
  match s.objs k with
  | none => none
  | some st =>
      if st.call ≠ .idle then none
      else match st.err with
        | some e => some (s, some e)
        | none =>
            if !s.server || st.ready || st.closed then some (s, some .protocol)
            else
              let ready := code == 0
              match (s.set k { st with ready := ready }).controlLocked
                  (if ready then .opened else .failed) k (if ready then [] else [code])
                  .controlDone with
              | (s, some e) => some (s, some e)
              | (s, none) =>
                  some (s.set k { st with ready := ready, call := .respond }, none)

/-- How a waiting call wakes up. -/
inductive Wake where
  | token
  | stopped
  | done
  deriving DecidableEq, Repr

/--
The end of a waiting `Respond`, `CloseWrite` or `Finish`, with the error it
returns.  Only `Respond` also watches the session.
-/
def callReturn (s : Session) (k : Nat) (wake : Wake) : Option (Session × Option Err) :=
  match s.objs k with
  | none => none
  | some st =>
      match st.call, wake with
      | .respond, .token | .finish, .token =>
          match st.controlDone with
          | [] => none
          | e :: rest => some (s.set k { st with controlDone := rest, call := .idle }, e)
      | .closeWrite, .token =>
          match st.finDone with
          | [] => none
          | e :: rest => some (s.set k { st with finDone := rest, call := .idle }, e)
      | .respond, .stopped | .closeWrite, .stopped | .finish, .stopped =>
          if s.stopped st then some (s.set k { st with call := .idle }, some st.failure)
          else none
      | .respond, .done =>
          match s.err with
          | none => none
          | some e => some (s.set k { st with call := .idle }, some e)
      | _, _ => none

/--
The drain loop of `Stream.Read`: returns the bytes copied and the error of a
refused CREDIT.  The fuel is the number of queued blocks, one for each turn.
-/
def drain (k : Nat) (draw : Nat → Nat) :
    Nat → Nat → List Byte → Session → Session × List Byte × Option Err
  | 0, _, got, s => (s, got, none)
  | fuel + 1, room, got, s =>
      match s.objs k with
      | none => (s, got, none)
      | some st =>
          match st.unread with
          | [] => (s, got, none)
          | c :: _ =>
              if room = 0 ∨ c.start = c.b.length ∧ c.complete = false then (s, got, none)
              else
                let bytes := c.rest.take room
                if c.start + bytes.length ≠ c.b.length ∨ c.complete = false then
                  (s.set k (st.advance c bytes), got ++ bytes, none)
                else
                  let st := st.pop bytes
                  let s := s.set k st
                  if (st.refundAt : Int) ≤ st.refund ∧ st.err = none ∧ st.closed = false then
                    match s.controlLocked .credit k (bigEndian 2 st.refund.toNat) .nobody with
                    | (s, some e) => (s, got ++ bytes, some e)
                    | (s, none) =>
                        drain k draw fuel (room - bytes.length) (got ++ bytes)
                          (s.set k (st.granted (s.shape.credit.choose (draw fuel))))
                  else drain k draw fuel (room - bytes.length) (got ++ bytes) s

/-- What one pass of `Stream.Read` ends with. -/
inductive ReadResult where
  | got (bytes : List Byte)
  | error (e : Err)
  | blocked
  deriving DecidableEq, Repr

/-- One pass of `Stream.Read` into a buffer of `n` bytes. -/
def read (s : Session) (k : Nat) (n : Nat) (draw : Nat → Nat) :
    Option (Session × ReadResult) :=
  match s.objs k with
  | none => none
  | some st =>
      if n = 0 then some (s, .got [])
      else
        let (s, bytes, grantErr) := drain k draw st.unread.length n [] s
        let err := match grantErr with
          | some e => some e
          | none =>
              match st.err with
              | some e => some e
              | none =>
                  if st.closed then some .closed
                  else if st.remoteFIN then some .eof else none
        let result := match bytes, err with
          | _ :: _, _ => ReadResult.got bytes
          | [], some e => .error e
          | [], none => .blocked
        some (s.willFail grantErr, result)

/-- `Stream.Write` up to its wait, with the result it returns at once. -/
def write (s : Session) (k : Nat) (p : List Byte) : Option (Session × Option (Option Err)) :=
  match s.objs k with
  | none => none
  | some st =>
      if st.call ≠ .idle then none
      else match st.err with
        | some e => some (s, some (some e))
        | none =>
            if st.closed || st.localFIN then some (s, some (some .closed))
            else if !st.ready then some (s, some (some .protocol))
            else if p.length = 0 then some (s, some none)
            else
              some ({ s.set k { st with request := some ⟨p, 0, false⟩, call := .write } with
                wake := true }, none)

/-- The end of `Stream.Write`: its result is taken and the request withdrawn. -/
def writeReturn (s : Session) (k : Nat) : Option (Session × Nat × Option Err) :=
  match s.objs k with
  | none => none
  | some st =>
      match st.call, st.writeDone, st.request with
      | .write, (n, e) :: rest, some r =>
          some (s.set k { st with
            writeDone := rest, request := none, call := .idle
            wrote := st.wrote ++ r.p.take n }, n, e)
      | _, _, _ => none

/-- `Stream.CloseWrite` up to its wait, with the result it returns at once. -/
def closeWrite (s : Session) (k : Nat) : Option (Session × Option (Option Err)) :=
  match s.objs k with
  | none => none
  | some st =>
      if st.call ≠ .idle then none
      else match st.err with
        | some e => some (s, some (some e))
        | none =>
            if st.closed then some (s, some (some .closed))
            else if st.localFIN then some (s, some none)
            else if !st.ready then some (s, some (some .protocol))
            else
              let st := { st with localFIN := true, closedAt := some st.wrote }
              if s.server && st.remoteFIN then
                some (s.set k { st with pendingFIN := true }, some none)
              else
                match (s.set k st).controlLocked .fin k [] .finDone with
                | (s, some e) => some (s, some (some e))
                | (s, none) => some (s.set k { st with call := .closeWrite }, none)

/--
`Stream.Finish` up to its wait, with the error it returns at once.  A deferred
FIN is queued directly before DONE; a refused frame fails the session.
-/
def finish (s : Session) (k : Nat) : Option (Session × Option Err) :=
  match s.objs k with
  | none => none
  | some st =>
      if st.call ≠ .idle then none
      else match st.err with
        | some e => some (s, some e)
        | none =>
            if !s.server || !st.localFIN || !st.remoteFIN || st.applicationDone then
              some (s, some .protocol)
            else
              let st := { st with applicationDone := true }
              let (s, e) :=
                if st.pendingFIN then
                  (s.set k { st with pendingFIN := false }).controlLocked .fin k [] .nobody
                else (s.set k st, none)
              match e with
              | some e => some (s.willFail (some e), some e)
              | none =>
                  match s.controlLocked .finished k [] .controlDone with
                  | (s, some e) => some (s.willFail (some e), some e)
                  | (s, none) =>
                      some (s.set k { st with pendingFIN := false, call := .finish }, none)

end Session

end Veil.Mux

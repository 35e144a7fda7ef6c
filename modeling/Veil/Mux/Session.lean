import Veil.Mux.Stream
import Veil.Lib.Duplex
import Mathlib.Data.List.Sort
import Mathlib.Data.List.Rotate

/-!
# The read loop, the write loop and the session machine

`readLoop` and `writeLoop` of `internal/mux/session.go`, cut at every point
where they release the session lock or touch the transport, and the machine
whose actions are these pieces together with the application's calls.

A transport read is an action that carries what `conn.Read` returned: some
bytes and possibly an error.  The bytes are published in the same step, since
nothing but the reader can observe the gap between the two.  A transport write
takes bytes from the batch in any portions and may end with an error, though
never with `io.EOF`, which only ends an input.
-/

namespace Veil.Mux

open Veil.Lib

namespace Session

/-! ## The read loop -/

/-- The read loop ends: it will fail the session with the cause. -/
def stopReader (s : Session) (cause : Err) (last : Reader) : Session :=
  { s with reader := .stopped cause last, failing := s.failing ++ [cause] }

/-- The stream a header is for, when it is in the map and has no error. -/
def lookup (s : Session) (id : Nat) : Option Stream :=
  if id ∈ s.streams then (s.objs id).filter fun st => st.err.isNone else none

/-- The first critical section of the read loop: the header check. -/
def check (s : Session) : Option Session :=
  match s.reader with
  | .header h =>
      if h.length ≠ headerSize then none
      else match readHeader h with
        | none => some (s.stopReader .protocol (.header h))
        | some hd =>
            let valid :=
              if hd.kind = .open then s.server && s.lastID < hd.id else hd.id ≤ s.lastID
            if hd.kind = .data then
              match s.lookup hd.id with
              | none =>
                  if valid then some { s with reader := .chunk hd false }
                  else some (s.stopReader .protocol (.header h))
              | some st =>
                  if valid && st.ready && !st.remoteFIN && 0 < st.recvCredit then
                    some { s.set hd.id { st with recvCredit := st.recvCredit - 1 } with
                      reader := .chunk hd true }
                  else some (s.stopReader .protocol (.header h))
            else if valid then
              some { s with reader := .payload hd (s.lookup hd.id).isSome [] }
            else some (s.stopReader .protocol (.header h))
  | _ => none

/-- The first critical section of `receive`: where the block goes. -/
def takeChunk (s : Session) : Option Session :=
  match s.reader with
  | .chunk hd live =>
      match s.objs hd.id with
      | some st =>
          if live && hd.id ∈ s.streams && !st.closed then
            some { s.set hd.id { st with queue := st.queue ++ [⟨[], 0, false⟩] } with
              reader := .receiving hd [] false }
          else some { s with reader := .receiving hd [] true }
      | none => some { s with reader := .receiving hd [] true }
  | _ => none

/-- `io.ReadFull` on the header after one `conn.Read`. -/
def recvHeader (s : Session) (h bs : List Byte) (e : Option Err) : Option Session :=
  if headerSize ≤ h.length ∨ headerSize < h.length + bs.length then none
  else
    let h := h ++ bs
    if h.length = headerSize then some { s with reader := .header h }
    else match e with
      | none => some { s with reader := .header h }
      | some .eof =>
          some (s.stopReader (if h = [] then .eof else .unexpectedEOF) (.header h))
      | some e => some (s.stopReader e (.header h))

/-- `readPayload` after one `conn.Read`. -/
def recvPayload (s : Session) (hd : Header) (live : Bool) (p bs : List Byte)
    (e : Option Err) : Option Session :=
  if hd.length ≤ p.length ∨ hd.length < p.length + bs.length then none
  else
    let p := p ++ bs
    match e with
    | some e => some (s.stopReader e (.payload hd live p))
    | none =>
        if bs = [] then some (s.stopReader .noProgress (.payload hd live p))
        else some { s with reader := .payload hd live p }

/-- The error `receive` makes of what `conn.Read` returned. -/
def receiveError (bs : List Byte) : Option Err → Option Err
  | none => if bs = [] then some .noProgress else none
  | some .eof => some .unexpectedEOF
  | some e => some e

/-- Publish what `receive` read, unless the block has been discarded. -/
def published (s : Session) (id : Nat) (bs : List Byte) (discard complete : Bool) : Session :=
  match discard, s.objs id with
  | false, some st => s.set id (st.publish bs complete)
  | _, _ => s

/-- `receive` after one `conn.Read`, with the publication that follows it. -/
def recvData (s : Session) (hd : Header) (got bs : List Byte) (discard : Bool)
    (e : Option Err) : Option Session :=
  if hd.length < got.length + bs.length then none
  else
    let got := got ++ bs
    let e := receiveError bs e
    let s := s.published hd.id bs discard (got.length = hd.length ∨ e.isSome)
    match e with
    | some e => some (s.stopReader e (.receiving hd got discard))
    | none =>
        if got.length = hd.length then
          some { s with
            reader := .header []
            processed := s.processed ++ [⟨.data, hd.id, got⟩] }
        else some { s with reader := .receiving hd got discard }

/-- One `conn.Read` of the read loop: the bytes and the error it returned. -/
def recv (s : Session) (bs : List Byte) (e : Option Err) : Option Session :=
  if !e.all Err.ofTransport then none
  else
    let s := { s with received := s.received ++ bs }
    match s.reader with
    | .header h => s.recvHeader h bs e
    | .payload hd live p => s.recvPayload hd live p bs e
    | .receiving hd got discard => s.recvData hd got bs discard e
    | _ => none

/-- The admission of an OPEN: completed relays free their slots first. -/
def admission (s : Session) (id : Nat) (p : List Byte) (draw : Nat) : Session × Option Err :=
  let s := { s with
    lastID := id
    streams := s.streams.filter fun k => !((s.objs k).any Stream.applicationDone) }
  if maxStreams ≤ s.streams.length ∨ s.accepted.length = maxStreams then
    s.controlLocked .failed id [1] .nobody
  else
    ({ s.newStreamLocked id p draw with accepted := s.accepted ++ [id] }, none)

/-- The effect of a control frame on the live stream it is addressed to. -/
def deliver (s : Session) (k : Nat) (st : Stream) (t : Kind) (p : List Byte) :
    Session × Option Err :=
  match t with
  | .opened =>
      if s.server || st.ready then (s, some .protocol)
      else (s.set k { st with ready := true }, none)
  | .failed =>
      if s.server || st.ready then (s, some .protocol)
      else ((s.closeLocked k st (.openError (p.headD 0)) false).1, none)
  | .fin =>
      if !st.ready || st.remoteFIN then (s, some .protocol)
      else (s.set k { st with remoteFIN := true }, none)
  | .reset => ((s.closeLocked k st .reset false).1, none)
  | .finished =>
      if s.server || st.peerDone || !st.localFIN || !st.remoteFIN then (s, some .protocol)
      else (s.set k { st with peerDone := true }, none)
  | .credit =>
      let amount : Int := fromBigEndian p
      if amount = 0 ∨ windowBlocks - st.sendCredit < amount then (s, some .protocol)
      else
        ({ s.set k { st with sendCredit := st.sendCredit + amount } with wake := true }, none)
  | _ => (s, none)

/-- The second critical section of the read loop: a control frame takes effect. -/
def dispatch (s : Session) (draw : Nat) : Option Session :=
  match s.reader with
  | .payload hd live p =>
      if p.length ≠ hd.length then none
      else
        let (s', e) :=
          if hd.kind = .open then s.admission hd.id p draw
          else match s.objs hd.id with
            | some st =>
                if live && hd.id ∈ s.streams && !st.closed then s.deliver hd.id st hd.kind p
                else (s, none)
            | none => (s, none)
        match e with
        | some e => some (s'.stopReader e (.payload hd live p))
        | none =>
            some { s' with
              reader := .header []
              processed := s'.processed ++ [⟨hd.kind, hd.id, p⟩] }
  | _ => none

/-! ## The write loop -/

/-- What a batch holds while it is assembled; `size` is `len(buf)`. -/
structure Assembly where
  frames : List Frame
  size : Nat
  sentControls : List Control
  completed : List Nat

/-- `appendFrame` into the batch. -/
def Assembly.add (a : Assembly) (f : Frame) : Assembly :=
  { a with frames := a.frames ++ [f], size := a.size + headerSize + f.payload.length }

/-- The control loop of a batch: returns the batch and the controls left. -/
def takeControls (limit : Nat) : List Control → Assembly → Assembly × List Control
  | [], a => (a, [])
  | c :: rest, a =>
      if 0 < a.size ∧ limit < a.size + headerSize + c.frame.payload.length ∧
          a.sentControls ≠ [] then
        (a, c :: rest)
      else
        let a := { a.add c.frame with sentControls := a.sentControls ++ [c] }
        if limit ≤ a.size then (a, rest) else takeControls limit rest a

/-- Put one DATA frame of `n` bytes of the stream's request into the batch. -/
def emitData (k : Nat) (st : Stream) (r : WriteRequest) (n : Nat)
    (work : Session × Assembly) : Session × Assembly :=
  let (s, a) := work
  let off := r.off + n
  let f : Frame := ⟨.data, k, (r.p.drop r.off).take n⟩
  ({ s.set k { st with
        request := some { r with off := off }
        sendCredit := st.sendCredit - 1
        transferred := st.transferred + n } with
      lastSent := k, emitted := s.emitted ++ [f] },
    if off = r.p.length then { a.add f with completed := a.completed ++ [k] } else a.add f)

/--
One round of the data loop over the ready streams, and whether it sent
anything.  `share` gives the frame size for a turn, by the size of the batch at
that turn: `shape.share` draws it anew each time when several streams are
ready.
-/
def dataRound (limit : Nat) (share : Nat → Nat) :
    List Nat → Session × Assembly → (Session × Assembly) × Bool
  | [], work => (work, false)
  | k :: rest, work =>
      match (work.1.objs k).bind fun st => st.request.map fun r => (st, r) with
      | none => dataRound limit share rest work
      | some (st, r) =>
          if r.finished = true ∨ r.off = r.p.length ∨ st.sendCredit = 0 then
            dataRound limit share rest work
          else
            let n := min (share work.2.size)
              (min (r.p.length - r.off) (limit - work.2.size - headerSize))
            if n = 0 then (work, false)
            else ((dataRound limit share rest (emitData k st r n work)).1, true)

/-- The data loop; every round but the last adds bytes, so `limit` rounds do. -/
def dataLoop (limit : Nat) (share : Nat → Nat) (ready : List Nat) :
    Nat → Session × Assembly → Session × Assembly
  | 0, work => work
  | fuel + 1, work =>
      if work.2.size + headerSize < limit ∧ ready ≠ [] then
        match dataRound limit share ready work with
        | (work, true) => dataLoop limit share ready fuel work
        | (work, false) => work
      else work

/-- The random numbers one batch draws. -/
structure Draws where
  limit : Nat
  writes : Nat
  budget : Nat
  startup : Nat
  rotation : Nat
  control : Nat
  share : Nat → Nat

/-- The ready streams in sending order: by identifier, from behind the last sender. -/
def sendingOrder (s : Session) (rotation : Nat) (ready : List Nat) : List Nat :=
  if ready.length ≤ 1 then ready
  else
    let sorted := ready.insertionSort (· ≤ ·)
    let first :=
      if s.lastSent = 0 then rotation % sorted.length
      else (sorted.findIdx? (s.lastSent < ·)).getD 0
    sorted.rotate first

/-- The streams with an unfinished request, credit and no error. -/
def ready (s : Session) : List Nat :=
  s.streams.filter fun k => (s.objs k).any Stream.wantsToSend

/-- The first control of the batch opens a stream, on either side. -/
def starts (s : Session) : Bool :=
  match s.controls with
  | c :: _ => c.frame.kind == .open || c.frame.kind == .opened
  | [] => false

/-- The startup countdown a batch begins with. -/
def startup (s : Session) (d : Draws) : Nat :=
  let remaining :=
    if s.starts ∧ s.streams.length = 1 then s.shape.writes.choose d.writes
    else s.shape.remaining
  if 1 < s.streams.length then 0 else remaining

/-- The byte limit of a batch. -/
def limit (s : Session) (d : Draws) : Nat :=
  if 0 < s.startup d then s.shape.startup.choose d.startup else batchSize

/-- The arguments of the padding hook for a batch, when it is called. -/
def paddingCall (s : Session) (d : Draws) (ready : List Nat) (controlsSent : Bool) :
    Option (Nat × Nat × Nat) :=
  if s.starts ∧ s.streams.length = 1 then
    some (s.shape.limit.choose d.limit, s.shape.writes.choose d.writes,
      s.shape.budget.choose d.budget)
  else if ready.length = 0 ∧ controlsSent = true then
    let bound := s.shape.control.choose d.control
    some (bound, 1, bound)
  else if s.starts ∨ 1 < ready.length then some (0, 0, 0)
  else none

/-- The critical section that assembles a batch, or finds nothing to do. -/
def batch (s : Session) (d : Draws) : Option Session :=
  match s.writer, s.err with
  | .running, some _ => some { s with writer := .stopped }
  | .running, none =>
      let ready := s.ready
      if ready = [] ∧ s.controls = [] then some { s with writer := .parked }
      else
        let limit := s.limit d
        let (a, controls) := takeControls limit s.controls ⟨[], s.preamble.length, [], []⟩
        let order := s.sendingOrder d.rotation ready
        let share := fun size =>
          if 1 < ready.length then s.shape.quantum.choose (d.share size) else blockSize
        let pad := s.paddingCall d ready (!a.sentControls.isEmpty)
        let s' := { s with
          controls := controls
          preamble := []
          emitted := s.emitted ++ a.frames
          shape := { s.shape with remaining := s.startup d - 1 } }
        let (s', a) := dataLoop limit share order limit (s', a)
        some { s' with
          writer := .writing {
            unsent := s.preamble ++ encodeAll a.frames
            completed := a.completed
            sentControls := a.sentControls
            more := !(ready.isEmpty && controls.isEmpty)
            padding := pad } }
  | _, _ => none

/-- `conn.Write` takes the next `n` bytes of the batch. -/
def send (s : Session) (n : Nat) : Option Session :=
  match s.writer with
  | .writing b =>
      if b.unsent.length < n then none
      else some { s with
        sent := s.sent ++ b.unsent.take n
        writer := .writing { b with unsent := b.unsent.drop n } }
  | _ => none

/-- Report the result of a batch to the request and controls it carried. -/
def report (b : Batch) (e : Option Err) (k : Nat) (st : Stream) : Stream :=
  let st := if k ∈ b.completed then st.finishRequest e else st
  st.notifyAll e (b.sentControls.filter (·.frame.id = k))

/-- The critical section after the write; without an error, all bytes are out. -/
def writeEnd (s : Session) (e : Option Err) : Option Session :=
  match s.writer with
  | .writing b =>
      if e = none ∧ b.unsent ≠ [] ∨ e = some .eof ∨ e.all Err.ofTransport = false then none
      else
        let s := { s with objs := fun k => (s.objs k).map (report b e k) }
        match e with
        | some e => some { s with writer := .stopped, failing := s.failing ++ [e] }
        | none => some { s with writer := if b.more then .running else .parked }
  | _ => none

/-- `writeLoop` leaves its outer wait, by a signal or because the session ended. -/
def wakeUp (s : Session) : Option Session :=
  match s.writer with
  | .parked =>
      if s.err.isSome then some { s with writer := .stopped }
      else if s.wake then some { s with wake := false, writer := .running }
      else none
  | _ => none

/-! ## The machine -/

/-- The steps of a session: application calls, failures, reader and writer. -/
inductive Action where
  | «open» (metadata : List Byte) (draw : Nat)
  | accept
  | respond (k : Nat) (code : Byte)
  | callReturn (k : Nat) (wake : Wake)
  | read (k : Nat) (n : Nat) (draw : Nat → Nat)
  | write (k : Nat) (p : List Byte)
  | writeReturn (k : Nat)
  | closeWrite (k : Nat)
  | finish (k : Nat)
  | close (k : Nat)
  /-- `Session.Close`. -/
  | closeSession
  /-- The parent context of accepted streams is cancelled. -/
  | cancel
  /-- The `i`-th goroutine that decided to fail the session does. -/
  | fail (i : Nat)
  | recv (bs : List Byte) (e : Option Err)
  | check
  | takeChunk
  | dispatch (draw : Nat)
  | wakeUp
  | batch (draws : Draws)
  | send (n : Nat)
  | writeEnd (e : Option Err)

/-- One step of a session; `none` when the action is not possible. -/
def step (s : Session) : Action → Option Session
  | .open metadata draw => some (s.open metadata draw).1
  | .accept => s.accept.map (·.1)
  | .respond k code => (s.respond k code).map (·.1)
  | .callReturn k wake => (s.callReturn k wake).map (·.1)
  | .read k n draw => (s.read k n draw).map (·.1)
  | .write k p => (s.write k p).map (·.1)
  | .writeReturn k => (s.writeReturn k).map (·.1)
  | .closeWrite k => (s.closeWrite k).map (·.1)
  | .finish k => (s.finish k).map (·.1)
  | .close k => s.close k
  | .closeSession => some (s.fail .closed)
  | .cancel => if s.server then some { s with cancelled := true } else none
  | .fail i =>
      match s.failing[i]? with
      | none => none
      | some e => some ({ s with failing := s.failing.eraseIdx i }.fail e)
  | .recv bs e => s.recv bs e
  | .check => s.check
  | .takeChunk => s.takeChunk
  | .dispatch draw => s.dispatch draw
  | .wakeUp => s.wakeUp
  | .batch draws => s.batch draws
  | .send n => s.send n
  | .writeEnd e => s.writeEnd e

/-- A session of the given role, with any valid shape. -/
def machine (server : Bool) : Machine Session Action where
  start s := ∃ shape : Shape, shape.Valid ∧ s = Session.new server shape
  step := step

/-- What a step does on the transport. -/
def traffic (s : Session) : Action → Traffic Byte
  | .recv bs e => .take bs (e == some .eof)
  | .send n =>
      match s.writer with
      | .writing b => .put (b.unsent.take n)
      | _ => .quiet
  | _ => .quiet

/-- A session as an endpoint of the transport; it closes when it fails. -/
def endpoint (server : Bool) : Endpoint Session Action Byte where
  toMachine := machine server
  traffic := traffic
  closed s := s.err.isSome
  taken := received
  given := sent

end Session

end Veil.Mux

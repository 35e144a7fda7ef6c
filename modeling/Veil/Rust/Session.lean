import Veil.Rust.Stream
import Veil.Lib.Duplex
import Veil.Wire.Codec

/-!
# The background task and the session machine

`read_loop`, `batch`, `write_loop` and `watchdog` of `veil-rust/src/mux.rs`, cut
where they release the lock or touch the transport, and the machine whose
actions are these pieces together with the calls of the application.

The read loop takes bytes from the transport in any portions.  The writer may
assemble a batch whenever none is being written; a wake-up only decides when it
does.  The watchdog may find any live streams idle.
-/

namespace Veil.Rust

open Veil.Lib
open Veil.Mux (Byte Kind Header Frame readHeader encodeAll blockSize headerSize maxStreams)

namespace Session

/-- One of the three loops ends with an error, and with it the task. -/
def finishTask (s : Session) (kind : ErrorKind) : Session := { s with ended := some kind }

/-! ## The read loop -/

/-- The read loop goes on with a header or a payload. -/
def reading (s : Session) (r : Reader) : Session := { s with reader := r }

/-- The direction and the identifier of a header fit the state. -/
def allows (s : Session) (hd : Header) : Bool :=
  if hd.kind = .open then s.server && decide (s.high < hd.id) else decide (hd.id ≤ s.high)

/-- The header is checked against the state; a block of a live stream is taken. -/
def checkHeader (s : Session) (hd : Header) : Option Session :=
  if s.allows hd then
    if hd.kind = .data then
      match (s.slots hd.id).filter Slot.live with
      | some st =>
          if !st.opened || st.remoteFin || st.recvCredit == 0 then none
          else some ((s.set hd.id { st with
            recvCredit := st.recvCredit - 1
            input := st.input ++ [⟨[], false⟩] }).reading (.data hd []))
      | none => some (s.reading (.data hd []))
    else some (s.reading (.payload hd []))
  else none

/-- The first critical section of `read_loop`. -/
def check (s : Session) : Option Session :=
  match s.reader with
  | .header h =>
      if h.length ≠ headerSize then none
      else match (readHeader h).bind s.checkHeader with
        | none => some (s.finishTask .invalidData)
        | some s => some s
  | _ => none

/-- Append bytes to the last block of a live stream; without a block, an error. -/
def publish (s : Session) (k : Nat) (bs : List Byte) (complete : Bool) :
    Session × Option ErrorKind :=
  match (s.slots k).filter Slot.live with
  | none => (s, none)
  | some st =>
      match st.input.getLast? with
      | none => (s, some .invalidData)
      | some c =>
          (s.set k { st with
            input := st.input.dropLast ++ [⟨c.bytes ++ bs, complete⟩]
            transferred := st.transferred + bs.length }, none)

/-- The frame at the reader is complete and has been accepted. -/
def accepted (s : Session) (f : Frame) : Session :=
  { s with reader := .header [], processed := s.processed ++ [f] }

/-- Bytes of a DATA payload have been read. -/
def recvData (s : Session) (hd : Header) (got bs : List Byte) : Session :=
  match s.publish hd.id bs ((got ++ bs).length == hd.length) with
  | (s, some e) => (s.reading (.data hd (got ++ bs))).finishTask e
  | (s, none) =>
      if (got ++ bs).length = hd.length then s.accepted ⟨.data, hd.id, got ++ bs⟩
      else s.reading (.data hd (got ++ bs))

/-- Bytes have been read from the transport. -/
def took (s : Session) (bs : List Byte) : Session := { s with received := s.received ++ bs }

/-- One read of the transport that returned bytes. -/
def recv (s : Session) (bs : List Byte) : Option Session :=
  if bs = [] then none
  else match s.reader with
  | .header h =>
      if headerSize < h.length + bs.length then none
      else some ((s.took bs).reading (.header (h ++ bs)))
  | .payload hd p =>
      if hd.length < p.length + bs.length then none
      else some ((s.took bs).reading (.payload hd (p ++ bs)))
  | .data hd got =>
      if hd.length < got.length + bs.length then none
      else some ((s.took bs).recvData hd got bs)

/-- The reader wants more bytes of the current header or payload. -/
def Reader.hungry : Reader → Bool
  | .header h => decide (h.length < headerSize)
  | .payload hd p => decide (p.length < hd.length)
  | .data _ _ => true

/-- One read of the transport that returned an error; the end of input is one. -/
def recvError (s : Session) (e : Option ErrorKind) : Option Session :=
  if Reader.hungry s.reader && e.all ErrorKind.ofTransport then
    some (s.finishTask (e.getD .unexpectedEof))
  else none

/-- A new stream is sent to the accept loop. -/
def offer (s : Session) (id : Nat) : Session := { s with incoming := s.incoming ++ [id] }

/-- A fresh slot for an OPEN, handed to the accept loop through `incoming`. -/
def enroll (s : Session) (id : Nat) (draw : Nat) : Session × Option ErrorKind :=
  let s := s.insert id (Slot.new (s.traffic.creditBlocks.choose draw))
  if s.hungUp then (s, some .connectionAborted) else (s.offer id, none)

/-- The capacity test of an OPEN: too many live streams, or no room in `incoming`. -/
def refuses (s : Session) : Bool :=
  decide (maxStreams ≤ s.active) || decide (maxStreams ≤ s.incoming.length)

/-- The error a FAILED code stands for. -/
def failedKind (code : Byte) : ErrorKind :=
  match code with
  | 3 => .connectionRefused
  | 4 => .timedOut
  | _ => .connectionAborted

/-- The effect of a control frame on the live stream it is addressed to. -/
def deliver (s : Session) (st : Slot) (t : Kind) (p : List Byte) : Except ErrorKind Slot :=
  match t with
  | .opened => if !s.server && !st.opened then .ok { st with opened := true }
      else .error .invalidData
  | .failed => if !s.server && !st.opened then .ok (st.fail (failedKind (p.headD 0)))
      else .error .invalidData
  | .fin => if st.opened && !st.remoteFin then .ok { st with remoteFin := true }
      else .error .invalidData
  | .reset => .ok (st.fail .connectionReset)
  | .finished =>
      if !s.server && st.finSent && st.remoteFin then .ok { st with terminal := some (.ok ()) }
      else .error .invalidData
  | .credit =>
      let k := fromBigEndian p
      if k = 0 ∨ u16Sub window st.sendCredit < k then .error .invalidData
      else .ok { st with sendCredit := u16Add st.sendCredit k }
  | _ => .error .invalidData

/-- The effect of a complete control frame. -/
def takeEffect (s : Session) (hd : Header) (p : List Byte) (draw : Nat) :
    Session × Option ErrorKind :=
  if hd.kind = .open then
    let s := s.raise hd.id
    if s.refuses then s.control .failed hd.id [1] else s.enroll hd.id draw
  else match (s.slots hd.id).filter Slot.live with
    | none => (s, none)
    | some st =>
        match s.deliver st hd.kind p with
        | .error e => (s, some e)
        | .ok st => (s.set hd.id st, none)

/-- The second critical section of `read_loop`. -/
def dispatch (s : Session) (draw : Nat) : Option Session :=
  match s.reader with
  | .payload hd p =>
      if p.length ≠ hd.length then none
      else match s.takeEffect hd p draw with
        | (s, some e) => some (s.finishTask e)
        | (s, none) => some (s.accepted ⟨hd.kind, hd.id, p⟩)
  | _ => none

/-! ## The writer -/

/-- `frame`: the bytes go to `out`; `touch` is what `batch` records about it. -/
def push (s : Session) (f : Frame) (touch : List Touched) : Session :=
  { s with
    out := s.out ++ f.bytes
    emitted := s.emitted ++ [f]
    touched := s.touched ++ touch }

/-- `pop_front` leaves these control frames. -/
def leave (s : Session) (controls : List Frame) : Session := { s with controls := controls }

/-- What `batch` records about a control frame. -/
def controlTouch (c : Frame) : List Touched :=
  if c.kind = .finished then [⟨c.id, false, true⟩] else []

/-- The control loop of `batch`; `lead` bytes of `prefix` stand before the frames. -/
def takeControls (limit lead : Nat) : List Frame → Session → Session
  | [], s => s.leave []
  | c :: rest, s =>
      let s := (s.leave rest).push c (controlTouch c)
      if limit ≤ lead + s.out.length then s else takeControls limit lead rest s

/-- A DATA frame with the first `n` bytes of the output. -/
def emitData (s : Session) (k n : Nat) (st : Slot) (p : List Byte) (rest : List (List Byte)) :
    Session :=
  (s.set k { st with
    output := if n = p.length then rest else p.drop n :: rest
    queued := st.queued - n
    transferred := st.transferred + n
    sendCredit := st.sendCredit - 1
    inflight := st.inflight + 1 }).push ⟨.data, k, p.take n⟩ [⟨k, false, false⟩]

/--
The inner loop of a turn: DATA while there are share, credit and output.  The
recursion is on the credit, which every frame uses up.
-/
def sendData (k limit lead : Nat) : Nat → Nat → Session → Session × Bool
  | 0, _, s => (s, false)
  | credit + 1, share, s =>
      match s.slots k with
      | none => (s, false)
      | some st =>
          match st.output with
          | [] => (s, false)
          | p :: rest =>
              let n := min (min (min p.length blockSize) share)
                (limit - (lead + s.out.length + headerSize))
              if n = 0 then (s, false)
              else ((sendData k limit lead credit (share - n) (s.emitData k n st p rest)).1, true)

/-- The FIN of a stream whose output is empty. -/
def sendFin (s : Session) (k : Nat) : Session × Bool :=
  match s.slots k with
  | none => (s, false)
  | some st =>
      if st.localFin && !st.finSent && st.output.isEmpty then
        ((s.set k { st with finSent := true, inflight := st.inflight + 1 }).push
          ⟨.fin, k, []⟩ [⟨k, true, false⟩], true)
      else (s, false)

/-- The stream has had its turn. -/
def served (s : Session) (k : Nat) : Session := { s with lastSent := k }

/-- The turn of one stream, and whether it made progress. -/
def turn (limit lead share k : Nat) (s : Session) : Session × Bool :=
  match s.slots k with
  | none => (s, false)
  | some st =>
      if !st.live || !st.opened then (s, false)
      else
        let (s, sent) := sendData k limit lead st.sendCredit share s
        let (s, ended) := s.sendFin k
        (s.served k, sent || ended)

/--
One round over the streams.  The result says whether the round made progress and
should be followed by another; at the limit the batch ends.  `share` gives the
draw for a turn by the number of bytes in the batch at that turn.
-/
def round (limit lead : Nat) (share : Nat → Nat) : List Nat → Bool → Session → Session × Bool
  | [], progress, s => (s, progress)
  | k :: rest, progress, s =>
      if limit ≤ lead + s.out.length + headerSize then (s, false)
      else
        let (s, moved) := turn limit lead (share (lead + s.out.length)) k s
        round limit lead share rest (progress || moved) s

/-- The loop of rounds; each round but the last adds bytes, so `limit` rounds do. -/
def rounds (limit lead : Nat) (share : Nat → Nat) (ids : List Nat) : Nat → Session → Session
  | 0, s => s
  | fuel + 1, s =>
      match round limit lead share ids false s with
      | (s, true) => rounds limit lead share ids fuel s
      | (s, false) => s

/-- The random numbers one batch draws. -/
structure Draws where
  writes : Nat
  startup : Nat
  share : Nat → Nat

/-- The number of streams that may send DATA. -/
def ready (s : Session) : Nat :=
  s.ids.countP fun k => (s.slots k).any fun st =>
    st.live && st.opened && decide (0 < st.sendCredit) && !st.output.isEmpty

/-- Some stream has to send its FIN. -/
def needsFin (s : Session) : Bool :=
  s.ids.any fun k => (s.slots k).any fun st =>
    st.live && st.opened && st.localFin && !st.finSent && st.output.isEmpty

/-- The first control of the batch is an OPEN or an OPENED. -/
def starts (s : Session) : Bool :=
  match s.controls with
  | c :: _ => c.kind == .open || c.kind == .opened
  | [] => false

/-- The startup countdown a batch begins with. -/
def startupLeft (s : Session) (d : Draws) : Nat :=
  if s.starts ∧ s.active = 1 then s.traffic.startupWrites.choose d.writes
  else if 1 < s.active then 0 else s.startup

/-- The streams in sending order: from behind the last sender. -/
def sendingOrder (s : Session) : List Nat :=
  s.ids.filter (s.lastSent < ·) ++ s.ids.filter (· ≤ s.lastSent)

/-- The byte limit of a batch. -/
def limit (s : Session) (d : Draws) : Nat :=
  if 0 < s.startupLeft d then s.traffic.startupBytes.choose d.startup else batchBytes

/-- The bytes of `prefix` that a batch begins with. -/
def lead (s : Session) : Nat := if s.controls = [] then 0 else s.preamble

/-- The share of a turn. -/
def share (s : Session) (d : Draws) (size : Nat) : Nat :=
  if 1 < s.ready then s.traffic.quantumBytes.choose (d.share size) else blockSize

/-- The batch has its limit, and the bytes of `prefix` are in it. -/
def shaped (s : Session) (d : Draws) : Session :=
  { s with startup := s.startupLeft d - 1, preamble := s.preamble - s.lead }

/-- The batch with its control frames. -/
def withControls (s : Session) (d : Draws) : Session :=
  takeControls (s.limit d) s.lead s.controls (s.shaped d)

/-- The whole batch. -/
def assembled (s : Session) (d : Draws) : Session :=
  rounds (s.limit d) s.lead (s.share d) (s.withControls d).sendingOrder (s.limit d)
    (s.withControls d)

/-- A batch that is not empty goes to the transport. -/
def handOver (s : Session) (lead : Nat) : Session :=
  { s with writing := decide (0 < lead + s.out.length) }

/-- `batch`, and the decision of `write_loop` to write it or to wait. -/
def batch (s : Session) (d : Draws) : Option Session :=
  if s.writing then none
  else match s.failure with
  | some e => some (s.finishTask e)
  | none =>
      if s.controls = [] ∧ s.ready = 0 ∧ s.needsFin = false then some s
      else some ((s.assembled d).handOver s.lead)

/-- The transport accepts the next `n` bytes of the batch. -/
def send (s : Session) (n : Nat) : Option Session :=
  if s.writing ∧ n ≤ s.out.length then
    some { s with sent := s.sent ++ s.out.take n, out := s.out.drop n }
  else none

/-- Mark one slot that a written batch touched. -/
def mark (s : Session) (t : Touched) : Session :=
  match s.slots t.id with
  | none => s
  | some st => s.set t.id (st.flushed t)

/-- Every slot the batch touched has been marked. -/
def markAll (s : Session) : Session :=
  { s.touched.foldl mark s with touched := [], writing := false }

/-- The critical section after the flush, or the end of a write that failed. -/
def written (s : Session) (e : Option ErrorKind) : Option Session :=
  if s.writing then
    match e with
    | some e => if e.ofTransport then some (s.finishTask e) else none
    | none => if s.out = [] then some s.markAll else none
  else none

/-! ## The watchdog -/

/-- Queue RESET for the expired streams until one is refused. -/
def resetAll : List Nat → Session → Session × Option ErrorKind
  | [], s => (s, none)
  | k :: rest, s =>
      match s.control .reset k [] with
      | (s, some e) => (s, some e)
      | (s, none) => resetAll rest s

/-- The streams that have been idle too long fail. -/
def expire (s : Session) (expires : Nat → Bool) : Session :=
  { s with
    slots := fun k => (s.slots k).map fun st => if expires k then st.fail .timedOut else st }

/-- A tick of `watchdog`: which streams are past `idle`, and whether the session is. -/
def watchdog (s : Session) (expired : List Nat) (idle : Bool) : Option Session :=
  match s.failure with
  | some e => some (s.finishTask e)
  | none =>
      let expires := fun k => s.liveAt k && expired.contains k
      let late := s.ids.filter expires
      match resetAll late (s.expire expires) with
      | (s, some e) => some (s.finishTask e)
      | (s, none) =>
          if s.active = 0 ∧ idle = true then some (s.finishTask .timedOut) else some s

/-! ## The machine -/

/-- The steps of a session: calls, the background task, and failures. -/
inductive Action where
  | reserve (target : Target) (draw : Nat)
  | accept (k : Nat)
  | reject (k : Nat) (code : Byte)
  | finish (k : Nat)
  | drop (k : Nat)
  | pollRead (k : Nat) (n : Nat)
  | pollWrite (k : Nat) (buf : List Byte)
  | pollShutdown (k : Nat)
  /-- `Session::close`, or the last handle on the session is dropped. -/
  | close
  /-- `incoming.recv()` returns a stream. -/
  | incoming
  /-- The receiver of `incoming` is dropped. -/
  | hangUp
  /-- A stream that was still in `incoming` is dropped with its receiver. -/
  | dropIncoming
  /-- The `i`-th caller of `Stream::drop` that decided to fail the session does. -/
  | fail (i : Nat)
  /-- The background task has ended and fails the session. -/
  | failTask
  | recv (bs : List Byte)
  | recvError (e : Option ErrorKind)
  | check
  | dispatch (draw : Nat)
  | batch (draws : Draws)
  | send (n : Nat)
  | written (e : Option ErrorKind)
  | watchdog (expired : List Nat) (idle : Bool)

/-- A step of one of the three loops, while the task runs. -/
def task (s : Session) (next : Option Session) : Option Session :=
  if s.ended.isNone then next else none

/-- A call on a handle that the application holds. -/
def call (s : Session) (k : Nat) (next : Option Session) : Option Session :=
  if k ∈ s.incoming then none else next

/-- One step of a session; `none` when the action is not possible. -/
def step (s : Session) : Action → Option Session
  | .reserve target draw => some (s.reserve target draw).1
  | .accept k => s.call k ((s.accept k).map (·.1))
  | .reject k code => s.call k ((s.reject k code).map (·.1))
  | .finish k => s.call k ((s.finish k).map (·.1))
  | .drop k => s.call k (s.drop k)
  | .pollRead k n => s.call k ((s.pollRead k n).map (·.1))
  | .pollWrite k buf => s.call k ((s.pollWrite k buf).map (·.1))
  | .pollShutdown k => s.call k ((s.pollShutdown k).map (·.1))
  | .close => some (s.fail .connectionAborted)
  | .incoming => if s.hungUp then none else some { s with incoming := s.incoming.tail }
  | .hangUp => some { s with hungUp := true }
  | .dropIncoming =>
      match s.hungUp, s.incoming with
      | true, k :: rest => { s with incoming := rest }.drop k
      | _, _ => none
  | .fail i =>
      match s.failing[i]? with
      | none => none
      | some e => some ({ s with failing := s.failing.eraseIdx i }.fail e)
  | .failTask => s.ended.map fun e => s.fail e
  | .recv bs => s.task (s.recv bs)
  | .recvError e => s.task (s.recvError e)
  | .check => s.task s.check
  | .dispatch draw => s.task (s.dispatch draw)
  | .batch draws => s.task (s.batch draws)
  | .send n => s.task (s.send n)
  | .written e => s.task (s.written e)
  | .watchdog expired idle => s.task (s.watchdog expired idle)

/-- A session of the given role, with any ranges that pass the check. -/
def machine (server : Bool) : Machine Session Action where
  start s := ∃ traffic : Traffic, ∃ draw preamble, traffic.validate = true ∧
    s = Session.start server (traffic.narrowed draw) preamble
  step := step

/-- What a step does on the transport. -/
def onWire (s : Session) : Action → Lib.Traffic Byte
  | .recv bs => .take bs false
  | .recvError none => .take [] true
  | .send n => .put (s.out.take n)
  | _ => .quiet

/-- A session as an endpoint; it closes the transport when its task ends. -/
def endpoint (server : Bool) : Endpoint Session Action Byte where
  toMachine := machine server
  traffic := onWire
  closed s := s.ended.isSome
  taken := received
  given := sent

end Session

end Veil.Rust

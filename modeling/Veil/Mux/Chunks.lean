import Veil.Mux.Life
import Veil.Mux.Wakeup

/-!
# Receive blocks as shared memory

`takeChunk` and `putChunk` of `internal/mux/frame.go`, `Session.receive`, the
drain loop of `Stream.Read` and the loop of `closeLocked`, on blocks that have
an address.  The sessions of a process share the caches, so a block that one
session returns may be taken by another at once, while the first is still
inside its critical section.

The code is therefore cut at every call on a cache.  A `Read` and a close keep
the lock of their session between the pieces; meanwhile only those steps of the
session happen that do not take the lock.  Everything else a session does is a
step of the session machine, on a session whose streams leave their queues to
this module and whose read loop stays at the checked header while `receive`
runs.
-/

namespace Veil.Mux.Chunks

open Veil.Lib

/-- `chunk`. -/
structure Chunk where
  b : List Byte
  start : Nat
  «end» : Nat
  complete : Bool
  discard : Bool
  deriving DecidableEq, Repr

/-- The size classes, one cache for each. -/
def blockCapacities : List Nat := [256, 4096, blockSize]

namespace Chunk

/-- `&chunk{b: make([]byte, size)}`. -/
def new (size : Nat) : Chunk := ⟨List.replicate size 0, 0, 0, false, false⟩

/-- What `takeChunk` resets of a cached block; the bytes stay. -/
def reset (c : Chunk) : Chunk :=
  { c with start := 0, «end» := 0, complete := false, discard := false }

/-- `conn.Read` puts bytes into `b` from index `i` on. -/
def write (c : Chunk) (i : Nat) (bs : List Byte) : Chunk :=
  { c with b := c.b.take i ++ bs ++ c.b.drop (i + bs.length) }

/-- `c.b[c.start:c.end]`. -/
def unread (c : Chunk) : List Byte := (c.b.take c.end).drop c.start

end Chunk

/-- The arguments of a call of `receive`, and the block it has taken. -/
structure Receiving where
  hd : Header
  /-- The header check found the stream: `st != nil`. -/
  live : Bool
  c : Ref
  deriving DecidableEq, Repr

/-- The block is complete: the payload has been read, or reading it has failed. -/
def Receiving.Done (v : Receiving) (got : List Byte) (err : Option Err) : Prop :=
  got.length = v.hd.length ∨ err.isSome = true

instance (v : Receiving) (got : List Byte) (err : Option Err) : Decidable (v.Done got err) :=
  inferInstanceAs (Decidable (_ ∨ _))

/-- How far `receive` is.  `got` is what it has read: `filled` is its length. -/
inductive Receive where
  | away
  /-- The block is taken, the lock not yet. -/
  | taken (v : Receiving)
  /-- Before the next `conn.Read`. -/
  | reading (v : Receiving) (got : List Byte)
  /-- `conn.Read` has returned `n` bytes, the last of `got`. -/
  | arrived (v : Receiving) (got : List Byte) (n : Nat) (err : Option Err)
      (fits : got.length ≤ v.hd.length)
  /-- Complete and discarded; before `putChunk`. -/
  | giving (v : Receiving) (got : List Byte) (err : Option Err) (done : v.Done got err)
  deriving DecidableEq

/-- The session lock, where it is kept across several pieces. -/
inductive Lock where
  | free
  /-- `Read` with `room` bytes left; with `put`, the block at `head` has been returned. -/
  | draining (k room : Nat) (got : List Byte) (put : Bool)
  /-- The loop of `closeLocked` at index `j`; with `put`, its block has been returned. -/
  | closing (k j : Nat) (put byReader : Bool)
  deriving DecidableEq, Repr

/-- One session and its streams' queues, where `none` is nil. -/
structure Local where
  base : Session
  queue : Nat → List (Option Ref)
  head : Nat → Nat
  receive : Receive
  lock : Lock
  /-- History: the streams on which a `Read` has returned the `io.EOF` of the peer's FIN. -/
  ended : List Nat

/-- A process: the blocks that exist, the caches by size, and the sessions. -/
structure World (ι : Type*) where
  chunks : Ref → Option Chunk
  next : Ref
  blockCaches : Nat → List Ref
  sessions : ι → Local
  /-- History: the calls on blocks. -/
  calls : List (Entry ι)

/-! ## The caches -/

namespace World

variable {ι : Type*}

/-- Write through a pointer. -/
def modify (w : World ι) (r : Ref) (f : Chunk → Chunk) : World ι :=
  { w with chunks := Function.update w.chunks r ((w.chunks r).map f) }

/--
`takeChunk`.  A pool may return any block it holds, and may return none although
it holds some.
-/
def takeChunk (w : World ι) (n : Nat) (cached : Option Ref) : Option (World ι × Ref) :=
  match blockCapacities.find? (n ≤ ·), cached with
  | none, _ => none
  | some size, some r =>
      if r ∈ w.blockCaches size then
        some ({ w.modify r Chunk.reset with
          blockCaches := Function.update w.blockCaches size ((w.blockCaches size).erase r)
          calls := w.calls ++ [.take r] }, r)
      else none
  | some size, none =>
      some ({ w with
        chunks := Function.update w.chunks w.next (some (.new size))
        next := w.next + 1
        calls := w.calls ++ [.take w.next] }, w.next)

/-- `putChunk`. -/
def putChunk (w : World ι) (r : Ref) : World ι :=
  let w := { w with calls := w.calls ++ [Entry.put r] }
  match (w.chunks r).bind fun c => blockCapacities.find? (c.b.length = ·) with
  | some size =>
      { w with blockCaches := Function.update w.blockCaches size (r :: w.blockCaches size) }
  | none => w

/-- A cache lets go of a block, which the collector then reclaims. -/
def evict (w : World ι) (size : Nat) (r : Ref) : Option (World ι) :=
  if r ∈ w.blockCaches size then
    some { w with
      chunks := Function.update w.chunks r none
      blockCaches := Function.update w.blockCaches size ((w.blockCaches size).erase r) }
  else none

end World

/-! ## What one session changes of its own -/

namespace Local

/-- `New`. -/
def new (base : Session) : Local where
  base := base
  queue := fun _ => []
  head := fun _ => 0
  receive := .away
  lock := .free
  ended := []

/-- The stream takes the block: it is found, still in the map, and open. -/
def accepts (l : Local) (v : Receiving) : Bool :=
  v.live && v.hd.id ∈ l.base.streams && (l.base.objs v.hd.id).any (!·.closed)

/-- `st.queue = append(st.queue, c)`. -/
def append (l : Local) (k : Nat) (r : Ref) : Local :=
  { l with queue := Function.update l.queue k (l.queue k ++ [some r]) }

/-- The loop of `receive` goes on, or the call and the read loop's turn end. -/
def proceed (l : Local) (v : Receiving) (got : List Byte) : Option Err → Local
  | some e =>
      { l with receive := .away, base := l.base.stopReader e (.chunk v.hd v.live) }
  | none =>
      if got.length < v.hd.length then { l with receive := .reading v got }
      else { l with receive := .away, base := l.base.consumed ⟨.data, v.hd.id, got⟩ }

/-- `st.transferred += uint64(got)`. -/
def transfer (l : Local) (k n : Nat) : Local :=
  match l.base.objs k with
  | some st =>
      { l with base := l.base.set k { st with transferred := st.transferred + n } }
  | none => l

/--
After a read has been published: a block that is complete and was seen to be
discarded is returned next, outside the lock.
-/
def published (l : Local) (v : Receiving) (got : List Byte) (n : Nat) (err : Option Err)
    (discard : Bool) : Local :=
  let l := if discard then l else l.transfer v.hd.id n
  if both : v.Done got err ∧ discard = true then
    { l with receive := .giving v got err both.1 }
  else l.proceed v got err

/-- `st.queue[j] = nil`. -/
def clear (l : Local) (k j : Nat) : Local :=
  { l with queue := Function.update l.queue k ((l.queue k).set j none) }

/-- The queue is shortened when its last slot, or the slot before `windowBlocks`, is read. -/
def compact (l : Local) (k : Nat) : Local :=
  if l.head k = (l.queue k).length then
    { l with queue := Function.update l.queue k [], head := Function.update l.head k 0 }
  else if windowBlocks ≤ (l.head k : Int) then
    { l with
      queue := Function.update l.queue k ((l.queue k).drop (l.head k))
      head := Function.update l.head k 0 }
  else l

/-- `Read` has left its loop: what it returns, and whether it fails the session. -/
def finishRead (l : Local) (k : Nat) (got : List Byte) (grantErr : Option Err) : Local :=
  match l.base.objs k with
  | none => l
  | some st =>
      let atEnd := got = [] ∧ grantErr = none ∧ st.err = none ∧ st.closed = false ∧
        st.remoteFIN = true
      { l with
        base := (l.base.set k { st with delivered := st.delivered ++ got }).willFail grantErr
        lock := .free
        ended := if atEnd then l.ended ++ [k] else l.ended }

/-- The refund of a block that has been read, once its slot is clear. -/
def refund (l : Local) (k room : Nat) (got : List Byte) (draw : Nat) : Local :=
  match l.base.objs k with
  | none => l
  | some st =>
      let st := { st with refund := st.refund + 1 }
      let l := { l with base := l.base.set k st, lock := .draining k room got false }
      if (st.refundAt : Int) ≤ st.refund ∧ st.err = none ∧ st.closed = false then
        match l.base.controlLocked .credit k (bigEndian 2 st.refund.toNat) .nobody with
        | (s, some e) => { l with base := s }.finishRead k got (some e)
        | (s, none) =>
            { l with base := s.set k (st.granted (s.shape.credit.choose draw)) }
      else l

/-- The stream that a step closes, and whether the read loop does it. -/
def closes (s : Session) : Session.Action → Option (Nat × Bool)
  | .close k => some (k, false)
  | .dispatch _ =>
      match s.reader with
      | .payload hd _ _ => some (hd.id, true)
      | _ => none
  | _ => none

/-- After a step of the session, the loop of `closeLocked` starts if a stream was closed. -/
def lockAfter (l : Local) (s : Session) (a : Session.Action) : Lock :=
  match closes l.base a with
  | none => l.lock
  | some (k, byReader) =>
      if (l.base.objs k).any (!·.closed) && (s.objs k).any (·.closed) then
        .closing k (l.head k) false byReader
      else l.lock

end Local

/--
The steps of a session that may happen: with the lock kept, only those that do
not take it.  `Read` and the first half of `receive` are pieces of their own.
-/
def Lock.permits : Lock → Session.Action → Bool
  | _, .read _ _ _ | _, .takeChunk => false
  | .free, _ => true
  | .closing _ _ _ byReader, .recv _ _ => !byReader
  | .draining _ _ _ _, .recv _ _ => true
  | _, .send _ | _, .cancel | _, .wakeUp | _, .callReturn _ .token => true
  | _, _ => false

/-! ## The pieces -/

namespace World

variable {ι : Type*} [DecidableEq ι]

/-- One session has changed. -/
def setLocal (w : World ι) (i : ι) (l : Local) : World ι :=
  { w with sessions := Function.update w.sessions i l }

/-- `receive` begins: `c := takeChunk(n)`. -/
def take (w : World ι) (i : ι) (cached : Option Ref) : Option (World ι) :=
  let l := w.sessions i
  match l.receive, l.base.reader with
  | .away, .chunk hd live =>
      (w.takeChunk hd.length cached).map fun (w, c) =>
        w.setLocal i { l with receive := .taken ⟨hd, live, c⟩ }
  | _, _ => none

/-- The first critical section of `receive`. -/
def place (w : World ι) (i : ι) : Option (World ι) :=
  let l := w.sessions i
  match l.lock, l.receive with
  | .free, .taken v =>
      if l.accepts v then
        some ({ w with calls := w.calls ++ [Entry.queue i v.hd.id v.c] }.setLocal i
          ((l.append v.hd.id v.c).proceed v [] none))
      else
        some ((w.modify v.c fun c => { c with discard := true }).setLocal i
          (l.proceed v [] none))
  | _, _ => none

/-- `conn.Read` of `receive`, into the block. -/
def arrive (w : World ι) (i : ι) (bs : List Byte) (e : Option Err) : Option (World ι) :=
  let l := w.sessions i
  match l.receive with
  | .reading v got =>
      if fits : e.all Err.ofTransport = true ∧ (got ++ bs).length ≤ v.hd.length then
        some ((w.modify v.c fun c => c.write got.length bs).setLocal i { l with
          base := l.base.hears bs
          receive := .arrived v (got ++ bs) bs.length (Session.receiveError bs e) fits.2 })
      else none
  | _ => none

/-- The critical section of `receive` after a read. -/
def publish (w : World ι) (i : ι) : Option (World ι) :=
  let l := w.sessions i
  match l.lock, l.receive with
  | .free, .arrived v got n err _ =>
      let complete := decide (v.Done got err)
      let discard := (w.chunks v.c).any Chunk.discard
      some ((w.modify v.c fun c => { c with «end» := got.length, complete := complete }).setLocal
        i (l.published v got n err discard))
  | _, _ => none

/-- `receive` returns a discarded block. -/
def giveBack (w : World ι) (i : ι) : Option (World ι) :=
  let l := w.sessions i
  match l.receive with
  | .giving v got err _ => some ((w.putChunk v.c).setLocal i (l.proceed v got err))
  | _ => none

/-- `Read` into a buffer of `n` bytes takes the lock. -/
def read (w : World ι) (i : ι) (k n : Nat) : Option (World ι) :=
  let l := w.sessions i
  match l.lock, l.base.objs k with
  | .free, some _ =>
      if n = 0 then some w else some (w.setLocal i { l with lock := .draining k n [] false })
  | _, _ => none

/-- One turn of the loop of `Read`, up to `putChunk`. -/
def drain (w : World ι) (i : ι) (k room : Nat) (got : List Byte) : Option (World ι) :=
  let l := w.sessions i
  match (l.queue k)[l.head k]? with
  | none => some (w.setLocal i (l.finishRead k got none))
  | some none => none
  | some (some r) =>
      match w.chunks r with
      | none => none
      | some c =>
          if room = 0 ∨ c.start = c.end ∧ c.complete = false then
            some (w.setLocal i (l.finishRead k got none))
          else
            let bytes := c.unread.take room
            let w := w.modify r fun c => { c with start := c.start + bytes.length }
            if c.start + bytes.length ≠ c.end ∨ c.complete = false then
              some (w.setLocal i (l.finishRead k (got ++ bytes) none))
            else
              some ((w.putChunk r).setLocal i
                { l with lock := .draining k (room - bytes.length) (got ++ bytes) true })

/-- The rest of a turn of `Read` that has returned a block. -/
def shift (w : World ι) (i : ι) (k room : Nat) (got : List Byte) (draw : Nat) : World ι :=
  let l := (w.sessions i).clear k ((w.sessions i).head k)
  let l := { l with head := Function.update l.head k (l.head k + 1) }
  w.setLocal i ((l.compact k).refund k room got draw)

/-- The next piece of the `Read` that keeps the lock. -/
def turn (w : World ι) (i : ι) (draw : Nat) : Option (World ι) :=
  match (w.sessions i).lock with
  | .draining k room got false => w.drain i k room got
  | .draining k room got true => some (w.shift i k room got draw)
  | _ => none

/-- The next piece of the loop of `closeLocked`. -/
def sweep (w : World ι) (i : ι) : Option (World ι) :=
  let l := w.sessions i
  match l.lock with
  | .closing k j true byReader =>
      some (w.setLocal i { l.clear k j with lock := .closing k (j + 1) false byReader })
  | .closing k j false byReader =>
      match (l.queue k)[j]? with
      | none =>
          some (w.setLocal i { l with
            queue := Function.update l.queue k []
            head := Function.update l.head k 0
            lock := .free })
      | some none => none
      | some (some r) =>
          match w.chunks r with
          | none => none
          | some c =>
              if c.complete then
                some ((w.putChunk r).setLocal i { l with lock := .closing k j true byReader })
              else
                some ((w.modify r fun c => { c with discard := true }).setLocal i
                  { l.clear k j with lock := .closing k (j + 1) false byReader })
  | _ => none

/-- Any other step of a session. -/
def session (w : World ι) (i : ι) (a : Session.Action) : Option (World ι) :=
  let l := w.sessions i
  if l.lock.permits a then
    (l.base.step a).map fun s => w.setLocal i { l with base := s, lock := l.lockAfter s a }
  else none

end World

/-! ## The machine -/

/-- The pieces of all sessions, and the collector. -/
inductive Action (ι : Type*) where
  | take (i : ι) (cached : Option Ref)
  | place (i : ι)
  | arrive (i : ι) (bs : List Byte) (e : Option Err)
  | publish (i : ι)
  | giveBack (i : ι)
  | read (i : ι) (k n : Nat)
  | turn (i : ι) (draw : Nat)
  | sweep (i : ι)
  | session (i : ι) (a : Session.Action)
  | evict (size : Nat) (r : Ref)

variable {ι : Type*} [DecidableEq ι]

/-- One piece; `none` when it is not possible. -/
def step (w : World ι) : Action ι → Option (World ι)
  | .take i cached => w.take i cached
  | .place i => w.place i
  | .arrive i bs e => w.arrive i bs e
  | .publish i => w.publish i
  | .giveBack i => w.giveBack i
  | .read i k n => w.read i k n
  | .turn i draw => w.turn i draw
  | .sweep i => w.sweep i
  | .session i a => w.session i a
  | .evict size r => w.evict size r

/-- Any number of sessions, as `New` makes them, with empty caches. -/
def machine : Machine (World ι) (Action ι) where
  start w := (∀ i, ∃ base, Session.anyMachine.start base ∧ w.sessions i = .new base) ∧
    w.chunks = (fun _ => none) ∧ w.next = 0 ∧ w.blockCaches = (fun _ => []) ∧ w.calls = []
  step := step

end Veil.Mux.Chunks

import Veil.Rust.Session
import Mathlib.Logic.Relation

/-!
# One stream through a Rust session

The track of a stream is everything a session holds about it: its slot, its
control frames in the queue, what the batch being written has to mark in it, the
frames sent and read for it, and how far the read loop is with a frame of it.
`Track.Move` lists everything that can happen to a track, each move with its
guard.  Two kinds of moves are labelled, because some statements exclude them.
-/

namespace Veil.Rust

open Veil.Lib
open Veil.Mux (Byte Kind Header Frame blockSize)

/-- How far the read loop is with a frame of one stream. -/
inductive Progress where
  | away
  | control
  | receiving (got : List Byte)
  deriving DecidableEq, Repr

def Reader.progress (k : Nat) : Reader → Progress
  | .header _ => .away
  | .payload hd _ => if hd.id = k ∧ hd.kind ≠ .open then .control else .away
  | .data hd got => if hd.id = k then .receiving got else .away

namespace Reader

@[simp]
theorem progress_header (k : Nat) (h : List Byte) : (Reader.header h).progress k = .away := rfl

@[simp]
theorem progress_data_self (hd : Header) (got : List Byte) :
    (Reader.data hd got).progress hd.id = .receiving got :=
  if_pos rfl

theorem progress_data_other {k : Nat} {hd : Header} (different : hd.id ≠ k) (got : List Byte) :
    (Reader.data hd got).progress k = .away :=
  if_neg different

theorem progress_payload_self {hd : Header} (other : hd.kind ≠ .open) (p : List Byte) :
    (Reader.payload hd p).progress hd.id = .control :=
  if_pos ⟨rfl, other⟩

theorem progress_payload_other {k : Nat} {hd : Header} (away : ¬ (hd.id = k ∧ hd.kind ≠ .open))
    (p : List Byte) : (Reader.payload hd p).progress k = .away :=
  if_neg away

end Reader

/-- What a session holds about one stream. -/
structure Track where
  id : Nat
  server : Bool
  /-- No frame of this identifier has been accepted yet: it is above `high`. -/
  above : Bool
  failure : Option ErrorKind
  /-- The background task has ended. -/
  stopped : Bool
  slot : Option Slot
  queue : List Frame
  touched : List Touched
  out : List Frame
  inn : List Frame
  progress : Progress
  full : Bool

/-- The track of stream `k`. -/
def Session.track (s : Session) (k : Nat) : Track where
  id := k
  server := s.server
  above := s.high.blt k
  failure := s.failure
  stopped := s.ended.isSome
  slot := s.slots k
  queue := s.controls.filter (·.id = k)
  touched := s.touched.filter (·.id = k)
  out := s.emitted.filter (·.id = k)
  inn := s.processed.filter (·.id = k)
  progress := s.reader.progress k
  full := s.full

/-- The labels of moves. -/
inductive Event where
  | plain
  /-- `Stream::drop` of a live stream found no room for its RESET. -/
  | dropFull
  /-- `poll_read` made a CREDIT that exceeds the window. -/
  | overflow
  deriving DecidableEq, Repr

/-- A queued CREDIT takes another amount. -/
def mergeCredit (c : Frame) (amount : Nat) : Frame :=
  { c with payload := bigEndian 2 (u16Add c.amount amount) }

namespace Slot

/-- What `poll_read` takes from the blocks of a slot. -/
def drained (st : Slot) (n : Nat) : Slot :=
  { st with
    input := (Session.drain st.input n [] st.consumed).1
    consumed := (Session.drain st.input n [] st.consumed).2.2 }

/-- No grant is due: `recv_credit += 0`. -/
def settled (st : Slot) : Slot := { st with recvCredit := u16Add st.recvCredit 0 }

/-- The consumed blocks have been granted. -/
def granted (st : Slot) : Slot :=
  { st with recvCredit := u16Add st.recvCredit st.consumed, consumed := 0 }

/-- The CREDIT for the consumed blocks. -/
def creditFrame (st : Slot) (k : Nat) : Frame := ⟨.credit, k, bigEndian 2 st.consumed⟩

/-- A grant is due after draining: enough blocks have been counted, and not none. -/
def due (st : Slot) : Prop := st.creditAt ≤ st.consumed ∧ 0 < st.consumed

/-- The effect of a written batch on a slot. -/
def marked (st : Slot) (touched : List Touched) : Slot := touched.foldl flushed st

/-- Bytes have been published in the last block, which was `c`. -/
def published (st : Slot) (c : Chunk) (bs : List Byte) (complete : Bool) : Slot :=
  { st with
    input := st.input.dropLast ++ [⟨c.bytes ++ bs, complete⟩]
    transferred := st.transferred + bs.length }

/-- A DATA header of the slot has been accepted. -/
def awaiting (st : Slot) : Slot :=
  { st with recvCredit := st.recvCredit - 1, input := st.input ++ [⟨[], false⟩] }

/-- The first `n` bytes of the output have gone into a batch. -/
def sentData (st : Slot) (n : Nat) (p : List Byte) (rest : List (List Byte)) : Slot :=
  { st with
    output := if n = p.length then rest else p.drop n :: rest
    queued := st.queued - n
    transferred := st.transferred + n
    sendCredit := st.sendCredit - 1
    inflight := st.inflight + 1 }

end Slot

namespace Track

/-- The slot is in the map and not terminal. -/
def live (t : Track) : Bool := t.slot.any Slot.live

/-- Everything that can happen to a track. -/
inductive Move : Event → Track → Track → Prop where
  | fail {t : Track} (e : ErrorKind) (alive : t.failure = none) :
      Move .plain t { t with
        failure := some e, slot := t.slot.map (·.fail e), queue := [] }
  /-- The background task ends. -/
  | stop {t : Track} : Move .plain t { t with stopped := true }
  /-- A control frame was refused, and nothing else changed. -/
  | refused {t : Track} : Move .plain t { t with full := true }
  | reserve {t : Track} (p : List Byte) (creditAt : Nat)
      (client : t.server = false) (new : t.above = true) (alive : t.failure = none)
      (valid : t.id % 2 = 1 ∧ t.id < 2 ^ 32) (short : 0 < p.length ∧ p.length ≤ 512)
      (positive : 0 < creditAt) :
      Move .plain t { t with
        above := false
        slot := some (Slot.new creditAt)
        queue := t.queue ++ [⟨.open, t.id, p⟩] }
  /-- Another stream was opened with a larger identifier, or an OPEN was lost. -/
  | pass {t : Track} : Move .plain t { t with above := false }
  /-- The server admits an OPEN. -/
  | arrive {t : Track} (p : List Byte) (creditAt : Nat)
      (server : t.server = true) (new : t.above = true)
      (valid : t.id % 2 = 1 ∧ t.id < 2 ^ 32) (positive : 0 < creditAt) :
      Move .plain t { t with
        above := false
        slot := some (Slot.new creditAt)
        inn := t.inn ++ [⟨.open, t.id, p⟩] }
  /-- The accept loop is gone when the server admits an OPEN. -/
  | arriveLost {t : Track} (creditAt : Nat)
      (server : t.server = true) (new : t.above = true)
      (valid : t.id % 2 = 1 ∧ t.id < 2 ^ 32) (positive : 0 < creditAt) :
      Move .plain t { t with
        above := false
        slot := some (Slot.new creditAt)
        stopped := true }
  /-- The server refuses an OPEN for capacity. -/
  | refuse {t : Track} (p : List Byte)
      (server : t.server = true) (new : t.above = true)
      (valid : t.id % 2 = 1 ∧ t.id < 2 ^ 32) :
      Move .plain t { t with
        above := false
        queue := t.queue ++ [⟨.failed, t.id, [1]⟩]
        inn := t.inn ++ [⟨.open, t.id, p⟩] }
  | accept {t : Track} {st : Slot} (here : t.slot = some st) (unfailed : st.check = none)
      (server : t.server = true) (waiting : st.opened = false) :
      Move .plain t { t with
        slot := some { st with opened := true }
        queue := t.queue ++ [⟨.opened, t.id, []⟩] }
  | acceptFull {t : Track} {st : Slot} (here : t.slot = some st) (unfailed : st.check = none)
      (server : t.server = true) (waiting : st.opened = false) :
      Move .plain t { t with slot := some { st with opened := true }, full := true }
  | reject {t : Track} {st : Slot} (code : Byte) (here : t.slot = some st)
      (server : t.server = true) (waiting : st.opened = false) :
      Move .plain t { t with
        slot := some (st.fail .connectionRefused)
        queue := t.queue ++ [⟨.failed, t.id, [code]⟩] }
  | rejectFull {t : Track} {st : Slot} (here : t.slot = some st)
      (server : t.server = true) (waiting : st.opened = false) :
      Move .plain t { t with slot := some (st.fail .connectionRefused), full := true }
  | finish {t : Track} {st : Slot} (here : t.slot = some st) (unfailed : st.check = none)
      (server : t.server = true) (flushed : st.finFlushed = true)
      (ended : st.remoteFin = true) (drained : st.input = []) :
      Move .plain t { t with queue := t.queue ++ [⟨.finished, t.id, []⟩] }
  | drop {t : Track} {st : Slot} (here : t.slot = some st) (live : st.live = true)
      (alive : t.failure = none) :
      Move .plain t { t with slot := none, queue := t.queue ++ [⟨.reset, t.id, []⟩] }
  | dropFull {t : Track} {st : Slot} (here : t.slot = some st) (live : st.live = true)
      (alive : t.failure = none) :
      Move .dropFull t { t with slot := none, full := true }
  /-- A stream that has ended, or whose session has failed, is dropped. -/
  | dropQuiet {t : Track} {st : Slot} (here : t.slot = some st)
      (past : st.live = false ∨ t.failure ≠ none) :
      Move .plain t { t with slot := none }
  | read {t : Track} {st : Slot} (n : Nat) (here : t.slot = some st)
      (unfailed : st.check = none) :
      Move .plain t { t with slot := some (st.drained n).settled }
  /-- The consumed blocks are granted with a new CREDIT. -/
  | grant {t : Track} {st : Slot} (n : Nat) (here : t.slot = some st)
      (unfailed : st.check = none) (due : (st.drained n).due)
      (none_ : ∀ c ∈ t.queue, c.kind ≠ .credit) :
      Move .plain t { t with
        slot := some (st.drained n).granted
        queue := t.queue ++ [(st.drained n).creditFrame t.id] }
  /-- The consumed blocks join a queued CREDIT. -/
  | merge {t : Track} {st : Slot} {before after : List Frame} {c : Frame} (n : Nat)
      (here : t.slot = some st) (unfailed : st.check = none) (due : (st.drained n).due)
      (queued : t.queue = before ++ c :: after) (kind : c.kind = .credit)
      (fits : u16Add c.amount ((st.drained n).creditFrame t.id).amount ≤ window) :
      Move .plain t { t with
        slot := some (st.drained n).granted
        queue := before ++ mergeCredit c ((st.drained n).creditFrame t.id).amount :: after }
  | grantFull {t : Track} {st : Slot} (n : Nat) (here : t.slot = some st)
      (unfailed : st.check = none) (due : (st.drained n).due) :
      Move .plain t { t with slot := some (st.drained n).granted, full := true }
  | overflow {t : Track} {st : Slot} {c : Frame} (n : Nat) (here : t.slot = some st)
      (unfailed : st.check = none) (due : (st.drained n).due)
      (queued : c ∈ t.queue) (kind : c.kind = .credit)
      (past : window < u16Add c.amount ((st.drained n).creditFrame t.id).amount) :
      Move .overflow t { t with slot := some (st.drained n).granted }
  | write {t : Track} {st : Slot} (p : List Byte) (here : t.slot = some st)
      (unfailed : st.check = none) (opened : st.opened = true) (unended : st.localFin = false) :
      Move .plain t { t with
        slot := some { st with output := st.output ++ [p], queued := st.queued + p.length } }
  | shutdown {t : Track} {st : Slot} (here : t.slot = some st) (unfailed : st.check = none) :
      Move .plain t { t with slot := some { st with localFin := true } }
  /-- A control header has passed its check. -/
  | control {t : Track} (away : t.progress = .away) (old : t.above = false) :
      Move .plain t { t with progress := .control }
  /-- A control frame for a stream that has ended is ignored. -/
  | ignore {t : Track} (f : Frame) (at_ : t.progress = .control) (dead : t.live = false)
      (other : f.kind ≠ .open ∧ f.kind ≠ .data) :
      Move .plain t { t with inn := t.inn ++ [f], progress := .away }
  | opened {t : Track} {st : Slot} (f : Frame) (kind : f.kind = .opened)
      (at_ : t.progress = .control) (here : t.slot = some st) (live : st.live = true)
      (client : t.server = false) (waiting : st.opened = false) :
      Move .plain t { t with
        slot := some { st with opened := true }, inn := t.inn ++ [f], progress := .away }
  | failed {t : Track} {st : Slot} (f : Frame) (kind : f.kind = .failed) (e : ErrorKind)
      (at_ : t.progress = .control) (here : t.slot = some st) (live : st.live = true)
      (client : t.server = false) (waiting : st.opened = false) :
      Move .plain t { t with
        slot := some (st.fail e), inn := t.inn ++ [f], progress := .away }
  | fin {t : Track} {st : Slot} (f : Frame) (kind : f.kind = .fin)
      (at_ : t.progress = .control) (here : t.slot = some st) (live : st.live = true)
      (opened : st.opened = true) (first : st.remoteFin = false) :
      Move .plain t { t with
        slot := some { st with remoteFin := true }, inn := t.inn ++ [f], progress := .away }
  | reset {t : Track} {st : Slot} (f : Frame) (kind : f.kind = .reset)
      (at_ : t.progress = .control) (here : t.slot = some st) (live : st.live = true) :
      Move .plain t { t with
        slot := some (st.fail .connectionReset), inn := t.inn ++ [f], progress := .away }
  | finished {t : Track} {st : Slot} (f : Frame) (kind : f.kind = .finished)
      (at_ : t.progress = .control) (here : t.slot = some st) (live : st.live = true)
      (client : t.server = false) (sent : st.finSent = true) (ended : st.remoteFin = true) :
      Move .plain t { t with
        slot := some { st with terminal := some (.ok ()) }
        inn := t.inn ++ [f], progress := .away }
  | credit {t : Track} {st : Slot} (f : Frame) (kind : f.kind = .credit)
      (at_ : t.progress = .control) (here : t.slot = some st) (live : st.live = true)
      (some_ : f.amount ≠ 0) (fits : f.amount ≤ u16Sub window st.sendCredit) :
      Move .plain t { t with
        slot := some { st with sendCredit := u16Add st.sendCredit f.amount }
        inn := t.inn ++ [f], progress := .away }
  /-- A DATA header of a live stream has passed its check. -/
  | check {t : Track} {st : Slot} (away : t.progress = .away) (here : t.slot = some st)
      (live : st.live = true) (opened : st.opened = true) (unended : st.remoteFin = false)
      (window : 0 < st.recvCredit) :
      Move .plain t { t with slot := some st.awaiting, progress := .receiving [] }
  /-- A DATA header of a stream that has ended has passed its check. -/
  | checkDead {t : Track} (away : t.progress = .away) (dead : t.live = false)
      (old : t.above = false) :
      Move .plain t { t with progress := .receiving [] }
  | publish {t : Track} {st : Slot} {c : Chunk} {got : List Byte} (bs : List Byte)
      (at_ : t.progress = .receiving got) (here : t.slot = some st) (live : st.live = true)
      (last : st.input.getLast? = some c) :
      Move .plain t { t with
        slot := some (st.published c bs false), progress := .receiving (got ++ bs) }
  /-- The last part of a DATA payload arrives. -/
  | complete {t : Track} {st : Slot} {c : Chunk} {got : List Byte} (bs : List Byte)
      (at_ : t.progress = .receiving got) (here : t.slot = some st) (live : st.live = true)
      (last : st.input.getLast? = some c) :
      Move .plain t { t with
        slot := some (st.published c bs true)
        inn := t.inn ++ [⟨.data, t.id, got ++ bs⟩], progress := .away }
  | publishDead {t : Track} {got : List Byte} (bs : List Byte)
      (at_ : t.progress = .receiving got) (dead : t.live = false) :
      Move .plain t { t with progress := .receiving (got ++ bs) }
  | completeDead {t : Track} {got : List Byte} (bs : List Byte)
      (at_ : t.progress = .receiving got) (dead : t.live = false) :
      Move .plain t { t with
        inn := t.inn ++ [⟨.data, t.id, got ++ bs⟩], progress := .away }
  /-- Part of a payload arrives, and there is no block for it. -/
  | cut {t : Track} {st : Slot} {got : List Byte} (bs : List Byte)
      (at_ : t.progress = .receiving got) (here : t.slot = some st) (live : st.live = true)
      (empty : st.input = []) :
      Move .plain t { t with progress := .receiving (got ++ bs), stopped := true }
  | emitControl {t : Track} {c : Frame} {rest : List Frame}
      (alive : t.failure = none) (running : t.stopped = false) (queued : t.queue = c :: rest) :
      Move .plain t { t with
        queue := rest
        out := t.out ++ [c]
        touched := t.touched ++ Session.controlTouch c }
  | emitData {t : Track} {st : Slot} {p : List Byte} {rest : List (List Byte)} (n : Nat)
      (alive : t.failure = none) (running : t.stopped = false)
      (here : t.slot = some st) (live : st.live = true) (opened : st.opened = true)
      (pending : st.output = p :: rest) (some_ : 0 < n) (available : n ≤ p.length)
      (small : n ≤ blockSize) (window : 0 < st.sendCredit) :
      Move .plain t { t with
        slot := some (st.sentData n p rest)
        out := t.out ++ [⟨.data, t.id, p.take n⟩]
        touched := t.touched ++ [⟨t.id, false, false⟩] }
  | emitFin {t : Track} {st : Slot}
      (alive : t.failure = none) (running : t.stopped = false)
      (here : t.slot = some st) (live : st.live = true) (opened : st.opened = true)
      (ended : st.localFin = true) (first : st.finSent = false) (empty : st.output = []) :
      Move .plain t { t with
        slot := some { st with finSent := true, inflight := st.inflight + 1 }
        out := t.out ++ [⟨.fin, t.id, []⟩]
        touched := t.touched ++ [⟨t.id, true, false⟩] }
  /-- A batch has been written and flushed. -/
  | mark {t : Track} :
      Move .plain t { t with slot := t.slot.map (·.marked t.touched), touched := [] }
  /-- The watchdog ends a stream. -/
  | expire {t : Track} {st : Slot} (alive : t.failure = none) (running : t.stopped = false)
      (here : t.slot = some st) (live : st.live = true) :
      Move .plain t { t with
        slot := some (st.fail .timedOut), queue := t.queue ++ [⟨.reset, t.id, []⟩] }
  /-- The watchdog ends a stream, and with it the task: there is no room for RESET. -/
  | expireFull {t : Track} {st : Slot} (alive : t.failure = none)
      (running : t.stopped = false) (here : t.slot = some st) (live : st.live = true) :
      Move .plain t { t with
        slot := some (st.fail .timedOut), full := true, stopped := true }

/-- Zero or more moves, all labelled by allowed events. -/
def Moves (allowed : Event → Prop) : Track → Track → Prop :=
  Relation.ReflTransGen fun t t' => ∃ event, allowed event ∧ Move event t t'

theorem Moves.one {allowed : Event → Prop} {event : Event} {t t' : Track}
    (fine : allowed event) (move : Move event t t') : Moves allowed t t' :=
  Relation.ReflTransGen.single ⟨event, fine, move⟩

theorem Moves.refl {allowed : Event → Prop} (t : Track) : Moves allowed t t :=
  Relation.ReflTransGen.refl

theorem Moves.trans {allowed : Event → Prop} {t t' t'' : Track}
    (first : Moves allowed t t') (second : Moves allowed t' t'') : Moves allowed t t'' :=
  Relation.ReflTransGen.trans first second

/-- What every move preserves, a sequence of moves preserves. -/
theorem Moves.invariant {allowed : Event → Prop} {P : Track → Prop}
    (preserved : ∀ event t t', allowed event → Move event t t' → P t → P t')
    {t t' : Track} (moves : Moves allowed t t') (held : P t) : P t' := by
  induction moves with
  | refl => exact held
  | tail _ last before =>
      rcases last with ⟨event, fine, move⟩
      exact preserved _ _ _ fine move before

end Track

end Veil.Rust

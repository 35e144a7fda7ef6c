import Veil.Mux.Session
import Mathlib.Logic.Relation

/-!
# One stream through a session

A session step concerns at most one stream, except that it may fail the whole
session.  The track of a stream is everything the session holds about it: the
stream itself, its place in the map, its control frames in the queue and in
the batch being written, the frames sent and read for it, and how far the read
loop is with a frame of it.

`Track.Move` lists, once, everything that can happen to a track, each move with
its guard and labelled by the call it belongs to.  The main theorem of the next
module says that a session step moves every track by these moves only.  All
invariants of streams are then proved about moves.
-/

namespace Veil.Mux

open Veil.Lib

/-- How far the read loop is with a frame of one stream. -/
inductive Progress where
  | away
  | control (live : Bool)
  | checked (live : Bool)
  | receiving (got : List Byte) (discard : Bool)
  /-- The read loop ended inside a DATA payload. -/
  | stuck (got : List Byte) (discard : Bool)
  deriving DecidableEq, Repr

namespace Reader

def progress (k : Nat) : Reader → Progress
  | .payload hd live _ => if hd.id = k ∧ hd.kind ≠ .open then .control live else .away
  | .chunk hd live => if hd.id = k then .checked live else .away
  | .receiving hd got discard => if hd.id = k then .receiving got discard else .away
  | .stopped _ (.receiving hd got discard) =>
      if hd.id = k then .stuck got discard else .away
  | _ => .away

def halted : Reader → Bool
  | .stopped _ _ => true
  | _ => false

end Reader

/-- The control frames of the batch that is being written. -/
def Writer.sentControls : Writer → List Control
  | .writing b => b.sentControls
  | _ => []

/-- The requests that the batch being written completes. -/
def Writer.completed : Writer → List Nat
  | .writing b => b.completed
  | _ => []

/-- What a session holds about one stream. -/
structure Track where
  id : Nat
  server : Bool
  /-- No frame of this identifier has been accepted yet: it is above `lastID`. -/
  above : Bool
  err : Option Err
  halted : Bool
  st : Option Stream
  listed : Bool
  queue : List Control
  sending : List Control
  /-- The batch being written completes the stream's request. -/
  finishing : Bool
  out : List Frame
  inn : List Frame
  progress : Progress

/-- The track of stream `k` with given controls and requests being written. -/
def Session.trackWith (s : Session) (sending : List Control) (completed : List Nat)
    (k : Nat) : Track where
  id := k
  server := s.server
  above := s.lastID.blt k
  err := s.err
  halted := s.reader.halted
  st := s.objs k
  listed := s.streams.contains k
  queue := s.controls.filter (·.frame.id = k)
  sending := sending.filter (·.frame.id = k)
  finishing := completed.contains k
  out := s.emitted.filter (·.id = k)
  inn := s.processed.filter (·.id = k)
  progress := s.reader.progress k

/-- The track of stream `k`. -/
def Session.track (s : Session) (k : Nat) : Track :=
  s.trackWith s.writer.sentControls s.writer.completed k

/-- The calls and internal steps a move belongs to. -/
inductive Event where
  | inner
  | «open»
  /-- An `Open` whose OPEN found no room in the control queue. -/
  | openFull
  | respond (code : Byte)
  /-- A `Respond` whose frame found no room in the control queue. -/
  | respondFull (code : Byte)
  | returned
  /-- A wait cut short by cancellation while OPENED is queued. -/
  | abandoned
  | read
  | write
  | writeReturn
  | closeWrite
  /-- A `CloseWrite` whose FIN found no room in the control queue. -/
  | closeWriteFull
  | finish
  /-- A `Finish` one of whose frames was refused. -/
  | finishFull
  | close
  /-- A `Close` whose RESET found no room in the control queue. -/
  | closeFull
  deriving DecidableEq, Repr

namespace Track

/-- The track's stream is in the map and has no error. -/
def live (t : Track) : Bool := t.listed && t.st.any (·.err.isNone)

/-- `Reader.discardFor` on the track of the stream that is closed. -/
def discarded : Progress → Progress
  | .receiving got _ => .receiving got true
  | progress => progress

/-- The FIN that `Finish` queues when `CloseWrite` deferred it. -/
def deferredFin (t : Track) (pending : Bool) : List Control :=
  if pending then [⟨⟨.fin, t.id, []⟩, .nobody⟩] else []

/-- Everything that can happen to a track. -/
inductive Move : Event → Track → Track → Prop where
  /-- The session fails. -/
  | fail {t : Track} {st : Stream} (e : Err) (alive : t.err = none)
      (ended : e = .eof → t.halted = true) (here : t.st = some st) :
      Move .inner t { t with
        err := some e
        st := some ((if t.listed = true ∧ ¬ st.peerDone
          then st.stop (Session.streamError e) else st).notifyAll (some e) t.queue)
        queue := [] }
  /-- The session fails, and there is no stream of this identifier. -/
  | failBare {t : Track} (e : Err) (alive : t.err = none)
      (ended : e = .eof → t.halted = true) (missing : t.st = none) :
      Move .inner t { t with err := some e, queue := [] }
  /-- The read loop ends outside a DATA payload. -/
  | halt {t : Track}
      (outside : t.progress = .away ∨ ∃ live, t.progress = .control live) :
      Move .inner t { t with halted := true, progress := .away }
  /-- `Open` allocates the identifier and queues OPEN. -/
  | «open» {t : Track} (metadata : List Byte) (refundAt : Nat)
      (client : t.server = false) (new : t.above = true) (alive : t.err = none)
      (valid : t.id % 2 = 1 ∧ t.id < 2 ^ 32)
      (short : 0 < metadata.length ∧ metadata.length ≤ 512) (positive : 0 < refundAt) :
      Move .open t { t with
        above := false
        st := some (Stream.fresh metadata refundAt)
        listed := true
        queue := t.queue ++ [⟨⟨.open, t.id, metadata⟩, .nobody⟩] }
  /-- `Open` allocates the identifier, but OPEN finds the queue full. -/
  | openFull {t : Track} (metadata : List Byte) (refundAt : Nat)
      (client : t.server = false) (new : t.above = true) (alive : t.err = none)
      (valid : t.id % 2 = 1 ∧ t.id < 2 ^ 32) (positive : 0 < refundAt) :
      Move .openFull t { t with
        above := false
        st := some (Stream.fresh metadata refundAt)
        listed := true }
  /-- Another stream was opened with a larger identifier. -/
  | pass {t : Track} : Move .inner t { t with above := false }
  /-- An OPEN removes streams whose relay has completed. -/
  | sweep {t : Track} {st : Stream} (here : t.st = some st)
      (complete : st.applicationDone = true) :
      Move .inner t { t with listed := false }
  /-- The server accepts an OPEN. -/
  | arrive {t : Track} (p : List Byte) (refundAt : Nat)
      (server : t.server = true) (new : t.above = true)
      (valid : t.id % 2 = 1 ∧ t.id < 2 ^ 32)
      (reading : t.halted = false) (positive : 0 < refundAt) :
      Move .inner t { t with
        above := false
        st := some (Stream.fresh p refundAt)
        listed := true
        inn := t.inn ++ [⟨.open, t.id, p⟩] }
  /-- The server refuses an OPEN for capacity. -/
  | refuse {t : Track} (p : List Byte)
      (server : t.server = true) (new : t.above = true) (alive : t.err = none)
      (valid : t.id % 2 = 1 ∧ t.id < 2 ^ 32) :
      Move .inner t { t with
        above := false
        queue := t.queue ++ [⟨⟨.failed, t.id, [1]⟩, .nobody⟩]
        inn := t.inn ++ [⟨.open, t.id, p⟩] }
  /-- A control header has passed its check. -/
  | control {t : Track} (away : t.progress = .away) (old : t.above = false) :
      Move .inner t { t with progress := .control t.live }
  /-- A control frame for a stream that has ended is ignored. -/
  | ignore {t : Track} {live : Bool} (f : Frame)
      (at_ : t.progress = .control live)
      (dead : ¬ (live = true ∧ t.listed = true ∧ ∃ st, t.st = some st ∧ st.closed = false))
      (other : f.kind ≠ .open ∧ f.kind ≠ .data) :
      Move .inner t { t with inn := t.inn ++ [f], progress := .away }
  | opened {t : Track} {st : Stream} (f : Frame) (kind : f.kind = .opened)
      (at_ : t.progress = .control true) (listed : t.listed = true)
      (here : t.st = some st) (unclosed : st.closed = false)
      (client : t.server = false) (waiting : st.ready = false) :
      Move .inner t { t with
        st := some { st with ready := true }
        inn := t.inn ++ [f], progress := .away }
  | failed {t : Track} {st : Stream} (f : Frame) (kind : f.kind = .failed) (e : Err)
      (at_ : t.progress = .control true) (listed : t.listed = true)
      (here : t.st = some st) (unclosed : st.closed = false)
      (client : t.server = false) (waiting : st.ready = false) (plain : e ≠ .eof) :
      Move .inner t { t with
        st := some (st.shut e), listed := false
        inn := t.inn ++ [f], progress := .away }
  | fin {t : Track} {st : Stream} (f : Frame) (kind : f.kind = .fin)
      (at_ : t.progress = .control true) (listed : t.listed = true)
      (here : t.st = some st) (unclosed : st.closed = false)
      (opened : st.ready = true) (first : st.remoteFIN = false) :
      Move .inner t { t with
        st := some { st with remoteFIN := true }
        inn := t.inn ++ [f], progress := .away }
  | reset {t : Track} {st : Stream} (f : Frame) (kind : f.kind = .reset)
      (at_ : t.progress = .control true) (listed : t.listed = true)
      (here : t.st = some st) (unclosed : st.closed = false) :
      Move .inner t { t with
        st := some (st.shut .reset), listed := false
        inn := t.inn ++ [f], progress := .away }
  | finished {t : Track} {st : Stream} (f : Frame) (kind : f.kind = .finished)
      (at_ : t.progress = .control true) (listed : t.listed = true)
      (here : t.st = some st) (unclosed : st.closed = false)
      (client : t.server = false) (first : st.peerDone = false)
      (sent : st.localFIN = true) (ended : st.remoteFIN = true) :
      Move .inner t { t with
        st := some { st with peerDone := true }
        inn := t.inn ++ [f], progress := .away }
  | credit {t : Track} {st : Stream} (f : Frame) (kind : f.kind = .credit)
      (at_ : t.progress = .control true) (listed : t.listed = true)
      (here : t.st = some st) (unclosed : st.closed = false)
      (some_ : f.amount ≠ 0) (fits : (f.amount : Int) ≤ windowBlocks - st.sendCredit) :
      Move .inner t { t with
        st := some { st with sendCredit := st.sendCredit + f.amount }
        inn := t.inn ++ [f], progress := .away }
  /-- A DATA header of a live stream has passed its check. -/
  | checked {t : Track} {st : Stream} (away : t.progress = .away)
      (reading : t.halted = false)
      (listed : t.listed = true) (here : t.st = some st) (unfailed : st.err = none)
      (opened : st.ready = true) (unended : st.remoteFIN = false)
      (window : 0 < st.recvCredit) :
      Move .inner t { t with
        st := some { st with recvCredit := st.recvCredit - 1 }
        progress := .checked true }
  /-- A DATA header of a stream that has ended has passed its check. -/
  | checkedDead {t : Track} (away : t.progress = .away) (dead : t.live = false)
      (old : t.above = false) :
      Move .inner t { t with progress := .checked false }
  | keepChunk {t : Track} {st : Stream} (at_ : t.progress = .checked true)
      (listed : t.listed = true) (here : t.st = some st) (unclosed : st.closed = false) :
      Move .inner t { t with
        st := some { st with queue := st.queue ++ [⟨[], 0, false⟩] }
        progress := .receiving [] false }
  | dropChunk {t : Track} {live : Bool} (at_ : t.progress = .checked live)
      (dead : ¬ (live = true ∧ t.listed = true ∧ ∃ st, t.st = some st ∧ st.closed = false)) :
      Move .inner t { t with progress := .receiving [] true }
  /-- Part of a DATA payload arrives. -/
  | publish {t : Track} {st : Stream} {got : List Byte} (bs : List Byte)
      (at_ : t.progress = .receiving got false) (here : t.st = some st) :
      Move .inner t { t with
        st := some (st.publish bs false)
        progress := .receiving (got ++ bs) false }
  /-- The last part of a DATA payload arrives. -/
  | complete {t : Track} {st : Stream} {got : List Byte} (bs : List Byte)
      (at_ : t.progress = .receiving got false) (here : t.st = some st)
      (more : bs ≠ []) :
      Move .inner t { t with
        st := some (st.publish bs true)
        inn := t.inn ++ [⟨.data, t.id, got ++ bs⟩]
        progress := .away }
  /-- The read loop ends inside a DATA payload. -/
  | cut {t : Track} {st : Stream} {got : List Byte} (bs : List Byte)
      (at_ : t.progress = .receiving got false) (here : t.st = some st) :
      Move .inner t { t with
        st := some (st.publish bs true), halted := true
        progress := .stuck (got ++ bs) false }
  | publishDropped {t : Track} {got : List Byte} {discard : Bool} (bs : List Byte)
      (at_ : t.progress = .receiving got discard)
      (dropped : discard = true ∨ t.st = none) :
      Move .inner t { t with progress := .receiving (got ++ bs) discard }
  | completeDropped {t : Track} {got : List Byte} {discard : Bool} (bs : List Byte)
      (at_ : t.progress = .receiving got discard)
      (dropped : discard = true ∨ t.st = none) :
      Move .inner t { t with
        inn := t.inn ++ [⟨.data, t.id, got ++ bs⟩], progress := .away }
  | cutDropped {t : Track} {got : List Byte} {discard : Bool} (bs : List Byte)
      (at_ : t.progress = .receiving got discard)
      (dropped : discard = true ∨ t.st = none) :
      Move .inner t { t with halted := true, progress := .stuck (got ++ bs) discard }
  | respond {t : Track} {st : Stream} (code : Byte)
      (here : t.st = some st) (free : st.call = .idle) (unfailed : st.err = none)
      (server : t.server = true) (waiting : st.ready = false) (unclosed : st.closed = false)
      (alive : t.err = none) :
      Move (.respond code) t { t with
        st := some { st with ready := code == 0, call := .respond }
        queue := t.queue ++
          [⟨if code == 0 then ⟨.opened, t.id, []⟩ else ⟨.failed, t.id, [code]⟩,
            .controlDone⟩] }
  /-- `Respond` finds the control queue full. -/
  | respondFull {t : Track} {st : Stream} (code : Byte)
      (here : t.st = some st) (free : st.call = .idle) (unfailed : st.err = none)
      (server : t.server = true) (waiting : st.ready = false) (unclosed : st.closed = false)
      (alive : t.err = none) :
      Move (.respondFull code) t { t with st := some { st with ready := code == 0 } }
  /-- `Respond` on a stream accepted after the session failed. -/
  | respondOver {t : Track} {st : Stream} (code : Byte)
      (here : t.st = some st) (free : st.call = .idle) (unfailed : st.err = none)
      (server : t.server = true) (waiting : st.ready = false) (unclosed : st.closed = false)
      (past : t.err ≠ none) :
      Move (.respond code) t { t with st := some { st with ready := code == 0 } }
  /-- `Respond` or `Finish` takes the report of its frame. -/
  | controlReturn {t : Track} {st : Stream} {e : Option Err} {rest : List (Option Err)}
      (here : t.st = some st) (waiting : st.call = .respond ∨ st.call = .finish)
      (reported : st.controlDone = e :: rest) :
      Move .returned t { t with
        st := some { st with controlDone := rest, call := .idle } }
  | finReturn {t : Track} {st : Stream} {e : Option Err} {rest : List (Option Err)}
      (here : t.st = some st) (waiting : st.call = .closeWrite)
      (reported : st.finDone = e :: rest) :
      Move .returned t { t with st := some { st with finDone := rest, call := .idle } }
  /-- A waiting call sees that its stream or session ended, or that it was cancelled. -/
  | giveUp {t : Track} {st : Stream} (here : t.st = some st)
      (waiting : st.call ≠ .idle ∧ st.call ≠ .write)
      (past : st.err ≠ none ∨ t.err ≠ none ∨ ∀ c ∈ t.queue, c.frame.kind ≠ .opened) :
      Move .returned t { t with st := some { st with call := .idle } }
  /-- A call is cancelled while the OPENED of its stream still waits in the queue. -/
  | abandon {t : Track} {st : Stream} (here : t.st = some st)
      (waiting : st.call ≠ .idle ∧ st.call ≠ .write) :
      Move .abandoned t { t with st := some { st with call := .idle } }
  | advance {t : Track} {st : Stream} {c : Chunk} {rest : List Chunk} (bytes : List Byte)
      (here : t.st = some st) (front : st.unread = c :: rest)
      (copied : bytes <+: c.rest)
      (unfinished : c.start + bytes.length ≠ c.b.length ∨ c.complete = false) :
      Move .read t { t with st := some (st.advance c bytes) }
  | pop {t : Track} {st : Stream} {c : Chunk} {rest : List Chunk}
      (here : t.st = some st) (front : st.unread = c :: rest)
      (complete : c.complete = true) (inside : c.start ≤ c.b.length) :
      Move .read t { t with st := some (st.pop c.rest) }
  /-- The refund is queued as a new CREDIT. -/
  | grant {t : Track} {st : Stream} (refundAt : Nat)
      (here : t.st = some st) (due : (st.refundAt : Int) ≤ st.refund)
      (unfailed : st.err = none) (unclosed : st.closed = false) (alive : t.err = none)
      (none_ : ∀ c ∈ t.queue, c.frame.kind ≠ .credit) (positive : 0 < refundAt) :
      Move .read t { t with
        st := some (st.granted refundAt)
        queue := t.queue ++
          [⟨⟨.credit, t.id, bigEndian 2 st.refund.toNat⟩, .nobody⟩] }
  /-- The refund joins a queued CREDIT. -/
  | merge {t : Track} {st : Stream} {before after : List Control} {c : Control}
      (refundAt : Nat)
      (here : t.st = some st) (due : (st.refundAt : Int) ≤ st.refund)
      (unfailed : st.err = none) (unclosed : st.closed = false) (alive : t.err = none)
      (queued : t.queue = before ++ c :: after) (kind : c.frame.kind = .credit)
      (fits : ((c.frame.amount + fromBigEndian (bigEndian 2 st.refund.toNat) : Nat) : Int)
        ≤ windowBlocks) (positive : 0 < refundAt) :
      Move .read t { t with
        st := some (st.granted refundAt)
        queue := before ++ { c with frame := { c.frame with
          payload := bigEndian 2
            (c.frame.amount + fromBigEndian (bigEndian 2 st.refund.toNat)) } } :: after }
  | write {t : Track} {st : Stream} (p : List Byte)
      (here : t.st = some st) (free : st.call = .idle) (unfailed : st.err = none)
      (unclosed : st.closed = false) (unended : st.localFIN = false)
      (opened : st.ready = true) (some_ : p ≠ []) :
      Move .write t { t with
        st := some { st with request := some ⟨p, 0, false⟩, call := .write } }
  | writeReturn {t : Track} {st : Stream} {r : WriteRequest} {n : Nat} {e : Option Err}
      {rest : List (Nat × Option Err)}
      (here : t.st = some st) (waiting : st.call = .write)
      (reported : st.writeDone = (n, e) :: rest) (pending : st.request = some r) :
      Move .writeReturn t { t with
        st := some { st with
          writeDone := rest, request := none, call := .idle
          wrote := st.wrote ++ r.p.take n } }
  | closeWrite {t : Track} {st : Stream}
      (here : t.st = some st) (free : st.call = .idle) (unfailed : st.err = none)
      (unclosed : st.closed = false) (unended : st.localFIN = false)
      (opened : st.ready = true) (alive : t.err = none)
      (now : ¬ (t.server = true ∧ st.remoteFIN = true)) :
      Move .closeWrite t { t with
        st := some { st with
          localFIN := true, closedAt := some st.wrote, call := .closeWrite }
        queue := t.queue ++ [⟨⟨.fin, t.id, []⟩, .finDone⟩] }
  | closeWriteLater {t : Track} {st : Stream}
      (here : t.st = some st) (free : st.call = .idle) (unfailed : st.err = none)
      (unclosed : st.closed = false) (unended : st.localFIN = false)
      (opened : st.ready = true)
      (later : t.server = true ∧ st.remoteFIN = true) :
      Move .closeWrite t { t with
        st := some { st with
          localFIN := true, closedAt := some st.wrote, pendingFIN := true } }
  | closeWriteFull {t : Track} {st : Stream}
      (here : t.st = some st) (free : st.call = .idle) (unfailed : st.err = none)
      (unclosed : st.closed = false) (unended : st.localFIN = false)
      (opened : st.ready = true) (alive : t.err = none)
      (now : ¬ (t.server = true ∧ st.remoteFIN = true)) :
      Move .closeWriteFull t { t with
        st := some { st with localFIN := true, closedAt := some st.wrote } }
  | closeWriteOver {t : Track} {st : Stream}
      (here : t.st = some st) (free : st.call = .idle) (unfailed : st.err = none)
      (unclosed : st.closed = false) (unended : st.localFIN = false)
      (opened : st.ready = true) (past : t.err ≠ none)
      (now : ¬ (t.server = true ∧ st.remoteFIN = true)) :
      Move .closeWrite t { t with
        st := some { st with localFIN := true, closedAt := some st.wrote } }
  | finish {t : Track} {st : Stream}
      (here : t.st = some st) (free : st.call = .idle) (unfailed : st.err = none)
      (server : t.server = true) (sent : st.localFIN = true) (ended : st.remoteFIN = true)
      (first : st.applicationDone = false) (alive : t.err = none) :
      Move .finish t { t with
        st := some { st with applicationDone := true, pendingFIN := false, call := .finish }
        queue := t.queue ++ t.deferredFin st.pendingFIN ++
          [⟨⟨.finished, t.id, []⟩, .controlDone⟩] }
  | finishFull {t : Track} {st : Stream} (queued : Bool)
      (here : t.st = some st) (free : st.call = .idle) (unfailed : st.err = none)
      (server : t.server = true) (sent : st.localFIN = true) (ended : st.remoteFIN = true)
      (first : st.applicationDone = false)
      (deferred : queued = true → st.pendingFIN = true ∧ t.err = none) :
      Move .finishFull t { t with
        st := some { st with applicationDone := true, pendingFIN := false }
        queue := t.queue ++ t.deferredFin queued }
  /-- `Close` announces a stream that is still alive with RESET. -/
  | close {t : Track} {st : Stream}
      (here : t.st = some st) (unclosed : st.closed = false)
      (unfinished : st.applicationDone = false ∧ st.peerDone = false)
      (unfailed : st.err = none) (alive : t.err = none) :
      Move .close t { t with
        st := some (st.shut .closed), listed := false
        queue := t.queue ++ [⟨⟨.reset, t.id, []⟩, .nobody⟩]
        progress := discarded t.progress }
  /-- `Close` of a stream that needs no RESET, or after the session failed. -/
  | closeQuiet {t : Track} {st : Stream}
      (here : t.st = some st) (unclosed : st.closed = false)
      (past : st.applicationDone = true ∨ st.peerDone = true ∨ st.err ≠ none ∨ t.err ≠ none) :
      Move .close t { t with
        st := some (st.shut .closed), listed := false
        progress := discarded t.progress }
  | closeFull {t : Track} {st : Stream}
      (here : t.st = some st) (unclosed : st.closed = false)
      (unfinished : st.applicationDone = false ∧ st.peerDone = false)
      (unfailed : st.err = none) (alive : t.err = none) :
      Move .closeFull t { t with
        st := some (st.shut .closed), listed := false
        progress := discarded t.progress }
  /-- The next queued control frame goes into a batch. -/
  | emitControl {t : Track} {c : Control} {rest : List Control}
      (alive : t.err = none) (queued : t.queue = c :: rest) :
      Move .inner t { t with
        queue := rest
        out := t.out ++ [c.frame]
        sending := t.sending ++ [c] }
  /-- A DATA frame goes into a batch. -/
  | emitData {t : Track} {st : Stream} {r : WriteRequest} (n : Nat)
      (alive : t.err = none) (listed : t.listed = true) (here : t.st = some st)
      (pending : st.request = some r) (unfinished : r.finished = false)
      (some_ : 0 < n) (available : n ≤ r.p.length - r.off) (small : n ≤ blockSize)
      (window : 0 < st.sendCredit) (unfailed : st.err = none) :
      Move .inner t { t with
        st := some { st with
          request := some { r with off := r.off + n }
          sendCredit := st.sendCredit - 1
          transferred := st.transferred + n }
        finishing := t.finishing || decide (r.off + n = r.p.length)
        out := t.out ++ [⟨.data, t.id, (r.p.drop r.off).take n⟩] }
  /-- The result of a batch is reported. -/
  | report {t : Track} {st : Stream} (e : Option Err) (here : t.st = some st) :
      Move .inner t { t with
        st := some ((if t.finishing then st.finishRequest e else st).notifyAll e t.sending)
        sending := [], finishing := false }
  | reportBare {t : Track} (missing : t.st = none) :
      Move .inner t { t with sending := [], finishing := false }

/-- Zero or more moves, all labelled by allowed events. -/
def Moves (allowed : Event → Prop) : Track → Track → Prop :=
  Relation.ReflTransGen fun t t' => ∃ event, allowed event ∧ Move event t t'

theorem Moves.one {allowed : Event → Prop} {event : Event} {t t' : Track}
    (fine : allowed event) (move : Move event t t') : Moves allowed t t' :=
  Relation.ReflTransGen.single ⟨event, fine, move⟩

theorem Moves.refl {allowed : Event → Prop} (t : Track) : Moves allowed t t :=
  Relation.ReflTransGen.refl

theorem Moves.trans {allowed : Event → Prop} {t t' t'' : Track}
    (first : Moves allowed t t') (second : Moves allowed t' t'') : Moves allowed t t'' :=
  Relation.ReflTransGen.trans first second

theorem Moves.mono {allowed wider : Event → Prop}
    (widen : ∀ event, allowed event → wider event) {t t' : Track}
    (moves : Moves allowed t t') : Moves wider t t' :=
  Relation.ReflTransGen.mono
    (fun _ _ ⟨event, fine, move⟩ => ⟨event, widen event fine, move⟩) _ _ moves

/-- What every move preserves, a sequence of moves preserves. -/
theorem Moves.invariant {allowed : Event → Prop} {P : Track → Prop}
    (preserved : ∀ event t t', allowed event → Move event t t' → P t → P t')
    {t t' : Track} (moves : Moves allowed t t') (held : P t) : P t' := by
  induction moves with
  | refl => exact held
  | tail _ last before =>
      rcases last with ⟨event, fine, move⟩
      exact preserved _ _ _ fine move before

end Track

end Veil.Mux

import Veil.Rust.Invariant
import Veil.Mux.Feed

/-!
# A Rust session and its peer

Two Rust sessions joined by a pair of pipes, and the link between a stream's
frames on both sides: those read for it are an initial part of those the peer
sent for it, and a DATA frame being read is the next of them.  The link says
nothing of how the peer is implemented.
-/

namespace Veil.Rust

open Veil.Lib
open Veil.Mux (Byte Kind Header Frame readHeader encodeAll headerSize Feeds)

/-- The joint state of a client and a server session. -/
abbrev Pair := Endpoint.Joint Session Session Byte

namespace Pair

/-- A client session, on the left, and a server session, on the right. -/
def machine : Machine Pair (Session.Action ⊕ Session.Action) :=
  Endpoint.join (Session.endpoint false) (Session.endpoint true)

end Pair

namespace Reader

/-- The header that has passed its check, and the bytes read of its payload. -/
def frame? : Reader → Option (Header × List Byte)
  | .header _ => none
  | .payload hd p => some (hd, p)
  | .data hd got => some (hd, got)

theorem pending_frame {reader : Reader} {hd : Header} {got : List Byte}
    (position : reader.frame? = some (hd, got)) : reader.pending = hd.bytes ++ got := by
  cases reader with
  | header => cases position
  | payload | data =>
      cases position
      rfl

theorem Framed.frame {server : Bool} {high : Nat} {reader : Reader}
    (framed : reader.Framed server high) {hd : Header} {got : List Byte}
    (position : reader.frame? = some (hd, got)) : hd.Valid ∧ got.length ≤ hd.length := by
  cases reader with
  | header => cases position
  | payload hd p =>
      cases position
      exact ⟨framed.1, framed.2.2.1⟩
  | data hd got =>
      cases position
      exact ⟨framed.1, framed.2.2.1⟩

/-- A DATA frame of the stream is being read. -/
theorem Framed.receiving {server : Bool} {high k : Nat} {reader : Reader} {got : List Byte}
    (framed : reader.Framed server high) (inside : reader.progress k = .receiving got) :
    ∃ hd, reader.frame? = some (hd, got) ∧ hd.kind = .data ∧ hd.id = k := by
  cases reader with
  | header => cases inside
  | payload hd p =>
      simp only [progress] at inside
      split at inside <;> cases inside
  | data hd got =>
      simp only [progress] at inside
      split at inside <;> cases inside
      next own => exact ⟨hd, rfl, framed.2.1, own⟩

end Reader

namespace Session

/-- The frame whose header has been read is the next one the peer emitted. -/
theorem feeds_next {emitted : List Frame} {b : Session}
    (feeds : Feeds emitted b.processed b.reader.pending) (valid : ∀ f ∈ emitted, f.Valid)
    (sound : b.Sound) {hd : Header} {got : List Byte}
    (position : b.reader.frame? = some (hd, got)) :
    ∃ f rest, emitted = b.processed ++ f :: rest ∧ f.header = hd ∧ got <+: f.payload := by
  rcases sound.framed.frame position with ⟨validHeader, short⟩
  rw [Reader.pending_frame position] at feeds
  exact feeds.next valid validHeader short

/-- The peer of a Rust session put its frames into the pipe in order. -/
theorem feeds_of_fifo {emitted : List Frame} {sent unsent flight : List Byte} {b : Session}
    (valid : ∀ f ∈ emitted, f.Valid) (spelled : encodeAll emitted = sent ++ unsent)
    (receiver : b.Wired) (fifo : sent = b.received ++ flight) :
    Feeds emitted b.processed b.reader.pending :=
  Feeds.of_fifo valid receiver.valid spelled receiver.received fifo

end Session

namespace Track

/-- The frames read for a stream come from those the peer sent for it. -/
structure Linked (out : List Frame) (b : Track) : Prop where
  frames : b.inn <+: out
  current : ∀ got, b.progress = .receiving got →
    ∃ f, f.kind = .data ∧ b.inn ++ [f] <+: out ∧ got <+: f.payload

theorem linked_of_feeds {emitted : List Frame} {b : Session}
    (feeds : Feeds emitted b.processed b.reader.pending) (valid : ∀ f ∈ emitted, f.Valid)
    (sound : b.Sound) (k : Nat) : Linked (emitted.filter (·.id = k)) (b.track k) := by
  refine ⟨feeds.own k, fun got inside => ?_⟩
  rcases sound.framed.receiving inside with ⟨hd, position, data, own⟩
  rcases Session.feeds_next feeds valid sound position with ⟨f, rest, split_, header, prefix_⟩
  have kind : f.kind = .data := (congrArg Header.kind header).trans data
  have id : f.id = k := (congrArg Header.id header).trans own
  subst id
  exact ⟨f, kind, Feeds.next_own split_, prefix_⟩

end Track

namespace Pair

section Runs

variable {okClient okServer : Session → Session.Action → Prop} {pair : Pair}
  (reached : machine.ReachableBy (Endpoint.bothSides okClient okServer) pair)
include reached

theorem client_reached : (Session.machine false).ReachableBy okClient pair.left :=
  Endpoint.join_left reached

theorem server_reached : (Session.machine true).ReachableBy okServer pair.right :=
  Endpoint.join_right reached

/-- Both directions of the transport carry frames in order. -/
theorem feeds : Feeds pair.left.emitted pair.right.processed pair.right.reader.pending ∧
    Feeds pair.right.emitted pair.left.processed pair.left.reader.pending := by
  have fifo := Endpoint.join_fifo (Session.endpoint_lawful false)
    (Session.endpoint_lawful true) reached.reachable
  have client := client_reached reached
  have server := server_reached reached
  have wiredClient := (Session.reachable_wired client).1
  have wiredServer := (Session.reachable_wired server).1
  exact ⟨Session.feeds_of_fifo (fun _ => Session.emitted_valid client) wiredClient.sent
      wiredServer fifo.1,
    Session.feeds_of_fifo (fun _ => Session.emitted_valid server) wiredServer.sent
      wiredClient fifo.2⟩

/-- Every stream is linked in both directions. -/
theorem linked (k : Nat) : Track.Linked (pair.left.track k).out (pair.right.track k) ∧
    Track.Linked (pair.right.track k).out (pair.left.track k) := by
  have client := client_reached reached
  have server := server_reached reached
  have both := feeds reached
  exact ⟨Track.linked_of_feeds both.1 (fun _ => Session.emitted_valid client)
      (Session.reachable_wired server).2 k,
    Track.linked_of_feeds both.2 (fun _ => Session.emitted_valid server)
      (Session.reachable_wired client).2 k⟩

end Runs

/-! ## Concrete runs -/

/-- Two new sessions of the default ranges that draw the least of every range. -/
def new : Pair :=
  ⟨Session.start false (Traffic.default.narrowed fun _ => 0) 0,
    Session.start true (Traffic.default.narrowed fun _ => 0) 0, [], []⟩

theorem start_new : machine.start new :=
  ⟨⟨_, _, _, Traffic.validate_default, rfl⟩, ⟨_, _, _, Traffic.validate_default, rfl⟩, rfl, rfl⟩

end Pair

/-- The target 127.0.0.1:80. -/
def Target.loopback : Target := ⟨[1, 127, 0, 0, 1, 0, 80], by decide⟩

namespace Session

/-- One batch is assembled, written in one piece of `n` bytes and flushed. -/
def writesOut (n : Nat) : List Action := [.batch ⟨0, 0, fun _ => 0⟩, .send n, .written none]

/-- One control frame is read and takes effect. -/
def readsIn (f : Frame) : List Action :=
  [.recv f.header.bytes, .check] ++ (if f.payload = [] then [] else [.recv f.payload]) ++
    [.dispatch 0]

/-- The client opens its first stream, and the server accepts and confirms it. -/
def opening : List (Action ⊕ Action) :=
  .inl (.reserve .loopback 0) :: ((writesOut 15).map .inl ++
    (readsIn ⟨.open, 1, Target.loopback.payload⟩).map .inr ++ [.inr .incoming, .inr (.accept 1)] ++
    (writesOut 8).map .inr ++ (readsIn ⟨.opened, 1, []⟩).map .inl)

end Session

end Veil.Rust

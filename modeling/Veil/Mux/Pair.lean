import Veil.Mux.Wire
import Veil.Mux.Feed

/-!
# A client and a server session

Two sessions joined by a pair of pipes.  What one has processed is an initial
part of what the other has emitted, so the track of a stream on one side is
linked to its track on the other: the frames read for it are an initial part of
the frames sent for it, and a DATA frame being read is the next of them.
-/

namespace Veil.Mux

open Veil.Lib

/-- The joint state of a client and a server session. -/
abbrev Pair := Endpoint.Joint Session Session Byte

namespace Pair

/-- A client session, on the left, and a server session, on the right. -/
def machine : Machine Pair (Session.Action ⊕ Session.Action) :=
  Endpoint.join (Session.endpoint false) (Session.endpoint true)

end Pair

namespace Session

/-- What one session has processed and is reading comes from what the other emitted. -/
def Follows (a b : Session) : Prop := ∃ rest flight, a.emitted = b.processed ++ rest ∧
  encodeAll rest = b.reader.pending ++ flight

theorem follows_of_wired {a b : Session} {flight : List Byte} (sender : a.Wired)
    (receiver : b.Wired) (valid : ∀ f ∈ a.emitted, f.Valid)
    (fifo : a.sent = b.received ++ flight) : Follows a b := by
  rcases sender.sent with ⟨lost, spelled, -⟩
  exact Feeds.of_fifo valid receiver.valid spelled receiver.received fifo

/-- The frame whose header has been read is the next one the peer emitted. -/
theorem Follows.next {a b : Session} (follows : Follows a b) (receiver : b.Wired)
    (valid : ∀ f ∈ a.emitted, f.Valid) {hd : Header} {got : List Byte}
    (position : b.reader.frame? = some (hd, got)) :
    ∃ f rest, a.emitted = b.processed ++ f :: rest ∧ f.header = hd ∧ got <+: f.payload := by
  rcases receiver.framed.valid position with ⟨validHeader, short⟩
  have feeds : Feeds a.emitted b.processed (hd.bytes ++ got) := by
    rw [← Reader.pending_eq position]
    exact follows
  exact feeds.next valid validHeader short

/-- A complete header is that of the next frame the peer emitted. -/
theorem Follows.header {a b : Session} (follows : Follows a b)
    (valid : ∀ f ∈ a.emitted, f.Valid) {h : List Byte} (position : b.reader = .header h)
    (size : h.length = headerSize) :
    ∃ f rest, a.emitted = b.processed ++ f :: rest ∧ readHeader h = some f.header := by
  have feeds : Feeds a.emitted b.processed h := by
    have same : b.reader.pending = h := by rw [position]; rfl
    rw [← same]
    exact follows
  exact feeds.header valid size

end Session

namespace Track

/-- The frames read on one side come from those sent on the other. -/
structure Linked (a b : Track) : Prop where
  id : a.id = b.id
  frames : b.inn <+: a.out
  current : b.progress.inData = true → ∃ f, f.kind = .data ∧ b.inn ++ [f] <+: a.out ∧
    b.progress.got <+: f.payload

/-- A frame that follows what has been read, on the tracks of its stream. -/
theorem next_of_emitted {a b : Session} {f : Frame} {rest : List Frame}
    (split_ : a.emitted = b.processed ++ f :: rest) :
    (b.track f.id).inn ++ [f] <+: (a.track f.id).out :=
  Feeds.next_own split_

theorem linked_of_follows {a b : Session} (follows : a.Follows b) (receiver : b.Wired)
    (valid : ∀ f ∈ a.emitted, f.Valid) (k : Nat) : Linked (a.track k) (b.track k) := by
  refine ⟨rfl, Feeds.own follows k, fun inside => ?_⟩
  rcases receiver.framed.data inside with ⟨hd, position, data, own⟩
  rcases follows.next receiver valid position with ⟨f, rest, split_, header, got⟩
  have kind : f.kind = .data := (congrArg Header.kind header).trans data
  have id : f.id = k := (congrArg Header.id header).trans own
  subst id
  exact ⟨f, kind, next_of_emitted split_, got⟩

end Track

namespace Pair

section Runs

variable {okClient okServer : Session → Session.Action → Prop} {pair : Pair}
  (reached : machine.ReachableBy (Endpoint.bothSides okClient okServer) pair)
include reached

theorem client_reached : (Session.machine false).ReachableBy okClient pair.left :=
  Endpoint.join_left reached

theorem server_reached : (Session.machine true).ReachableBy okServer pair.right :=
  Endpoint.join_right reached

/-- Both directions of the transport carry frames in order. -/
theorem follows : pair.left.Follows pair.right ∧ pair.right.Follows pair.left := by
  have fifo := Endpoint.join_fifo (Session.endpoint_lawful false)
    (Session.endpoint_lawful true) reached.reachable
  have client := client_reached reached
  have server := server_reached reached
  exact ⟨Session.follows_of_wired (Session.reachable_wired client)
      (Session.reachable_wired server) (fun _ => Session.emitted_valid client) fifo.1,
    Session.follows_of_wired (Session.reachable_wired server)
      (Session.reachable_wired client) (fun _ => Session.emitted_valid server) fifo.2⟩

/-- Every stream is linked in both directions. -/
theorem linked (k : Nat) : Track.Linked (pair.left.track k) (pair.right.track k) ∧
    Track.Linked (pair.right.track k) (pair.left.track k) := by
  have client := client_reached reached
  have server := server_reached reached
  have both := follows reached
  exact ⟨Track.linked_of_follows both.1 (Session.reachable_wired server)
      (fun _ => Session.emitted_valid client) k,
    Track.linked_of_follows both.2 (Session.reachable_wired client)
      (fun _ => Session.emitted_valid server) k⟩

end Runs

/-! ## Concrete runs -/

/-- Two new sessions of the default profile that draw the least of every range. -/
def new : Pair :=
  ⟨Session.new false (newShape .default fun _ => 0),
    Session.new true (newShape .default fun _ => 0), [], []⟩

theorem start_new : machine.start new :=
  ⟨⟨_, newShape_valid Profile.validate_default _, rfl⟩,
    ⟨_, newShape_valid Profile.validate_default _, rfl⟩, rfl, rfl⟩

end Pair

namespace Session

/-- One batch is assembled, written in one piece of `n` bytes and reported. -/
def writesOut (n : Nat) : List Action :=
  [.wakeUp, .batch ⟨0, 0, 0, 0, 0, 0, fun _ => 0⟩, .send n, .writeEnd none]

/-- One control frame is read and takes effect. -/
def readsIn (f : Frame) : List Action :=
  [.recv f.header.bytes none, .check] ++
    (if f.payload = [] then [] else [.recv f.payload none]) ++ [.dispatch 0]

/-- The client opens its first stream, and the server accepts and confirms it. -/
def opening : List (Action ⊕ Action) :=
  .inl (.open [7] 0) :: ((writesOut 9).map .inl ++ (readsIn ⟨.open, 1, [7]⟩).map .inr ++
    [.inr .accept, .inr (.respond 1 0)] ++ (writesOut 8).map .inr ++
    [.inr (.callReturn 1 .token)] ++ (readsIn ⟨.opened, 1, []⟩).map .inl)

end Session

end Veil.Mux

import Veil.Rust.Requests
import Veil.Rust.Pair
import Mathlib.Data.List.Perm.Subperm

/-!
# Which OPENs a server has room for

A client opens a stream only while fewer than eight of its streams are live.
The others have a RESET in front of the OPEN, or the server has told the client
of their end.  So a server that processes the OPEN has room for it, unless it
counts a stream whose DONE has left and whose batch it has not marked yet, or
keeps ended streams in the channel of its accept loop.
-/

namespace Veil.Rust

open Veil.Lib
open Veil.Mux (Byte Kind Header Frame Feeds headerSize blockSize maxStreams)

/-! ## The order of a client's requests -/

namespace Track

end Track

namespace Session

/-- Streams opened by some frames and not given up by them, whose end is not known. -/
structure Crowd (s : Session) (before : List Frame) (js : List Nat) : Prop where
  distinct : js.Nodup
  opened : ∀ j ∈ js, ∃ f ∈ before, f.kind = .open ∧ f.id = j
  kept : ∀ j ∈ js, ∀ f ∈ before, f.id = j → f.kind ≠ .reset
  untold : ∀ j ∈ js, ¬ (s.track j).Told

theorem Crowd.earlier {s s' : Session} {before : List Frame} {js : List Nat}
    (crowd : s'.Crowd before js) (told : ∀ j, (s.track j).Told → (s'.track j).Told) :
    s.Crowd before js :=
  ⟨crowd.distinct, crowd.opened, crowd.kept, fun j member known =>
    crowd.untold j member (told j known)⟩

theorem mem_requests {s : Session} {f : Frame} (asking : asks f = true)
    (member : f ∈ (s.track f.id).queue ∨ f ∈ (s.track f.id).out) : f ∈ s.requests := by
  rcases member with queued | sent
  · exact List.mem_append_right _ (List.mem_filter.mpr ⟨(List.mem_filter.mp queued).1, asking⟩)
  · exact List.mem_append_left _ (List.mem_filter.mpr ⟨(List.mem_filter.mp sent).1, asking⟩)

theorem speaks_of_requests {s : Session} {f : Frame} (member : f ∈ s.requests) :
    (s.track f.id).Speaks f.kind := by
  refine ⟨f, ?_, rfl⟩
  rcases List.mem_append.mp member with sent | queued
  · exact .inr (List.mem_filter.mpr ⟨(List.mem_filter.mp sent).1, by simp⟩)
  · exact .inl (List.mem_filter.mpr ⟨(List.mem_filter.mp queued).1, by simp⟩)

/-- The streams of a crowd behind all requests are live. -/
theorem Crowd.live {s : Session} {js : List Nat} (crowd : s.Crowd s.requests js)
    (closed : ∀ k, (s.track k).ClosedOk) (alive : s.failure = none) (running : s.ended = none) :
    ∀ j ∈ js, s.liveAt j = true := by
  intro j member
  rcases crowd.opened j member with ⟨f, asked_, kind, own⟩
  have spoken := speaks_of_requests asked_
  rw [own, kind] at spoken
  rcases (closed j).settled spoken with live | failed | stopped | told | ⟨g, said, reset⟩
  · exact live
  · exact (failed alive).elim
  · simp [track, running] at stopped
  · exact (crowd.untold j member told).elim
  · have id : g.id = j := by
      rcases said with queued | sent
      · simpa using (List.mem_filter.mp queued).2
      · simpa using (List.mem_filter.mp sent).2
    have listed : g ∈ s.requests :=
      mem_requests (by simp [asks, reset]) (by rw [id]; exact said)
    exact (crowd.kept j member g listed id reset).elim

/-- `Stream::drop` of a live stream finds room for its RESET. -/
def roomy (s : Session) (action : Action) : Prop := ¬ s.crowds action

section Reached

variable {okClient okServer : Session → Action → Prop} {s : Session}

end Reached

end Session

namespace Pair

end Pair

end Veil.Rust

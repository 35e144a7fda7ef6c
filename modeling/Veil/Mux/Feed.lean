import Veil.Mux.Frame

/-!
# The frames from one session to its peer

The bytes a session has read spell frames its peer has emitted, and part of the
next one.  This holds for any two implementations on a reliable transport: what
each has to show is that its bytes spell its frames.
-/

namespace Veil.Mux

open Veil.Lib

/-- The frames processed, and the bytes read of the next one, come from those emitted. -/
def Feeds (emitted processed : List Frame) (pending : List Byte) : Prop :=
  ∃ rest flight, emitted = processed ++ rest ∧ encodeAll rest = pending ++ flight

namespace Feeds

variable {emitted processed : List Frame} {pending : List Byte}

theorem of_fifo {sent unsent received flight : List Byte}
    (valid : ∀ f ∈ emitted, f.Valid) (accepted : ∀ f ∈ processed, f.Valid)
    (spelled : encodeAll emitted = sent ++ unsent)
    (read : received = encodeAll processed ++ pending)
    (fifo : sent = received ++ flight) : Feeds emitted processed pending := by
  have all : encodeAll emitted = encodeAll processed ++ (pending ++ (flight ++ unsent)) := by
    rw [spelled, fifo, read]
    simp only [List.append_assoc]
  rcases frames_selfDelimiting.split_words accepted valid all with ⟨rest, split_, words⟩
  exact ⟨rest, _, split_, words.symm⟩

/-- The frames processed are the first of those emitted. -/
theorem isPrefix (feeds : Feeds emitted processed pending) : processed <+: emitted := by
  rcases feeds with ⟨rest, -, split_, -⟩
  exact ⟨rest, split_.symm⟩

/-- The frame whose header has been read is the next one the peer emitted. -/
theorem next {hd : Header} {got : List Byte} (feeds : Feeds emitted processed (hd.bytes ++ got))
    (valid : ∀ f ∈ emitted, f.Valid) (validHeader : hd.Valid) (short : got.length ≤ hd.length) :
    ∃ f rest, emitted = processed ++ f :: rest ∧ f.header = hd ∧ got <+: f.payload := by
  rcases feeds with ⟨rest, flight, split_, words⟩
  cases rest with
  | nil =>
      have empty := congrArg List.length words
      simp [headerSize] at empty
      omega
  | cons f rest =>
      have validFrame : f.Valid := valid f (by simp [split_])
      simp only [encodeAll, List.flatMap_cons, Frame.bytes, List.append_assoc] at words
      have same : f.header = hd := by
        have bytes := List.append_inj_left words (by simp)
        have decoded := congrArg readHeader bytes
        rw [readHeader_bytes validFrame, readHeader_bytes validHeader] at decoded
        exact Option.some.inj decoded
      refine ⟨f, rest, split_, same, ?_⟩
      have payload := List.append_inj_right words (by simp)
      have size : f.payload.length = hd.length := congrArg Header.length same
      have split_ := congrArg (List.take got.length) payload
      rw [List.take_append_of_le_length (by omega), List.take_left] at split_
      rw [← split_]
      exact List.take_prefix _ _

/-- A complete header is that of the next frame the peer emitted. -/
theorem header {h : List Byte} (feeds : Feeds emitted processed h)
    (valid : ∀ f ∈ emitted, f.Valid) (size : h.length = headerSize) :
    ∃ f rest, emitted = processed ++ f :: rest ∧ readHeader h = some f.header := by
  rcases feeds with ⟨rest, flight, split_, words⟩
  cases rest with
  | nil =>
      have empty := congrArg List.length words
      simp [size, headerSize] at empty
      omega
  | cons f rest =>
      have validFrame : f.Valid := valid f (by simp [split_])
      simp only [encodeAll, List.flatMap_cons, Frame.bytes, List.append_assoc] at words
      have same : f.header.bytes = h := List.append_inj_left words (by simp [size])
      exact ⟨f, rest, split_, by rw [← same, readHeader_bytes validFrame]⟩

/-- Restricted to one stream, the frame being read is the next of those emitted. -/
theorem next_own {f : Frame} {rest : List Frame} (split_ : emitted = processed ++ f :: rest) :
    processed.filter (·.id = f.id) ++ [f] <+: emitted.filter (·.id = f.id) := by
  refine ⟨rest.filter (·.id = f.id), ?_⟩
  simp [split_, List.filter_append]

theorem own (feeds : Feeds emitted processed pending) (k : Nat) :
    processed.filter (·.id = k) <+: emitted.filter (·.id = k) := by
  rcases feeds.isPrefix with ⟨rest, rfl⟩
  refine ⟨rest.filter (·.id = k), ?_⟩
  simp [List.filter_append]

end Feeds

end Veil.Mux

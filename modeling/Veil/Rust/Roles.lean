import Veil.Rust.Invariant

/-!
# How a stream ends on either side

A client's stream that is no longer live has heard of its end from the server,
or has a RESET queued or sent, or its session is finished.  A server's stream
that is live has heard nothing of an end and has sent none, but for a DONE whose
batch has not been marked yet.
-/

namespace Veil.Rust

open Veil.Lib
open Veil.Mux (Byte Kind Header Frame)

/-- The kinds of frames a side queues. -/
def queues : Bool → Kind → Bool
  | false, kind => kind == .open || kind == .reset || kind == .credit
  | true, kind =>
      kind == .opened || kind == .failed || kind == .finished || kind == .reset ||
        kind == .credit

/-- The kinds of frames a side sends. -/
def sends (server : Bool) (kind : Kind) : Bool := queues server kind || kind == .data || kind == .fin

namespace Track

/-- A side queues and sends the frames of its role, and only a server marks a DONE. -/
structure RoleOk (t : Track) : Prop where
  queued : ∀ f ∈ t.queue, queues t.server f.kind = true
  sent : ∀ f ∈ t.out, sends t.server f.kind = true
  marks : t.server = false → ∀ x ∈ t.touched, x.done = false

theorem all_append {α : Type} {P : α → Prop} {xs : List α} {x : α} (old : ∀ y ∈ xs, P y)
    (new : P x) : ∀ y ∈ xs ++ [x], P y := by
  intro y member
  rcases List.mem_append.mp member with before | last
  · exact old y before
  · rw [List.mem_singleton.mp last]
    exact new

theorem controlTouch_kind {c : Frame} {x : Touched} (member : x ∈ Session.controlTouch c) :
    c.kind = .finished := by
  unfold Session.controlTouch at member
  split at member
  · next finished => exact finished
  · cases member

theorem roleOk_move {event : Event} {t t' : Track} (move : Move event t t') (held : t.RoleOk) :
    t'.RoleOk := by
  rcases held with ⟨queued, sent, marks⟩
  cases move with
  | fail => exact ⟨by simp, sent, marks⟩
  | stop | refused | pass | arrive | arriveLost | acceptFull | rejectFull | dropFull | dropQuiet
  | read | grantFull | overflow | write | shutdown | control | ignore | opened | failed | fin
  | reset | finished | credit | check | checkDead | publish | complete | publishDead
  | completeDead | cut | expireFull => exact ⟨queued, sent, marks⟩
  | reserve p creditAt client => exact ⟨all_append queued (by simp [client, queues]), sent, marks⟩
  | refuse p server | accept here unfailed server | reject code here server
  | finish here unfailed server => exact ⟨all_append queued (by simp [server, queues]), sent, marks⟩
  | drop | expire | grant =>
      exact ⟨all_append queued (by cases t.server <;> rfl), sent, marks⟩
  | merge n here unfailed due split_ kind =>
      refine ⟨fun f member => ?_, sent, marks⟩
      rw [split_] at queued
      rcases List.mem_append.mp member with old | later
      · exact queued f (List.mem_append_left _ old)
      · rcases List.mem_cons.mp later with rfl | old
        · rw [show (mergeCredit _ _).kind = .credit from kind]
          cases t.server <;> rfl
        · exact queued f (by simp [old])
  | @emitControl t c rest alive running split_ =>
      rw [split_] at queued
      have own := queued c (by simp)
      refine ⟨fun f member => queued f (List.mem_cons_of_mem _ member),
        all_append sent (by simp [sends, own]), fun client x member => ?_⟩
      rcases List.mem_append.mp member with old | new
      · exact marks client x old
      · rw [controlTouch_kind new, client] at own
        cases own
  | emitData | emitFin =>
      refine ⟨queued, all_append sent (by simp [sends]), fun client => ?_⟩
      exact all_append (marks client) rfl
  | mark => exact ⟨queued, sent, by simp⟩

/-! ## The client -/

/-- The server has told the client that the stream has ended. -/
def Told (t : Track) : Prop :=
  ∃ f ∈ t.inn, f.kind = .failed ∨ f.kind = .reset ∨ f.kind = .finished

/-- Some frame of the given kind is queued or sent. -/
def Speaks (t : Track) (kind : Kind) : Prop := ∃ f, (f ∈ t.queue ∨ f ∈ t.out) ∧ f.kind = kind

/-- The stream is live, or its end is known to both sides, or it never leaves. -/
def Settled (t : Track) : Prop :=
  t.live = true ∨ t.failure ≠ none ∨ t.stopped = true ∨ t.Told ∨ t.Speaks .reset

structure ClosedOk (t : Track) : Prop where
  client : t.server = false
  role : t.RoleOk
  settled : t.Speaks .open → t.Settled

theorem Speaks.append {t t' : Track} {kind : Kind} (spoken : t.Speaks kind) {f : Frame}
    (queue : t'.queue = t.queue ++ [f]) (out : t'.out = t.out) : t'.Speaks kind := by
  rcases spoken with ⟨g, member, own⟩
  refine ⟨g, ?_, own⟩
  rw [queue, out]
  exact member.imp (List.mem_append_left _) fun sent => sent

/-- A frame of another kind has been queued. -/
theorem Speaks.before {t t' : Track} {kind : Kind} (spoken : t'.Speaks kind) {f : Frame}
    (other : f.kind ≠ kind) (queue : t'.queue = t.queue ++ [f]) (out : t'.out = t.out) :
    t.Speaks kind := by
  rcases spoken with ⟨g, member, own⟩
  refine ⟨g, ?_, own⟩
  rw [queue, out] at member
  rcases member with queued | sent
  · rcases List.mem_append.mp queued with old | new
    · exact .inl old
    · cases List.mem_singleton.mp new
      exact (other own).elim
  · exact .inr sent

theorem Speaks.queued {t : Track} {f : Frame} {queue : List Frame} {kind : Kind}
    (split_ : t.queue = queue ++ [f]) (own : f.kind = kind) : t.Speaks kind :=
  ⟨f, .inl (by simp [split_]), own⟩

/-- A stream that has ended stays settled, whatever is said. -/
theorem Settled.keep {t t' : Track} (settled : t.Settled) (live : t.live = true → t'.live = true)
    (failure : t.failure ≠ none → t'.failure ≠ none)
    (stopped : t.stopped = true → t'.stopped = true) (inn : ∀ f ∈ t.inn, f ∈ t'.inn)
    (speaks : t.Speaks .reset → t'.Speaks .reset) : t'.Settled := by
  rcases settled with alive | failed | ended | ⟨f, member, kind⟩ | spoken
  · exact .inl (live alive)
  · exact .inr (.inl (failure failed))
  · exact .inr (.inr (.inl (stopped ended)))
  · exact .inr (.inr (.inr (.inl ⟨f, inn f member, kind⟩)))
  · exact .inr (.inr (.inr (.inr (speaks spoken))))

theorem live_of_slot {t : Track} {st : Slot} (here : t.slot = some st) : t.live = st.live := by
  rw [Track.live, here]
  rfl

/-- A live stream of a server has been opened, and has neither heard nor sent its end. -/
structure Holding (t : Track) : Prop where
  opened : t.stopped = false → ∃ f ∈ t.inn, f.kind = .open
  heard : ∀ f ∈ t.inn, f.kind ≠ .reset
  queued : ∀ f ∈ t.queue, f.kind ≠ .failed ∧ f.kind ≠ .reset
  sent : ∀ f ∈ t.out, f.kind ≠ .failed ∧ f.kind ≠ .reset
  marks : (∃ f ∈ t.out, f.kind = .finished) → ∃ x ∈ t.touched, x.done = true

theorem Holding.keep {t t' : Track} (held : t.Holding)
    (stopped : t'.stopped = false → t.stopped = false) (inn : t'.inn = t.inn)
    (queue : t'.queue = t.queue) (out : t'.out = t.out) (touched : t'.touched = t.touched) :
    t'.Holding := by
  rcases held with ⟨opened, heard, queued, sent, marks⟩
  refine ⟨?_, ?_, ?_, ?_, ?_⟩
  · rw [inn]
    exact fun running => opened (stopped running)
  · rw [inn]
    exact heard
  · rw [queue]
    exact queued
  · rw [out]
    exact sent
  · rw [out, touched]
    exact marks

end Track

end Veil.Rust

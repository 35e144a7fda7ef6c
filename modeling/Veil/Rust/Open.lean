import Veil.Rust.Client
import Veil.Rust.Requests

/-!
# What a call of `open` does to other callers

A call of `open` leaves every stream of another caller as it is, in a session
that stays in the pool and does not fail, except in two cases.  The first
`retain` drops a session whose identifiers are used up although streams of it
are live, and a call that gives up its own stream without room for the RESET
fails the session.
-/

namespace Veil.Rust

open Veil.Lib
open Veil.Mux (Kind Frame maxStreams)

namespace Track

/-- A stream comes to life only when it is opened. -/
theorem live_move {event : Event} {t t' : Track} (move : Move event t t')
    (live : t'.live = true) :
    t.live = true ∨ (t.above = true ∧ (t.server = true ∨ t.failure = none)) := by
  cases move with
  | reserve p creditAt client new alive => exact .inr ⟨new, .inr alive⟩
  | arrive p creditAt server new | arriveLost creditAt server new => exact .inr ⟨new, .inl server⟩
  | fail e =>
      cases here : t.slot with
      | none => simp [Track.live, here] at live
      | some st => simp [Track.live, here, st.fail_dead e] at live
  | drop | dropFull | dropQuiet => cases live
  | reject | rejectFull | failed | reset | expire | expireFull =>
      cases (Slot.fail_dead _ _).symm.trans live
  | finished => cases live
  | mark =>
      left
      cases here : t.slot with
      | none => simp [Track.live, here] at live
      | some st =>
          simp only [Track.live, here, Option.map_some, Option.any_some] at live
          exact (live_of_slot here).trans ((st.marked_same t.touched).live live)
  | stop | refused | pass | refuse | finish | control | ignore | checkDead | publishDead
  | completeDead | cut | emitControl => exact .inl live
  | accept here | acceptFull here | read _ here | grant _ here | merge _ here
  | grantFull _ here | overflow _ here | write _ here | shutdown here | opened _ _ _ here
  | fin _ _ _ here | credit _ _ _ here | check _ here | publish _ _ here | complete _ _ here
  | emitData _ _ _ here | emitFin _ _ here => exact .inl ((live_of_slot here).trans live)

/-- In a failed session of a client, no stream is live. -/
def FailedOk (t : Track) : Prop := t.server = false ∧ (t.failure ≠ none → t.live = false)

theorem failedOk_move {event : Event} {t t' : Track} (move : Move event t t')
    (held : t.FailedOk) : t'.FailedOk := by
  refine ⟨by cases move <;> exact held.1, fun failed => ?_⟩
  by_contra live
  rw [Bool.not_eq_false] at live
  by_cases before : t.failure = none
  · cases move with
    | fail e =>
        cases here : t.slot with
        | none => simp [Track.live, here] at live
        | some st => simp [Track.live, here, st.fail_dead e] at live
    | _ => exact failed before
  · rcases live_move move live with alive | ⟨-, server | unfailed⟩
    · cases (held.2 before).symm.trans alive
    · cases held.1.symm.trans server
    · exact before unfailed

end Track

namespace Session

section Reached

variable {s s' : Session} {action : Action} (reached : (machine false).Reachable s)
  (taken : s.step action = some s')
include reached

theorem failed_dead (failed : s.failure ≠ none) (k : Nat) : s.liveAt k = false := by
  have held := reachable_track reached (A := fun _ => True) (P := Track.FailedOk)
    (fun _ _ _ _ _ => trivial)
    (fun t fresh client => ⟨client, fun failed => (failed fresh.failure).elim⟩)
    (fun _ _ _ _ move held => Track.failedOk_move move held) k
  exact held.2 failed

include taken

/-- Only `reserve` brings a stream of a client to life. -/
theorem dead_step (other : ∀ target draw, action ≠ .reserve target draw) {k : Nat}
    (dead : s.liveAt k = false) : s'.liveAt k = false := by
  have sound := (reachable_wired reached).2
  have high := (step_asks sound taken).2.2 (reachable_server reached) other
  by_cases passed : (s.track k).above = false
  · have moved := (step_moves sound taken k).invariant
      (P := fun t => t.above = false ∧ t.live = false) ?_ ⟨passed, dead⟩
    · exact moved.2
    · intro event t t' _ move held
      refine ⟨Track.above_move move held.1, ?_⟩
      by_contra live
      rw [Bool.not_eq_false] at live
      rcases Track.live_move move live with alive | ⟨new, -⟩
      · cases held.2.symm.trans alive
      · cases held.1.symm.trans new
  · have after : (machine false).Reachable s' := .step reached trivial taken
    have above : (s'.track k).above = true := by
      rw [track_above, high, ← track_above]
      simpa using passed
    have blank := (reachable_placed after k).blank above
    show (s'.track k).live = false
    rw [Track.live, blank.slot]
    rfl

/-- A session that is failed or exhausted stays so. -/
theorem spent_step (spent : s.snapshot.2 = true) : s'.snapshot.2 = true := by
  have sound := (reachable_wired reached).2
  simp only [snapshot, Bool.or_eq_true, decide_eq_true_eq, Option.isSome_iff_ne_none] at spent ⊢
  refine spent.imp (fun failed => ?_) fun used => ?_
  · exact (step_moves sound taken 0).invariant (P := fun t => t.failure ≠ none)
      (fun _ _ _ _ move => Track.failure_move move) failed
  · refine (track_above_false s' lastID).mp ?_
    exact (step_moves sound taken lastID).invariant (P := fun t => t.above = false)
      (fun _ _ _ _ move => Track.above_move move) ((track_above_false s lastID).mpr used)

end Reached

/-- A count of zero says that no stream is live. -/
theorem active_eq_zero {s : Session} (keyed : s.Keyed) :
    s.active = 0 ↔ ∀ k, s.liveAt k = false := by
  rw [active, List.countP_eq_zero]
  constructor
  · intro none_ k
    by_cases known : k ∈ s.ids
    · simpa using none_ k known
    · have missing : s.slots k = none := by
        by_contra here
        exact known ((keyed.keys k).mpr (Option.isSome_iff_ne_none.mpr here))
      rw [liveAt, missing]
      rfl
  · intro dead k _
    simp [dead k]

/-- `reserve` leaves the streams there are as they are. -/
theorem reserve_others {s : Session} (sound : s.Sound) (target : Target) (draw : Nat) {k : Nat}
    (here : s.slots k ≠ none) :
    (s.reserve target draw).1.slots k = s.slots k ∧
      (s.reserve target draw).1.failure = s.failure := by
  have old : k ≠ s.nextID := by
    have known := (sound.keyed.keys k).mpr (Option.isSome_iff_ne_none.mpr here)
    have below := sound.keyed.below k known
    have next := (s.nextID_facts sound.odd).2
    omega
  unfold reserve
  split
  · exact ⟨rfl, rfl⟩
  split
  · exact ⟨rfl, rfl⟩
  rcases control_plain s .open (by simp) s.nextID target.payload with
    ⟨-, outcome⟩ | ⟨-, outcome⟩ <;> rw [outcome]
  · exact ⟨rfl, rfl⟩
  · exact ⟨if_neg old, rfl⟩

/-- Dropping a stream leaves the others as they are. -/
theorem drop_others {s s' : Session} {k j : Nat} (taken : s.drop k = some s') (other : j ≠ k) :
    s'.slots j = s.slots j ∧ s'.failure = s.failure := by
  have removed : (s.remove k).slots j = s.slots j := if_neg other
  unfold drop at taken
  split at taken
  · cases taken
  split at taken
  · rcases control_plain (s.remove k) .reset (by simp) k [] with
      ⟨-, outcome⟩ | ⟨-, outcome⟩ <;> rw [outcome] at taken <;> cases taken
    · exact ⟨removed, rfl⟩
    · exact ⟨removed, rfl⟩
  · cases taken
    exact ⟨removed, rfl⟩

end Session

end Veil.Rust

import Veil.Rust.Track
import Mathlib.Data.List.Nodup

/-!
# A step of a Rust session moves every track

The refinement between the session machine and the moves of single streams:
whatever action a session takes, the track of each stream goes through moves.
-/

namespace Veil.Rust

open Veil.Lib
open Veil.Mux (Byte Kind Header Frame readHeader encodeAll blockSize headerSize maxStreams)

/-- What the read loop holds of the frame it is at, with all that its check showed. -/
def Reader.Framed (server : Bool) (high : Nat) : Reader → Prop
  | .header h => h.length ≤ headerSize
  | .payload hd p => hd.Valid ∧ hd.kind ≠ .data ∧ p.length ≤ hd.length ∧
      (hd.kind = .open → server = true) ∧ (hd.kind ≠ .open → hd.id ≤ high)
  | .data hd got => hd.Valid ∧ hd.kind = .data ∧ got.length ≤ hd.length ∧ hd.id ≤ high

namespace Session

/-! ## The control queue -/

/-- Where `coalesce` finds a queued CREDIT of the stream, and what it makes of it. -/
theorem coalesce_cases (id : Nat) (p : List Byte) (controls : List Frame) :
    (coalesce id p controls = none ∧ ∀ c ∈ controls, c.id = id → c.kind ≠ .credit) ∨
    ∃ before c after, controls = before ++ c :: after ∧ c.kind = .credit ∧ c.id = id ∧
      ((window < u16Add c.amount (fromBigEndian p) ∧
          coalesce id p controls = some (.error .invalidData)) ∨
        (u16Add c.amount (fromBigEndian p) ≤ window ∧
          coalesce id p controls =
            some (.ok (before ++ mergeCredit c (fromBigEndian p) :: after)))) := by
  induction controls with
  | nil => exact .inl ⟨rfl, by simp⟩
  | cons head rest induction =>
      rw [coalesce]
      by_cases found : head.kind = .credit ∧ head.id = id
      · refine .inr ⟨[], head, rest, rfl, found.1, found.2, ?_⟩
        rw [if_pos found]
        by_cases past : window < u16Add head.amount (fromBigEndian p)
        · exact .inl ⟨past, if_pos past⟩
        · exact .inr ⟨not_lt.mp past, if_neg past⟩
      · rw [if_neg found]
        rcases induction with ⟨missing, others⟩ | ⟨before, c, after, rfl, kind, same, outcome⟩
        · refine .inl ⟨by rw [missing, Option.map_none], ?_⟩
          intro c member sameId
          rcases List.mem_cons.mp member with rfl | member
          · exact fun kind => found ⟨kind, sameId⟩
          · exact others c member sameId
        · refine .inr ⟨head :: before, c, after, rfl, kind, same, ?_⟩
          rcases outcome with ⟨past, merged⟩ | ⟨fits, merged⟩
          · exact .inl ⟨past, by rw [merged]; rfl⟩
          · exact .inr ⟨fits, by rw [merged]; rfl⟩

/-- A frame has been appended to the control queue. -/
def queued (s : Session) (f : Frame) : Session := { s with controls := s.controls ++ [f] }

/-- A control frame has been refused. -/
def refusing (s : Session) : Session := { s with full := true }

/-- What `control` does with any frame but CREDIT. -/
theorem control_plain (s : Session) (kind : Kind) (plain : kind ≠ .credit) (id : Nat)
    (p : List Byte) :
    (maxControls ≤ s.controls.length ∧ s.control kind id p = (s.refusing, some .other)) ∨
    (s.controls.length < maxControls ∧
      s.control kind id p = (s.queued ⟨kind, id, p⟩, none)) := by
  by_cases full : maxControls ≤ s.controls.length
  · exact .inl ⟨full, by simp [control, plain, full, refusing]⟩
  · exact .inr ⟨not_le.mp full, by simp [control, plain, full, queued]⟩

/-- What `control` does with a CREDIT. -/
theorem control_credit (s : Session) (id : Nat) (p : List Byte) :
    (s.control .credit id p = (s.refusing, some .other)) ∨
    ((∀ c ∈ s.controls, c.id = id → c.kind ≠ .credit) ∧
      s.control .credit id p = (s.queued ⟨.credit, id, p⟩, none)) ∨
    ∃ before c after, s.controls = before ++ c :: after ∧ c.kind = .credit ∧ c.id = id ∧
      ((window < u16Add c.amount (fromBigEndian p) ∧
          s.control .credit id p = (s, some .invalidData)) ∨
        (u16Add c.amount (fromBigEndian p) ≤ window ∧
          s.control .credit id p =
            ({ s with controls := before ++ mergeCredit c (fromBigEndian p) :: after },
              none))) := by
  rcases coalesce_cases id p s.controls with
    ⟨missing, others⟩ | ⟨before, c, after, split_, kind, same, outcome⟩
  · by_cases full : maxControls ≤ s.controls.length
    · exact .inl (by simp [control, missing, full, refusing])
    · exact .inr (.inl ⟨others, by simp [control, missing, full, queued]⟩)
  · refine .inr (.inr ⟨before, c, after, split_, kind, same, ?_⟩)
    rcases outcome with ⟨past, merged⟩ | ⟨fits, merged⟩
    · exact .inl ⟨past, by simp [control, merged]⟩
    · exact .inr ⟨fits, by simp [control, merged]⟩

/-! ## Tracks under the basic updates -/

theorem blt_self (n : Nat) : n.blt n = false := by
  cases holds : n.blt n with
  | false => rfl
  | true => simp at holds

section Updates

variable (s : Session) {k j : Nat}

@[simp]
theorem track_refusing : s.refusing.track k = { s.track k with full := true } := rfl

theorem track_progress : (s.track k).progress = s.reader.progress k := rfl

theorem track_finishTask (e : ErrorKind) :
    (s.finishTask e).track k = { s.track k with stopped := true } := rfl

theorem track_reading (r : Reader) :
    (s.reading r).track k = { s.track k with progress := r.progress k } := rfl

@[simp]
theorem track_took (bs : List Byte) : (s.took bs).track k = s.track k := rfl

theorem track_accepted_self (f : Frame) : (s.accepted f).track f.id =
    { s.track f.id with inn := (s.track f.id).inn ++ [f], progress := .away } := by
  simp [track, accepted]

theorem track_accepted_other (f : Frame) (different : f.id ≠ k)
    (away : s.reader.progress k = .away) : (s.accepted f).track k = s.track k := by
  simp [track, accepted, different, away]

@[simp]
theorem track_offer (id : Nat) : (s.offer id).track k = s.track k := rfl

theorem track_raise (id : Nat) :
    (s.raise id).track k = { s.track k with above := id.blt k } := rfl

theorem track_raise_self : (s.raise k).track k = { s.track k with above := false } := by
  simp [track, raise, blt_self]

theorem track_set_self (st : Slot) : (s.set k st).track k = { s.track k with slot := some st } := by
  simp [track, set]

theorem track_set_other (st : Slot) (different : k ≠ j) : (s.set j st).track k = s.track k := by
  simp [track, set, different]

theorem track_insert_self (st : Slot) :
    (s.insert k st).track k = { s.track k with slot := some st } := by
  simp [track, insert, set]

theorem track_insert_other (st : Slot) (different : k ≠ j) :
    (s.insert j st).track k = s.track k := by
  simp [track, insert, set, different]

theorem track_remove_self : (s.remove k).track k = { s.track k with slot := none } := by
  simp [track, remove]

theorem track_remove_other (different : k ≠ j) : (s.remove j).track k = s.track k := by
  simp [track, remove, different]

theorem track_queued_self (f : Frame) (same : f.id = k) :
    (s.queued f).track k = { s.track k with queue := (s.track k).queue ++ [f] } := by
  simp [track, queued, same]

theorem track_queued_other (f : Frame) (different : f.id ≠ k) :
    (s.queued f).track k = s.track k := by
  simp [track, queued, different]

theorem track_push_self (f : Frame) (touch : List Touched) (same : f.id = k)
    (own : ∀ t ∈ touch, t.id = k) :
    (s.push f touch).track k = { s.track k with
      out := (s.track k).out ++ [f], touched := (s.track k).touched ++ touch } := by
  have all : touch.filter (fun t => decide (t.id = k)) = touch :=
    List.filter_eq_self.mpr fun t member => decide_eq_true (own t member)
  simp [track, push, same, all]

theorem track_push_other (f : Frame) (touch : List Touched) (different : f.id ≠ k)
    (own : ∀ t ∈ touch, t.id = f.id) : (s.push f touch).track k = s.track k := by
  have none_ : touch.filter (fun t => decide (t.id = k)) = [] :=
    List.filter_eq_nil_iff.mpr fun t member => by simp [own t member, different]
  simp [track, push, different, none_]

end Updates

theorem track_fail (s : Session) (e : ErrorKind) (alive : s.failure = none) (k : Nat) :
    (s.fail e).track k = { s.track k with
      failure := some e, slot := (s.track k).slot.map (·.fail e), queue := [] } := by
  simp [fail, alive, track]

theorem track_above (s : Session) (k : Nat) : (s.track k).above = true ↔ s.high < k := by
  simp [track]

theorem track_above_false (s : Session) (k : Nat) : (s.track k).above = false ↔ k ≤ s.high := by
  rw [← Bool.not_eq_true, track_above, not_lt]

/-! ## Which moves an action may bring about -/

/-- A stream is dropped while it is live, and there is no room for its RESET. -/
def crowds (s : Session) (action : Action) : Prop :=
  ∃ k, (action = .drop k ∨ action = .dropIncoming ∧ s.incoming.head? = some k) ∧
    s.liveAt k = true ∧ s.failure = none ∧ maxControls ≤ s.controls.length

/-- Draining some stream makes a CREDIT that exceeds the window with a queued one. -/
def overflows (s : Session) : Prop :=
  ∃ k st n, s.slots k = some st ∧ st.check = none ∧ (st.drained n).due ∧
    ∃ c ∈ s.controls, c.id = k ∧ c.kind = .credit ∧
      window < u16Add c.amount ((st.drained n).creditFrame k).amount

/-- The events an action may bring about. -/
def Occurs (s : Session) (action : Action) : Event → Prop
  | .plain => True
  | .dropFull => s.crowds action
  | .overflow => s.overflows

/-! ## Calls -/

section Calls

variable {A : Event → Prop} (plain : A .plain)
include plain

/-- Queueing or refusing a frame does little to the track of another stream. -/
theorem control_other (s : Session) (kind : Kind) {id k : Nat} (p : List Byte)
    (different : id ≠ k) : Track.Moves A (s.track k) ((s.control kind id p).1.track k) := by
  by_cases credit : kind = .credit
  · subst credit
    rcases control_credit s id p with outcome | ⟨-, outcome⟩ |
      ⟨before, c, after, split_, -, same, ⟨-, outcome⟩ | ⟨-, outcome⟩⟩ <;> rw [outcome]
    · exact .one plain .refused
    · rw [track_queued_other s _ different]
      exact .refl _
    · exact .refl _
    · have kept : s.track k = Session.track { s with
          controls := before ++ mergeCredit c (fromBigEndian p) :: after } k := by
        have away : c.id ≠ k := same ▸ different
        simp [track, split_, mergeCredit, away]
      rw [← kept]
      exact .refl _
  · rcases control_plain s kind credit id p with ⟨-, outcome⟩ | ⟨-, outcome⟩ <;> rw [outcome]
    · exact .one plain .refused
    · rw [track_queued_other s _ different]
      exact .refl _

/-- Raising `high` only ends the time before the first frame of an identifier. -/
theorem raise_moves {t : Track} {old new k : Nat} (above : t.above = old.blt k)
    (raised : old ≤ new) : Track.Moves A t { t with above := new.blt k } := by
  by_cases same : old.blt k = new.blt k
  · rw [← same, ← above]
    exact .refl _
  · have passed : new.blt k = false := by
      by_contra reached
      have reached : new < k := by simpa using reached
      have was : old < k := lt_of_le_of_lt raised reached
      exact same (by simp [Nat.blt_eq.mpr, was, reached])
    rw [passed]
    exact .one plain .pass

/-- `reserve` opens one stream and passes the others, or is refused. -/
theorem reserve_moves (s : Session) (target : Target) (draw : Nat)
    (odd : s.high = 0 ∨ s.high % 2 = 1) (valid : s.traffic.Valid) (k : Nat) :
    Track.Moves A (s.track k) ((s.reserve target draw).1.track k) := by
  rw [reserve]
  split
  · exact .refl _
  next role =>
  split
  · exact .refl _
  next room =>
  simp only [Bool.or_eq_true, not_or, Bool.not_eq_true, Option.isSome_eq_false_iff,
    Option.isNone_iff_eq_none] at role
  simp only [not_or, not_le] at room
  have next_ : s.nextID % 2 = 1 ∧ s.nextID < 2 ^ 32 ∧ s.high < s.nextID := by
    have bound := room.2
    simp only [lastID] at bound
    simp only [nextID]
    split <;> omega
  rcases control_plain s .open (by simp) s.nextID target.payload with
    ⟨-, outcome⟩ | ⟨-, outcome⟩ <;> rw [outcome]
  · exact .one plain .refused
  · by_cases same : k = s.nextID
    · subst same
      have above : (s.track s.nextID).above = true := (s.track_above _).mpr next_.2.2
      have short := target.sized
      have opened := Track.Move.reserve (t := s.track s.nextID) target.payload
        (s.traffic.creditBlocks.choose draw) role.1 above role.2 ⟨next_.1, next_.2.1⟩
        ⟨short.1, by omega⟩ (valid.credit_mem draw).1
      rw [track_insert_self, track_raise_self, track_queued_self _ _ rfl]
      exact .one plain opened
    · have other : ((s.queued ⟨.open, s.nextID, target.payload⟩).track k) = s.track k :=
        track_queued_other s _ (Ne.symm same)
      rw [track_insert_other _ _ same]
      have passed : Track.Moves A (s.track k) { s.track k with above := s.nextID.blt k } :=
        raise_moves plain rfl next_.2.2.le
      rw [track_raise, other]
      exact passed

/-- Everything `accept` can do. -/
theorem accept_moves {s s' : Session} {k : Nat} {e : Option ErrorKind}
    (taken : s.accept k = some (s', e)) (j : Nat) :
    Track.Moves A (s.track j) (s'.track j) := by
  unfold accept at taken
  split at taken
  · cases taken
  next st here =>
  split at taken
  · cases taken
    exact .refl _
  next unfailed =>
  split at taken
  · cases taken
    exact .refl _
  next role =>
  simp only [Bool.or_eq_true, Bool.not_eq_true', not_or, Bool.not_eq_false,
    Bool.not_eq_true] at role
  have result : s' = ((s.set k { st with opened := true }).control .opened k []).1 :=
    congrArg Prod.fst (Option.some.inj taken).symm
  subst result
  by_cases same : j = k
  · subst same
    rcases control_plain (s.set j { st with opened := true }) .opened (by simp) j []
      with ⟨-, outcome⟩ | ⟨-, outcome⟩ <;> rw [outcome]
    · rw [track_refusing, track_set_self]
      exact .one plain (.acceptFull here unfailed role.1 role.2)
    · rw [track_queued_self _ _ rfl, track_set_self]
      exact .one plain (.accept here unfailed role.1 role.2)
  · rw [← track_set_other s { st with opened := true } same]
    exact control_other plain _ _ _ (Ne.symm same)

/-- Everything `reject` can do. -/
theorem reject_moves {s s' : Session} {k : Nat} {code : Byte} {e : Option ErrorKind}
    (taken : s.reject k code = some (s', e)) (j : Nat) :
    Track.Moves A (s.track j) (s'.track j) := by
  unfold reject at taken
  split at taken
  · cases taken
  next st here =>
  split at taken
  · cases taken
    exact .refl _
  next role =>
  simp only [Bool.or_eq_true, Bool.not_eq_true', not_or, Bool.not_eq_false,
    Bool.not_eq_true] at role
  have result : s' = ((s.set k (st.fail .connectionRefused)).control .failed k [code]).1 :=
    congrArg Prod.fst (Option.some.inj taken).symm
  subst result
  by_cases same : j = k
  · subst same
    rcases control_plain (s.set j (st.fail .connectionRefused)) .failed (by simp) j
      [code] with ⟨-, outcome⟩ | ⟨-, outcome⟩ <;> rw [outcome]
    · rw [track_refusing, track_set_self]
      exact .one plain (.rejectFull here role.1 role.2)
    · rw [track_queued_self _ _ rfl, track_set_self]
      exact .one plain (.reject code here role.1 role.2)
  · rw [← track_set_other s (st.fail .connectionRefused) same]
    exact control_other plain _ _ _ (Ne.symm same)

/-- Everything `finish` can do. -/
theorem finish_moves {s s' : Session} {k : Nat} {e : Option ErrorKind}
    (taken : s.finish k = some (s', e)) (j : Nat) :
    Track.Moves A (s.track j) (s'.track j) := by
  unfold finish at taken
  split at taken
  · cases taken
  next st here =>
  split at taken
  · next server =>
    split at taken
    · cases taken
      exact .refl _
    next unfailed =>
    split at taken
    · cases taken
      exact .refl _
    next ready =>
    simp only [Bool.or_eq_true, Bool.not_eq_true', not_or, Bool.not_eq_false,
      List.isEmpty_iff] at ready
    have result : s' = (s.control .finished k []).1 :=
      congrArg Prod.fst (Option.some.inj taken).symm
    subst result
    by_cases same : j = k
    · subst same
      rcases control_plain s .finished (by simp) j [] with
        ⟨-, outcome⟩ | ⟨-, outcome⟩ <;> rw [outcome]
      · exact .one plain .refused
      · rw [track_queued_self _ _ rfl]
        exact .one plain (.finish here unfailed server ready.1.1 ready.1.2 ready.2)
    · exact control_other plain _ _ _ (Ne.symm same)
  · cases taken
    exact .refl _

/-- Everything `drop` can do. -/
theorem drop_moves {s s' : Session} {k : Nat}
    (crowded : s.liveAt k = true → s.failure = none → maxControls ≤ s.controls.length →
      A .dropFull) (taken : s.drop k = some s') (j : Nat) :
    Track.Moves A (s.track j) (s'.track j) := by
  unfold drop at taken
  split at taken
  · cases taken
  next st here =>
  split at taken
  · next state =>
    rw [Bool.and_eq_true, Option.isNone_iff_eq_none] at state
    have live : s.liveAt k = true := by rw [liveAt, here, Option.any_some, state.1]
    rcases control_plain (s.remove k) .reset (by simp) k [] with
      ⟨full, outcome⟩ | ⟨-, outcome⟩ <;> rw [outcome] at taken <;> cases taken
    · have fine := crowded live state.2 full
      by_cases same : j = k
      · subst same
        have moved : Track.Move .dropFull (s.track j) ((s.remove j).refusing.track j) := by
          rw [track_refusing, track_remove_self]
          exact .dropFull here state.1 state.2
        exact .one fine moved
      · have moved : Track.Move .plain (s.track j) ((s.remove k).refusing.track j) := by
          rw [track_refusing, track_remove_other s same]
          exact .refused
        exact .one plain moved
    · by_cases same : j = k
      · subst same
        rw [track_queued_self _ _ rfl, track_remove_self]
        exact .one plain (.drop here state.1 state.2)
      · rw [track_queued_other _ _ (Ne.symm same), track_remove_other s same]
        exact .refl _
  · next state =>
    cases taken
    by_cases same : j = k
    · subst same
      rw [track_remove_self]
      refine .one plain (.dropQuiet here ?_)
      rw [Bool.and_eq_true, not_and_or, Bool.not_eq_true, Option.isNone_iff_eq_none] at state
      exact state
    · rw [track_remove_other s same]
      exact .refl _

/-- Everything `pollWrite` can do. -/
theorem pollWrite_moves {s s' : Session} {k : Nat} {buf : List Byte}
    {result : Except ErrorKind (Option Nat)} (taken : s.pollWrite k buf = some (s', result))
    (j : Nat) : Track.Moves A (s.track j) (s'.track j) := by
  unfold pollWrite at taken
  split at taken
  · cases taken
  next st here =>
  split at taken
  · cases taken
    exact .refl _
  next unfailed =>
  split at taken
  · cases taken
    exact .refl _
  next state =>
  split at taken
  · cases taken
    exact .refl _
  simp only at taken
  split at taken
  · cases taken
    exact .refl _
  cases taken
  by_cases same : j = k
  · subst same
    simp only [Bool.or_eq_true, Bool.not_eq_true', not_or, Bool.not_eq_false,
      Bool.not_eq_true] at state
    rw [track_set_self]
    have room : min (min buf.length (sendBuffer - st.queued)) (batchBytes - 32) ≤ buf.length :=
      (min_le_left _ _).trans (min_le_left _ _)
    have moved := Track.Move.write (t := s.track j)
      (buf.take (min (min buf.length (sendBuffer - st.queued)) (batchBytes - 32)))
      here unfailed state.1 state.2
    rw [List.length_take_of_le room] at moved
    exact .one plain moved
  · rw [track_set_other s _ same]
    exact .refl _

/-- Everything `pollShutdown` can do. -/
theorem pollShutdown_moves {s s' : Session} {k : Nat} {result : Except ErrorKind Bool}
    (taken : s.pollShutdown k = some (s', result)) (j : Nat) :
    Track.Moves A (s.track j) (s'.track j) := by
  unfold pollShutdown at taken
  split at taken
  · cases taken
  next st here =>
  split at taken
  · cases taken
    exact .refl _
  next unfailed =>
  cases taken
  by_cases same : j = k
  · subst same
    rw [track_set_self]
    exact .one plain (.shutdown here unfailed)
  · rw [track_set_other s _ same]
    exact .refl _

/-- `Inner::fail` moves every track once, or none. -/
theorem fail_moves (s : Session) (e : ErrorKind) (k : Nat) :
    Track.Moves A (s.track k) ((s.fail e).track k) := by
  cases failed : s.failure with
  | some cause =>
      rw [fail, failed]
      exact .refl _
  | none =>
      rw [track_fail s e failed]
      exact .one plain (.fail e failed)

/-- Everything `pollRead` can do. -/
theorem pollRead_moves {s s' : Session} {k n : Nat} {result : Poll}
    (past : s.overflows → A .overflow) (taken : s.pollRead k n = some (s', result)) (j : Nat) :
    Track.Moves A (s.track j) (s'.track j) := by
  unfold pollRead at taken
  split at taken
  · cases taken
  next st here =>
  split at taken
  · cases taken
    exact .refl _
  split at taken
  · cases taken
    exact .refl _
  next unfailed =>
  rcases drained : drain st.input n [] st.consumed with ⟨input, out, consumed⟩
  have slot : st.drained n = { st with input := input, consumed := consumed } := by
    rw [Slot.drained, drained]
  rw [drained] at taken
  simp only [grant] at taken
  by_cases due : st.creditAt ≤ consumed ∧ 0 < consumed
  · simp only [due.1, if_true, due.2] at taken
    have granted : (st.drained n).granted = { st with
        input := input, consumed := 0, recvCredit := u16Add st.recvCredit consumed } := by
      rw [slot, Slot.granted]
    have frame : (st.drained n).creditFrame k = ⟨.credit, k, bigEndian 2 consumed⟩ := by
      rw [slot, Slot.creditFrame]
    have ready : (st.drained n).due := by
      rw [slot]
      exact due
    rw [← granted] at taken
    have result : s' = ((s.set k (st.drained n).granted).control .credit k
        (bigEndian 2 consumed)).1 := by
      split at taken <;> next outcome =>
        cases taken
        rw [outcome]
    subst result
    by_cases same : j = k
    · subst same
      rcases control_credit (s.set j (st.drained n).granted) j (bigEndian 2 consumed) with
        outcome | ⟨others, outcome⟩ | ⟨before, c, after, queue, kind, own, outcome⟩
      · rw [outcome, track_refusing, track_set_self]
        exact .one plain (.grantFull n here unfailed ready)
      · rw [outcome, track_queued_self _ _ rfl, track_set_self, ← frame]
        refine .one plain (.grant n here unfailed ready fun c member => ?_)
        have found := List.mem_filter.mp member
        exact others c found.1 (of_decide_eq_true found.2)
      · have controls : s.controls = before ++ c :: after := queue
        have inTrack : c ∈ (s.track j).queue :=
          List.mem_filter.mpr ⟨by simp [controls], decide_eq_true own⟩
        rcases outcome with ⟨past_, outcome⟩ | ⟨fits, outcome⟩ <;> rw [outcome]
        · rw [track_set_self]
          have above_ : window < u16Add c.amount ((st.drained n).creditFrame j).amount := by
            rw [frame]
            exact past_
          have event := past ⟨j, st, n, here, unfailed, ready, c, by simp [controls], own,
            kind, above_⟩
          exact .one event (.overflow n here unfailed ready inTrack kind above_)
        · have amount : ((st.drained n).creditFrame (s.track j).id).amount =
              fromBigEndian (bigEndian 2 consumed) := congrArg Frame.amount frame
          have merged := @Track.Move.merge (s.track j) st (before.filter (·.id = j))
            (after.filter (·.id = j)) c n here unfailed ready
            (by simp [track, controls, own]) kind (amount ▸ fits)
          rw [amount] at merged
          refine .one plain ?_
          have after_ : Session.track { s.set j (st.drained n).granted with
              controls := before ++ mergeCredit c (fromBigEndian (bigEndian 2 consumed)) ::
                after } j = { s.track j with
              slot := some (st.drained n).granted
              queue := before.filter (·.id = j) ++
                mergeCredit c (fromBigEndian (bigEndian 2 consumed)) ::
                  after.filter (·.id = j) } := by
            simp [track, set, mergeCredit, own]
          rw [after_]
          exact merged
    · rw [← track_set_other s (st.drained n).granted same]
      exact control_other plain _ _ _ (Ne.symm same)
  · have amount : (if st.creditAt ≤ consumed then consumed else 0) = 0 := by
      split <;> omega
    have left : (if st.creditAt ≤ consumed then 0 else consumed) = consumed := by
      split <;> omega
    simp only [amount, left, Nat.lt_irrefl, if_false] at taken
    cases taken
    have settled : (st.drained n).settled = { st with
        input := input, consumed := consumed, recvCredit := u16Add st.recvCredit 0 } := by
      rw [slot, Slot.settled]
    rw [← settled]
    by_cases same : j = k
    · subst same
      rw [track_set_self]
      exact .one plain (.read n here unfailed)
    · rw [track_set_other s _ same]
      exact .refl _

end Calls

/-! ## The read loop -/

theorem allows_old {s : Session} {hd : Header} (other : hd.kind ≠ .open)
    (allowed : s.allows hd = true) : hd.id ≤ s.high := by
  simpa [allows, other] using allowed

theorem allows_open {s : Session} {hd : Header} (open_ : hd.kind = .open)
    (allowed : s.allows hd = true) : s.server = true ∧ s.high < hd.id := by
  simpa [allows, open_] using allowed

/-- A stream that a frame finds no live slot for. -/
theorem dead_of_filter {s : Session} {k : Nat}
    (missing : (s.slots k).filter Slot.live = none) : (s.track k).live = false := by
  rw [Option.filter_eq_none_iff] at missing
  cases found : s.slots k with
  | none => simp [Track.live, track, found]
  | some st => simpa [Track.live, track, found] using missing st found

/-- What `publish` does: nothing, or it appends to the last block of a live stream. -/
theorem publish_cases (s : Session) (k : Nat) (bs : List Byte) (complete : Bool) :
    ((s.track k).live = false ∧ s.publish k bs complete = (s, none)) ∨
    ∃ st, s.slots k = some st ∧ st.live = true ∧
      ((st.input = [] ∧ s.publish k bs complete = (s, some .invalidData)) ∨
        ∃ c, st.input.getLast? = some c ∧
          s.publish k bs complete = (s.set k (st.published c bs complete), none)) := by
  cases found : (s.slots k).filter Slot.live with
  | none =>
      exact .inl ⟨dead_of_filter found, by rw [publish, found]⟩
  | some st =>
      right
      have here := Option.filter_eq_some_iff.mp found
      refine ⟨st, here.1, here.2, ?_⟩
      cases last : st.input.getLast? with
      | none =>
          refine .inl ⟨List.getLast?_eq_none_iff.mp last, ?_⟩
          simp [publish, found, last]
      | some c => exact .inr ⟨c, rfl, by simp [publish, found, last, Slot.published]⟩

/-- What an accepted control frame does to the live slot it is for. -/
theorem deliver_moves {s : Session} {hd : Header} {p : List Byte} {st : Slot}
    (at_ : (s.track hd.id).progress = .control) (here : s.slots hd.id = some st)
    (live : st.live = true) :
    match s.deliver st hd.kind p with
    | .error _ => True
    | .ok st' => Track.Move .plain (s.track hd.id) { s.track hd.id with
        slot := some st', inn := (s.track hd.id).inn ++ [⟨hd.kind, hd.id, p⟩]
        progress := .away } := by
  cases kind : hd.kind <;> simp only [deliver]
  case opened =>
    split_ifs with legal
    · rw [Bool.and_eq_true, Bool.not_eq_true', Bool.not_eq_true'] at legal
      exact .opened _ rfl at_ here live legal.1 legal.2
    · trivial
  case failed =>
    split_ifs with legal
    · rw [Bool.and_eq_true, Bool.not_eq_true', Bool.not_eq_true'] at legal
      exact .failed _ rfl _ at_ here live legal.1 legal.2
    · trivial
  case fin =>
    split_ifs with legal
    · rw [Bool.and_eq_true, Bool.not_eq_true'] at legal
      exact .fin _ rfl at_ here live legal.1 legal.2
    · trivial
  case reset => exact .reset _ rfl at_ here live
  case finished =>
    split_ifs with legal
    · rw [Bool.and_eq_true, Bool.and_eq_true, Bool.not_eq_true'] at legal
      exact .finished _ rfl at_ here live legal.1.1 legal.1.2 legal.2
    · trivial
  case credit =>
    split_ifs with past
    · trivial
    · rw [not_or, not_lt] at past
      exact .credit ⟨.credit, hd.id, p⟩ rfl at_ here live past.1 past.2

/-- Everything an OPEN can do. -/
theorem takeEffect_open (s : Session) {hd : Header} (open_ : hd.kind = .open) (p : List Byte)
    (draw : Nat) :
    s.takeEffect hd p draw = ((s.raise hd.id).refusing, some .other) ∨
    s.takeEffect hd p draw = ((s.raise hd.id).queued ⟨.failed, hd.id, [1]⟩, none) ∨
    s.takeEffect hd p draw = ((s.raise hd.id).insert hd.id
      (Slot.new (s.traffic.creditBlocks.choose draw)), some .connectionAborted) ∨
    s.takeEffect hd p draw = (((s.raise hd.id).insert hd.id
      (Slot.new (s.traffic.creditBlocks.choose draw))).offer hd.id, none) := by
  rw [takeEffect, if_pos open_]
  by_cases refuses : (s.raise hd.id).refuses = true
  · simp only [refuses, if_true]
    rcases control_plain (s.raise hd.id) .failed (by simp) hd.id [1] with
      ⟨-, outcome⟩ | ⟨-, outcome⟩
    · exact .inl outcome
    · exact .inr (.inl outcome)
  · simp only [refuses, Bool.false_eq_true, if_false, enroll]
    split_ifs
    · exact .inr (.inr (.inl rfl))
    · exact .inr (.inr (.inr rfl))

section Reading

variable {A : Event → Prop} (plain : A .plain)
include plain

theorem checkHeader_moves {s s' : Session} {h : List Byte} {hd : Header}
    (at_ : s.reader = .header h) (taken : s.checkHeader hd = some s') (k : Nat) :
    Track.Moves A (s.track k) (s'.track k) := by
  have away : (s.track k).progress = .away := by simp [track, at_, Reader.progress]
  unfold checkHeader at taken
  split at taken
  · next valid =>
    split at taken
    · next data =>
      have old := allows_old (by simp [data]) valid
      split at taken
      · next st found =>
        rw [Option.filter_eq_some_iff] at found
        split at taken
        · cases taken
        next legal =>
        simp only [Bool.or_eq_true, Bool.not_eq_true', beq_iff_eq, not_or, Bool.not_eq_false,
          Bool.not_eq_true] at legal
        cases taken
        by_cases same : k = hd.id
        · subst same
          have moved := Track.Move.check away found.1 found.2 legal.1.1 legal.1.2
            (Nat.pos_of_ne_zero legal.2)
          rw [track_reading, track_set_self, Reader.progress_data_self]
          exact .one plain moved
        · rw [track_reading, track_set_other s _ same, Reader.progress_data_other (Ne.symm same),
            ← away]
          exact .refl _
      · next missing =>
        cases taken
        by_cases same : k = hd.id
        · subst same
          have moved := Track.Move.checkDead away (dead_of_filter missing) ((s.track_above_false hd.id).mpr old)
          rw [track_reading, Reader.progress_data_self]
          exact .one plain moved
        · rw [track_reading, Reader.progress_data_other (Ne.symm same), ← away]
          exact .refl _
    · next control =>
      cases taken
      by_cases same : k = hd.id ∧ hd.kind ≠ .open
      · rcases same with ⟨rfl, other⟩
        have old := allows_old other valid
        have moved := Track.Move.control away ((s.track_above_false hd.id).mpr old)
        rw [track_reading, Reader.progress_payload_self other]
        exact .one plain moved
      · rw [track_reading, Reader.progress_payload_other
          (fun both => same ⟨both.1.symm, both.2⟩), ← away]
        exact .refl _
  · cases taken

theorem check_moves {s s' : Session} (taken : s.check = some s') (k : Nat) :
    Track.Moves A (s.track k) (s'.track k) := by
  unfold check at taken
  split at taken
  · next h at_ =>
    split at taken
    · cases taken
    split at taken
    · cases taken
      exact .one plain .stop
    · next checked =>
      cases taken
      rcases Option.bind_eq_some_iff.mp checked with ⟨hd, -, passed⟩
      exact checkHeader_moves plain at_ passed k
  · cases taken

/-- The read loop takes bytes of a DATA payload. -/
theorem recvData_moves {s : Session} {hd : Header} {got : List Byte}
    (at_ : s.reader = .data hd got) (bs : List Byte) (k : Nat) :
    Track.Moves A (s.track k) ((s.recvData hd got bs).track k) := by
  unfold recvData
  by_cases same : hd.id = k
  · subst same
    have here_ : (s.track hd.id).progress = .receiving got := by
      rw [track_progress, at_, Reader.progress_data_self]
    rcases publish_cases s hd.id bs ((got ++ bs).length == hd.length) with
      ⟨dead, outcome⟩ | ⟨st, here, live, ⟨empty, outcome⟩ | ⟨c, last, outcome⟩⟩ <;>
      rw [outcome] <;> simp only
    · split_ifs with complete
      · rw [track_accepted_self]
        exact .one plain (.completeDead bs here_ dead)
      · rw [track_reading, Reader.progress_data_self]
        exact .one plain (.publishDead bs here_ dead)
    · rw [track_finishTask, track_reading, Reader.progress_data_self]
      exact .one plain (.cut bs here_ here live empty)
    · split_ifs with complete
      · rw [track_accepted_self, track_set_self, beq_iff_eq.mpr complete]
        exact .one plain (.complete bs here_ here live last)
      · rw [track_reading, track_set_self, Reader.progress_data_self,
          beq_eq_false_iff_ne.mpr complete]
        exact .one plain (.publish bs here_ here live last)
  · have away : s.reader.progress k = .away := by rw [at_, Reader.progress_data_other same]
    rcases publish_cases s hd.id bs ((got ++ bs).length == hd.length) with
      ⟨-, outcome⟩ | ⟨st, -, -, ⟨-, outcome⟩ | ⟨c, -, outcome⟩⟩ <;>
      rw [outcome] <;> simp only
    · split_ifs
      · rw [track_accepted_other s _ same away]
        exact .refl _
      · rw [track_reading, Reader.progress_data_other same, ← away]
        exact .refl _
    · rw [track_finishTask, track_reading, Reader.progress_data_other same, ← away]
      exact .one plain .stop
    · split_ifs
      · rw [track_accepted_other (s.set hd.id _) ⟨.data, hd.id, got ++ bs⟩ same away,
          track_set_other s _ (Ne.symm same)]
        exact .refl _
      · rw [track_reading, track_set_other s _ (Ne.symm same), Reader.progress_data_other same,
          ← away]
        exact .refl _

theorem recv_moves {s s' : Session} {bs : List Byte} (taken : s.recv bs = some s') (k : Nat) :
    Track.Moves A (s.track k) (s'.track k) := by
  unfold recv at taken
  split at taken
  · cases taken
  split at taken
  · next h at_ =>
    split at taken <;> cases taken
    have away : s.reader.progress k = .away := by rw [at_, Reader.progress_header]
    rw [track_reading, track_took, Reader.progress_header, ← away]
    exact .refl _
  · next hd p at_ =>
    split at taken <;> cases taken
    have kept : (Reader.payload hd (p ++ bs)).progress k = s.reader.progress k := by
      rw [at_]
      rfl
    rw [track_reading, track_took, kept]
    exact .refl _
  · next hd got at_ =>
    split at taken <;> cases taken
    exact recvData_moves (s := s.took bs) plain at_ bs k

theorem recvError_moves {s s' : Session} {e : Option ErrorKind}
    (taken : s.recvError e = some s') (k : Nat) :
    Track.Moves A (s.track k) (s'.track k) := by
  unfold recvError at taken
  split at taken <;> cases taken
  exact .one plain .stop

/-- An OPEN is refused, admitted or lost; the other streams see `high` rise. -/
theorem open_moves {s s' : Session} {hd : Header} {p : List Byte} {draw : Nat}
    (open_ : hd.kind = .open) (framed : (Reader.payload hd p).Framed s.server s.high)
    (new : s.high < hd.id) (at_ : s.reader = .payload hd p) (valid : s.traffic.Valid)
    (taken : s.dispatch draw = some s') (k : Nat) :
    Track.Moves A (s.track k) (s'.track k) := by
  rcases framed with ⟨validHeader, -, -, direction, -⟩
  have server := direction open_
  have oddId : hd.id % 2 = 1 ∧ hd.id < 2 ^ 32 := ⟨validHeader.1, validHeader.2.1⟩
  have away : ∀ j, s.reader.progress j = .away := by
    intro j
    rw [at_, Reader.progress_payload_other (fun both => both.2 open_)]
  have above : (s.track hd.id).above = true := (s.track_above _).mpr new
  have positive := (valid.credit_mem draw).1
  have raised : Track.Moves A (s.track k) ((s.raise hd.id).track k) :=
    raise_moves plain rfl new.le
  simp only [dispatch, at_] at taken
  split at taken
  · cases taken
  rcases takeEffect_open s open_ p draw with outcome | outcome | outcome | outcome <;>
    rw [outcome] at taken <;> simp only [Option.some.injEq] at taken <;> subst taken
  · rw [track_finishTask, track_refusing]
    exact raised.trans (.trans (.one plain .refused) (.one plain .stop))
  · rw [open_]
    by_cases same : hd.id = k
    · subst same
      rw [track_accepted_self _ ⟨.open, hd.id, p⟩, track_queued_self _ _ rfl, track_raise_self,
        ← away hd.id]
      exact .one plain (.refuse p server above oddId)
    · rw [track_accepted_other ((s.raise hd.id).queued _) ⟨.open, hd.id, p⟩ same (away k),
        track_queued_other _ _ same]
      exact raised
  · rw [track_finishTask]
    by_cases same : hd.id = k
    · subst same
      rw [track_insert_self, track_raise_self]
      exact .one plain (.arriveLost _ server above oddId positive)
    · rw [track_insert_other _ _ (Ne.symm same)]
      exact raised.trans (.one plain .stop)
  · rw [open_]
    by_cases same : hd.id = k
    · subst same
      rw [track_accepted_self _ ⟨.open, hd.id, p⟩, track_offer, track_insert_self,
        track_raise_self, ← away hd.id]
      exact .one plain (.arrive p _ server above oddId positive)
    · rw [track_accepted_other (((s.raise hd.id).insert hd.id _).offer hd.id)
          ⟨.open, hd.id, p⟩ same (away k),
        track_offer, track_insert_other _ _ (Ne.symm same)]
      exact raised

theorem dispatch_moves {s s' : Session} {draw : Nat}
    (framed : s.reader.Framed s.server s.high)
    (fresh : ∀ hd p, s.reader = .payload hd p → hd.kind = .open → s.high < hd.id)
    (valid : s.traffic.Valid) (taken : s.dispatch draw = some s') (k : Nat) :
    Track.Moves A (s.track k) (s'.track k) := by
  cases at_ : s.reader with
  | header h => simp [dispatch, at_] at taken
  | data hd got => simp [dispatch, at_] at taken
  | payload hd p =>
      rw [at_] at framed
      by_cases open_ : hd.kind = .open
      · exact open_moves plain open_ framed (fresh hd p at_ open_) at_ valid taken k
      simp only [dispatch, at_, takeEffect, if_neg open_] at taken
      split at taken
      · cases taken
      have other : ∀ s₁ : Session, s₁.reader = s.reader → ¬ hd.id = k →
          s₁.track k = s.track k → (s₁.accepted ⟨hd.kind, hd.id, p⟩).track k = s.track k := by
        intro s₁ reader different same
        rw [track_accepted_other s₁ ⟨hd.kind, hd.id, p⟩ different, same]
        rw [reader, at_, Reader.progress_payload_other fun both => different both.1]
      have at_control : (s.track hd.id).progress = .control := by
        rw [track_progress, at_, Reader.progress_payload_self open_]
      cases found : (s.slots hd.id).filter Slot.live with
      | none =>
          rw [found] at taken
          cases taken
          by_cases same : hd.id = k
          · subst same
            rw [track_accepted_self _ ⟨hd.kind, hd.id, p⟩]
            exact .one plain (.ignore _ at_control (dead_of_filter found) ⟨open_, framed.2.1⟩)
          · rw [other s rfl same rfl]
            exact .refl _
      | some st =>
          rcases Option.filter_eq_some_iff.mp found with ⟨here, live⟩
          rw [found] at taken
          have moved := deliver_moves (p := p) at_control here live
          cases delivered : s.deliver st hd.kind p with
          | error e =>
              simp only [delivered] at taken
              cases taken
              exact .one plain .stop
          | ok st' =>
              simp only [delivered] at taken moved
              cases taken
              by_cases same : hd.id = k
              · subst same
                rw [track_accepted_self _ ⟨hd.kind, hd.id, p⟩, track_set_self]
                exact .one plain moved
              · rw [other (s.set hd.id st') rfl same (track_set_other s st' (Ne.symm same))]
                exact .refl _

end Reading

/-! ## The writer -/

/-- What assembling a batch leaves alone, and what it adds to the batch. -/
structure Writes (s s' : Session) : Prop where
  server : s'.server = s.server
  traffic : s'.traffic = s.traffic
  ids : s'.ids = s.ids
  high : s'.high = s.high
  failure : s'.failure = s.failure
  incoming : s'.incoming = s.incoming
  failing : s'.failing = s.failing
  reader : s'.reader = s.reader
  writing : s'.writing = s.writing
  ended : s'.ended = s.ended
  full : s'.full = s.full
  processed : s'.processed = s.processed
  received : s'.received = s.received
  sent : s'.sent = s.sent
  keys : ∀ k, (s'.slots k).isSome = (s.slots k).isSome
  frames : ∃ frames touch, s'.emitted = s.emitted ++ frames ∧
    s'.out = s.out ++ encodeAll frames ∧ s'.touched = s.touched ++ touch ∧
    (frames = [] → touch = [])

namespace Writes

theorem refl (s : Session) : Writes s s := by
  refine ⟨rfl, rfl, rfl, rfl, rfl, rfl, rfl, rfl, rfl, rfl, rfl, rfl, rfl, rfl, fun _ => rfl,
    [], [], ?_, ?_, ?_, fun _ => rfl⟩ <;> simp

theorem trans {s s' s'' : Session} (first : Writes s s') (second : Writes s' s'') :
    Writes s s'' where
  server := second.server.trans first.server
  traffic := second.traffic.trans first.traffic
  ids := second.ids.trans first.ids
  high := second.high.trans first.high
  failure := second.failure.trans first.failure
  incoming := second.incoming.trans first.incoming
  failing := second.failing.trans first.failing
  reader := second.reader.trans first.reader
  writing := second.writing.trans first.writing
  ended := second.ended.trans first.ended
  full := second.full.trans first.full
  processed := second.processed.trans first.processed
  received := second.received.trans first.received
  sent := second.sent.trans first.sent
  keys k := (second.keys k).trans (first.keys k)
  frames := by
    rcases first.frames with ⟨early, touch, emitted, out, touched, empty⟩
    rcases second.frames with ⟨late, touch', emitted', out', touched', empty'⟩
    refine ⟨early ++ late, touch ++ touch', ?_, ?_, ?_, fun none_ => ?_⟩
    · rw [emitted', emitted, List.append_assoc]
    · rw [out', out, Mux.encodeAll_append, List.append_assoc]
    · rw [touched', touched, List.append_assoc]
    · rcases List.append_eq_nil_iff.mp none_ with ⟨noEarly, noLate⟩
      rw [empty noEarly, empty' noLate, List.append_nil]

theorem leave (s : Session) (controls : List Frame) : Writes s (s.leave controls) :=
  { refl s with }

theorem served (s : Session) (k : Nat) : Writes s (s.served k) :=
  { refl s with }

theorem set (s : Session) {k : Nat} {st : Slot} (here : s.slots k = some st) (st' : Slot) :
    Writes s (s.set k st') :=
  { refl s with
    keys := by
      intro j
      by_cases same : j = k
      · subst same
        simp [Session.set, here]
      · simp [Session.set, same] }

theorem push (s : Session) (f : Frame) (touch : List Touched) : Writes s (s.push f touch) :=
  { refl s with
    frames := ⟨[f], touch, rfl, by rw [Mux.encodeAll_singleton]; rfl, rfl, by simp⟩ }

end Writes

/-- A stream that may go into a batch. -/
structure Sends (s : Session) (k : Nat) : Prop where
  alive : s.failure = none
  running : s.ended = none
  slot : ∃ st, s.slots k = some st ∧ st.live = true ∧ st.opened = true

/-- The slots with the marks of a batch. -/
def marking (s : Session) (touched : List Touched) : Session :=
  { s with slots := fun k => (s.slots k).map fun st => st.marked (touched.filter (·.id = k)) }

theorem mark_slots (s : Session) (t : Touched) (k : Nat) :
    (s.mark t).slots k = (s.slots k).map fun st => if t.id = k then st.flushed t else st := by
  unfold mark
  split
  · next missing =>
    by_cases same : t.id = k
    · rw [← same, missing]
      rfl
    · simp [same]
  · next st here =>
    by_cases same : t.id = k
    · subst same
      simp [set, here]
    · simp [set, same, Ne.symm same]

theorem mark_marking (s : Session) (t : Touched) (rest : List Touched) :
    (s.mark t).marking rest = s.marking (t :: rest) := by
  have slots : ((s.mark t).marking rest).slots = (s.marking (t :: rest)).slots := by
    funext k
    simp only [marking, mark_slots, Option.map_map]
    cases s.slots k with
    | none => rfl
    | some st => by_cases same : t.id = k <;> simp [same, Slot.marked]
  have others : (s.mark t).marking rest = { s.marking (t :: rest) with
      slots := ((s.mark t).marking rest).slots } := by
    unfold mark
    split <;> rfl
  rw [others, slots]

/-- Marking changes the slots only, each by its own marks. -/
theorem foldl_mark (touched : List Touched) (s : Session) :
    touched.foldl mark s = s.marking touched := by
  induction touched generalizing s with
  | nil => simp [marking, Slot.marked]
  | cons t rest induction => rw [List.foldl_cons, induction, mark_marking]

section Writing

variable {A : Event → Prop} (plain : A .plain)
include plain

theorem takeControls_moves (limit lead : Nat) (controls : List Frame) {s : Session}
    (queue : s.controls = controls) (alive : s.failure = none) (running : s.ended = none) :
    Writes s (takeControls limit lead controls s) ∧
      ∀ k, Track.Moves A (s.track k) ((takeControls limit lead controls s).track k) := by
  induction controls generalizing s with
  | nil =>
      refine ⟨.leave s [], fun k => ?_⟩
      have same : (s.leave []).track k = s.track k := by simp [track, leave, queue]
      rw [takeControls, same]
      exact .refl _
  | cons c rest induction =>
      have written : Writes s ((s.leave rest).push c (controlTouch c)) :=
        (Writes.leave s rest).trans (.push _ c _)
      have own : ∀ t ∈ controlTouch c, t.id = c.id := by
        intro t member
        unfold controlTouch at member
        split at member <;> simp_all
      have moved : ∀ k, Track.Moves A (s.track k)
          (((s.leave rest).push c (controlTouch c)).track k) := by
        intro k
        by_cases same : c.id = k
        · subst same
          rw [track_push_self _ c _ rfl own]
          refine .one plain (.emitControl alive (by simp [track, running]) ?_)
          simp [track, queue, leave]
        · have kept : (s.leave rest).track k = s.track k := by
            simp [track, queue, leave, same]
          rw [track_push_other _ c _ same own, kept]
          exact .refl _
      simp only [takeControls]
      split_ifs
      · exact ⟨written, moved⟩
      · have later := induction (s := (s.leave rest).push c (controlTouch c)) rfl alive running
        exact ⟨written.trans later.1, fun k => (moved k).trans (later.2 k)⟩

theorem emitData_moves {s : Session} {k n : Nat} {st : Slot} {p : List Byte}
    {rest : List (List Byte)} (alive : s.failure = none) (running : s.ended = none)
    (here : s.slots k = some st) (live : st.live = true) (opened : st.opened = true)
    (pending : st.output = p :: rest) (some_ : 0 < n) (available : n ≤ p.length)
    (small : n ≤ blockSize) (credit : 0 < st.sendCredit) :
    Writes s (s.emitData k n st p rest) ∧
      ∀ j, Track.Moves A (s.track j) ((s.emitData k n st p rest).track j) := by
  refine ⟨(Writes.set s here _).trans (.push _ _ _), fun j => ?_⟩
  by_cases same : k = j
  · subst same
    rw [emitData, track_push_self _ ⟨.data, k, p.take n⟩ _ rfl (by simp), track_set_self]
    exact .one plain (.emitData n alive (by simp [track, running]) here live opened pending
      some_ available small credit)
  · rw [emitData, track_push_other _ ⟨.data, k, p.take n⟩ _ same (by simp),
      track_set_other s _ (Ne.symm same)]
    exact .refl _

theorem sendData_moves (k limit lead credit : Nat) (share : Nat) {s : Session}
    (sends : s.Sends k) (funds : ∀ st, s.slots k = some st → st.sendCredit = credit) :
    Writes s (sendData k limit lead credit share s).1 ∧
      (sendData k limit lead credit share s).1.Sends k ∧
      ∀ j, Track.Moves A (s.track j) ((sendData k limit lead credit share s).1.track j) := by
  induction credit generalizing share s with
  | zero => exact ⟨.refl s, sends, fun j => .refl _⟩
  | succ credit induction =>
      rcases sends with ⟨alive, running, st, here, live, opened⟩
      simp only [sendData, here]
      cases pending : st.output with
      | nil => exact ⟨.refl s, ⟨alive, running, st, here, live, opened⟩, fun j => .refl _⟩
      | cons p rest =>
          simp only
          generalize size : min (min (min p.length blockSize) share)
            (limit - (lead + s.out.length + headerSize)) = n
          have sized : n ≤ min p.length blockSize := by
            rw [← size]
            exact (min_le_left _ _).trans (min_le_left _ _)
          split_ifs with none_
          · exact ⟨.refl s, ⟨alive, running, st, here, live, opened⟩, fun j => .refl _⟩
          · have first := emitData_moves plain alive running here live opened pending
              (Nat.pos_of_ne_zero none_) (sized.trans (min_le_left _ _))
              (sized.trans (min_le_right _ _)) (by rw [funds st here]; omega)
            have after : (s.emitData k n st p rest).slots k = some (st.sentData n p rest) := by
              simp [emitData, push, set, Slot.sentData]
            have later := induction (share - n) (s := s.emitData k n st p rest)
              ⟨alive, running, _, after, live, opened⟩ (by
                intro st' found
                cases after.symm.trans found
                simp [Slot.sentData, funds st here])
            exact ⟨first.1.trans later.1, later.2.1, fun j => (first.2 j).trans (later.2.2 j)⟩

theorem sendFin_moves {s : Session} {k : Nat} (sends : s.Sends k) :
    Writes s (s.sendFin k).1 ∧ ∀ j, Track.Moves A (s.track j) ((s.sendFin k).1.track j) := by
  rcases sends with ⟨alive, running, st, here, live, opened⟩
  simp only [sendFin, here]
  split_ifs with due
  · simp only [Bool.and_eq_true, Bool.not_eq_true', List.isEmpty_iff] at due
    refine ⟨(Writes.set s here _).trans (.push _ _ _), fun j => ?_⟩
    by_cases same : k = j
    · subst same
      rw [track_push_self _ ⟨.fin, k, []⟩ _ rfl (by simp), track_set_self]
      exact .one plain (.emitFin alive (by simp [track, running]) here live opened due.1.1
        due.1.2 due.2)
    · rw [track_push_other _ ⟨.fin, k, []⟩ _ same (by simp),
        track_set_other s _ (Ne.symm same)]
      exact .refl _
  · exact ⟨.refl s, fun j => .refl _⟩

theorem turn_moves (limit lead share k : Nat) {s : Session} (alive : s.failure = none)
    (running : s.ended = none) :
    Writes s (turn limit lead share k s).1 ∧
      ∀ j, Track.Moves A (s.track j) ((turn limit lead share k s).1.track j) := by
  unfold turn
  cases here : s.slots k with
  | none => exact ⟨.refl s, fun j => .refl _⟩
  | some st =>
      simp only
      split_ifs with skipped
      · exact ⟨.refl s, fun j => .refl _⟩
      · simp only [Bool.or_eq_true, Bool.not_eq_true', not_or, Bool.not_eq_false] at skipped
        have data := sendData_moves plain k limit lead st.sendCredit share
          ⟨alive, running, st, here, skipped.1, skipped.2⟩ (by
            intro st' found
            cases here.symm.trans found
            rfl)
        have fin := sendFin_moves plain data.2.1
        refine ⟨data.1.trans (fin.1.trans (.served _ k)), fun j => ?_⟩
        exact (data.2.2 j).trans (fin.2 j)

theorem round_moves (limit lead : Nat) (share : Nat → Nat) (ids : List Nat) (progress : Bool)
    {s : Session} (alive : s.failure = none) (running : s.ended = none) :
    Writes s (round limit lead share ids progress s).1 ∧
      ∀ j, Track.Moves A (s.track j) ((round limit lead share ids progress s).1.track j) := by
  induction ids generalizing s progress with
  | nil => exact ⟨.refl s, fun j => .refl _⟩
  | cons k rest induction =>
      simp only [round]
      split_ifs
      · exact ⟨.refl s, fun j => .refl _⟩
      · have first := turn_moves plain limit lead (share (lead + s.out.length)) k alive running
        have later := induction
          (progress || (turn limit lead (share (lead + s.out.length)) k s).2)
          (first.1.failure.trans alive) (first.1.ended.trans running)
        exact ⟨first.1.trans later.1, fun j => (first.2 j).trans (later.2 j)⟩

theorem rounds_moves (limit lead : Nat) (share : Nat → Nat) (ids : List Nat) (fuel : Nat)
    {s : Session} (alive : s.failure = none) (running : s.ended = none) :
    Writes s (rounds limit lead share ids fuel s) ∧
      ∀ j, Track.Moves A (s.track j) ((rounds limit lead share ids fuel s).track j) := by
  induction fuel generalizing s with
  | zero => exact ⟨.refl s, fun j => .refl _⟩
  | succ fuel induction =>
      have first := round_moves plain limit lead share ids false alive running
      rw [rounds]
      split
      · next after ran =>
        rw [ran] at first
        have later := induction (first.1.failure.trans alive) (first.1.ended.trans running)
        exact ⟨first.1.trans later.1, fun j => (first.2 j).trans (later.2 j)⟩
      · next after ran =>
        rw [ran] at first
        exact first

theorem assembled_moves {s : Session} (d : Draws) (alive : s.failure = none)
    (running : s.ended = none) :
    Writes s (s.assembled d) ∧ ∀ k, Track.Moves A (s.track k) ((s.assembled d).track k) := by
  have shaped : Writes s (s.shaped d) := { Writes.refl s with }
  have controls := takeControls_moves plain (s.limit d) s.lead s.controls (s := s.shaped d) rfl
    alive running
  have data := rounds_moves plain (s.limit d) s.lead (s.share d) (s.withControls d).sendingOrder
    (s.limit d) (controls.1.failure.trans alive) (controls.1.ended.trans running)
  exact ⟨shaped.trans (controls.1.trans data.1), fun k => (controls.2 k).trans (data.2 k)⟩

omit plain in
/-- Everything `batch` can do. -/
theorem batch_cases {s s' : Session} {d : Draws} (taken : s.batch d = some s') :
    s.writing = false ∧ (s' = s ∨ (∃ e, s.failure = some e ∧ s' = s.finishTask e) ∨
      (s.failure = none ∧ s' = (s.assembled d).handOver s.lead)) := by
  unfold batch at taken
  split at taken
  · cases taken
  next idle =>
  refine ⟨by simpa using idle, ?_⟩
  cases failed : s.failure with
  | some e =>
      rw [failed] at taken
      exact .inr (.inl ⟨e, rfl, (Option.some.inj taken).symm⟩)
  | none =>
      rw [failed] at taken
      simp only at taken
      split at taken
      · exact .inl (Option.some.inj taken).symm
      · exact .inr (.inr ⟨rfl, (Option.some.inj taken).symm⟩)

theorem batch_moves {s s' : Session} {d : Draws} (running : s.ended = none)
    (taken : s.batch d = some s') (k : Nat) : Track.Moves A (s.track k) (s'.track k) := by
  rcases (batch_cases taken).2 with rfl | ⟨e, -, rfl⟩ | ⟨alive, rfl⟩
  · exact .refl _
  · exact .one plain .stop
  · exact (assembled_moves plain d alive running).2 k

omit plain in
theorem send_track {s s' : Session} {n : Nat} (taken : s.send n = some s') (k : Nat) :
    s'.track k = s.track k := by
  unfold send at taken
  split at taken <;> cases taken
  rfl

theorem written_moves {s s' : Session} {e : Option ErrorKind} (taken : s.written e = some s')
    (k : Nat) : Track.Moves A (s.track k) (s'.track k) := by
  unfold written at taken
  split at taken
  · split at taken
    · split at taken <;> cases taken
      exact .one plain .stop
    · split at taken <;> cases taken
      have marked : s.markAll.track k = { s.track k with
          slot := (s.track k).slot.map (·.marked (s.track k).touched), touched := [] } := by
        rw [markAll, foldl_mark]
        rfl
      rw [marked]
      exact .one plain .mark
  · cases taken

end Writing

/-! ## The watchdog -/

/-- The RESET frames of some streams have been queued. -/
def resetting (s : Session) (ks : List Nat) : Session :=
  { s with controls := s.controls ++ ks.map fun k => ⟨.reset, k, []⟩ }

/-- `resetAll` queues every RESET, or those in front of the first it has no room for. -/
theorem resetAll_cases (ks : List Nat) (s : Session) :
    resetAll ks s = (s.resetting ks, none) ∨
    ∃ early k late, ks = early ++ k :: late ∧
      resetAll ks s = ((s.resetting early).refusing, some .other) := by
  induction ks generalizing s with
  | nil => exact .inl (by simp [resetAll, resetting])
  | cons k rest induction =>
      rcases control_plain s .reset (by simp) k [] with ⟨-, outcome⟩ | ⟨-, outcome⟩ <;>
        rw [resetAll, outcome]
      · exact .inr ⟨[], k, rest, rfl, by simp [resetting]⟩
      · have joined : ∀ ks, (s.queued ⟨.reset, k, []⟩).resetting ks = s.resetting (k :: ks) := by
          intro ks
          simp [resetting, queued]
        rcases induction (s.queued ⟨.reset, k, []⟩) with all | ⟨early, j, late, rfl, some_⟩
        · exact .inl (by rw [← joined]; exact all)
        · exact .inr ⟨k :: early, j, late, rfl, by rw [← joined]; exact some_⟩

theorem track_resetting_in (s : Session) {ks : List Nat} (distinct : ks.Nodup) {k : Nat}
    (member : k ∈ ks) : (s.resetting ks).track k =
      { s.track k with queue := (s.track k).queue ++ [⟨.reset, k, []⟩] } := by
  have one : ks.filter (fun j => decide (j = k)) = [k] := by
    rw [List.filter_eq, List.count_eq_one_of_mem distinct member, List.replicate_one]
  have same : (fun f : Frame => decide (f.id = k)) ∘ (fun k => (⟨.reset, k, []⟩ : Frame)) =
      fun j => decide (j = k) := rfl
  simp [track, resetting, List.filter_map, same, one]

theorem track_resetting_out (s : Session) {ks : List Nat} {k : Nat} (absent : k ∉ ks) :
    (s.resetting ks).track k = s.track k := by
  have none_ : ks.filter (fun j => decide (j = k)) = [] := by
    rw [List.filter_eq_nil_iff]
    intro j member same
    exact absent (of_decide_eq_true same ▸ member)
  have same : (fun f : Frame => decide (f.id = k)) ∘ (fun k => (⟨.reset, k, []⟩ : Frame)) =
      fun j => decide (j = k) := rfl
  simp [track, resetting, List.filter_map, same, none_]

/-- The map `streams`: its keys are the identifiers of the slots, in order, up to `high`. -/
structure Keyed (s : Session) : Prop where
  keys : ∀ k, k ∈ s.ids ↔ (s.slots k).isSome = true
  sorted : s.ids.Pairwise (· < ·)
  below : ∀ k ∈ s.ids, k ≤ s.high

theorem Keyed.distinct {s : Session} (keyed : s.Keyed) : s.ids.Nodup :=
  keyed.sorted.imp fun below => Nat.ne_of_lt below

section Watching

variable {A : Event → Prop} (plain : A .plain)
include plain

theorem watchdog_moves {s s' : Session} {expired : List Nat} {idle : Bool} (keyed : s.Keyed)
    (running : s.ended = none) (taken : s.watchdog expired idle = some s') (k : Nat) :
    Track.Moves A (s.track k) (s'.track k) := by
  unfold watchdog at taken
  split at taken
  · cases taken
    exact .one plain .stop
  next alive =>
  simp only at taken
  generalize expires_ : (fun k => s.liveAt k && expired.contains k) = expires at taken
  have distinct : (s.ids.filter expires).Nodup := keyed.distinct.filter _
  have expiring : k ∈ s.ids.filter expires → ∃ st, s.slots k = some st ∧ st.live = true ∧
      expires k = true := by
    intro member
    have late := (List.mem_filter.mp member).2
    have live : s.liveAt k = true := by
      rw [← expires_, Bool.and_eq_true] at late
      exact late.1
    rcases (Option.any_eq_true _ _).mp live with ⟨st, here, live⟩
    exact ⟨st, here, live, late⟩
  have spared : k ∉ s.ids.filter expires → (s.expire expires).track k = s.track k := by
    intro absent
    cases here : s.slots k with
    | none => simp [track, expire, here]
    | some st =>
        have known : k ∈ s.ids := (keyed.keys k).mpr (by simp [here])
        have kept : expires k = false := by
          by_contra late
          exact absent (List.mem_filter.mpr ⟨known, by simpa using late⟩)
        simp [track, expire, here, kept]
  have slot : ∀ st, s.slots k = some st → expires k = true →
      (s.expire expires).track k = { s.track k with slot := some (st.fail .timedOut) } := by
    intro st here late
    simp [track, expire, here, late]
  have stopped : (s.track k).stopped = false := by simp [track, running]
  rcases resetAll_cases (s.ids.filter expires) (s.expire expires) with
    outcome | ⟨early, j, late, split_, outcome⟩ <;> rw [outcome] at taken <;>
    simp only at taken
  · have moved : Track.Moves A (s.track k)
        (((s.expire expires).resetting (s.ids.filter expires)).track k) := by
      by_cases member : k ∈ s.ids.filter expires
      · rcases expiring member with ⟨st, here, live, late⟩
        rw [track_resetting_in _ distinct member, slot st here late]
        exact .one plain (.expire alive stopped here live)
      · rw [track_resetting_out _ member, spared member]
        exact .refl _
    split at taken <;> cases taken
    · exact moved.trans (.one plain .stop)
    · exact moved
  · cases taken
    rw [track_finishTask, track_refusing]
    rw [split_] at distinct
    have apart := List.nodup_append.mp distinct
    by_cases member : k ∈ s.ids.filter expires
    · rcases expiring member with ⟨st, here, live, expired_⟩
      by_cases reached : k ∈ early
      · rw [track_resetting_in _ apart.1 reached, slot st here expired_]
        exact (Track.Moves.one plain (.expire alive stopped here live)).trans
          (.trans (.one plain .refused) (.one plain .stop))
      · rw [track_resetting_out _ reached, slot st here expired_]
        exact .one plain (.expireFull alive stopped here live)
    · have unreached : k ∉ early := by
        intro reached
        rw [split_] at member
        exact member (List.mem_append_left _ reached)
      rw [track_resetting_out _ unreached, spared member]
      exact .trans (.one plain .refused) (.one plain .stop)

end Watching

/-! ## The step -/

/-- What the refinement needs of a session. -/
structure Sound (s : Session) : Prop where
  keyed : s.Keyed
  odd : s.high = 0 ∨ s.high % 2 = 1
  traffic : s.traffic.Valid
  framed : s.reader.Framed s.server s.high
  fresh : s.ended = none → ∀ hd p, s.reader = .payload hd p → hd.kind = .open → s.high < hd.id

theorem task_some {s s' : Session} {next : Option Session} (taken : s.task next = some s') :
    s.ended = none ∧ next = some s' := by
  unfold task at taken
  split at taken
  · next running => exact ⟨Option.isNone_iff_eq_none.mp running, taken⟩
  · cases taken

theorem call_some {s s' : Session} {k : Nat} {next : Option Session}
    (taken : s.call k next = some s') : next = some s' := by
  unfold call at taken
  split at taken
  · cases taken
  · exact taken

/-- A session step moves every track, by moves whose events the action accounts for. -/
theorem step_moves {s s' : Session} {action : Action} (sound : s.Sound)
    (taken : s.step action = some s') (k : Nat) :
    Track.Moves (s.Occurs action) (s.track k) (s'.track k) := by
  have plain : s.Occurs action .plain := trivial
  cases action with
  | reserve target draw =>
      cases taken
      exact reserve_moves plain s target draw sound.odd sound.traffic k
  | accept j =>
      rcases Option.map_eq_some_iff.mp (call_some taken) with ⟨⟨_, e⟩, accepted, rfl⟩
      exact accept_moves plain accepted k
  | reject j code =>
      rcases Option.map_eq_some_iff.mp (call_some taken) with ⟨⟨_, e⟩, rejected, rfl⟩
      exact reject_moves plain rejected k
  | finish j =>
      rcases Option.map_eq_some_iff.mp (call_some taken) with ⟨⟨_, e⟩, finished, rfl⟩
      exact finish_moves plain finished k
  | drop j =>
      refine drop_moves plain (fun live alive full => ?_) (call_some taken) k
      exact ⟨j, .inl rfl, live, alive, full⟩
  | pollRead j n =>
      rcases Option.map_eq_some_iff.mp (call_some taken) with ⟨⟨_, result⟩, polled, rfl⟩
      exact pollRead_moves plain (fun past => past) polled k
  | pollWrite j buf =>
      rcases Option.map_eq_some_iff.mp (call_some taken) with ⟨⟨_, result⟩, polled, rfl⟩
      exact pollWrite_moves plain polled k
  | pollShutdown j =>
      rcases Option.map_eq_some_iff.mp (call_some taken) with ⟨⟨_, result⟩, polled, rfl⟩
      exact pollShutdown_moves plain polled k
  | close =>
      cases taken
      exact fail_moves plain s _ k
  | incoming =>
      simp only [step] at taken
      split at taken <;> cases taken
      exact .refl _
  | hangUp =>
      cases taken
      exact .refl _
  | dropIncoming =>
      simp only [step] at taken
      split at taken
      · next j rest hungUp queue =>
        have moves := @drop_moves (s.Occurs .dropIncoming) plain { s with incoming := rest } s' j
          (fun live alive full => ⟨j, .inr ⟨rfl, by simp [queue]⟩, live, alive, full⟩) taken k
        exact moves
      · cases taken
  | fail i =>
      simp only [step] at taken
      split at taken <;> cases taken
      next e _ =>
      exact fail_moves plain { s with failing := s.failing.eraseIdx i } e k
  | failTask =>
      rcases Option.map_eq_some_iff.mp taken with ⟨e, -, rfl⟩
      exact fail_moves plain s e k
  | recv bs => exact recv_moves plain (task_some taken).2 k
  | recvError e => exact recvError_moves plain (task_some taken).2 k
  | check => exact check_moves plain (task_some taken).2 k
  | dispatch draw =>
      exact dispatch_moves plain sound.framed (sound.fresh (task_some taken).1) sound.traffic
        (task_some taken).2 k
  | batch draws => exact batch_moves plain (task_some taken).1 (task_some taken).2 k
  | send n =>
      rw [send_track (task_some taken).2]
      exact .refl _
  | written e => exact written_moves plain (task_some taken).2 k
  | watchdog expired idle =>
      exact watchdog_moves plain sound.keyed (task_some taken).1 (task_some taken).2 k

end Session

end Veil.Rust

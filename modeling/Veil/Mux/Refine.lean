import Veil.Mux.Track

/-!
# A session step moves every track

The refinement between the session machine and the moves of single streams:
whatever action a session takes, the track of each stream goes through moves
that the action accounts for, and a call on one stream leaves the tracks of the
others where they are.
-/

namespace Veil.Mux

open Veil.Lib

namespace Session

/-! ## The control queue -/

/-- Where `coalesce` finds a queued CREDIT of the stream, and what it makes of it. -/
theorem coalesce_cases (id : Nat) (p : List Byte) (controls : List Control) :
    (coalesce id p controls = none ∧
      ∀ c ∈ controls, c.frame.id = id → c.frame.kind ≠ .credit) ∨
    ∃ before c after, controls = before ++ c :: after ∧
      c.frame.kind = .credit ∧ c.frame.id = id ∧
      (∀ d ∈ before, d.frame.id = id → d.frame.kind ≠ .credit) ∧
      ((windowBlocks < ((c.frame.amount + fromBigEndian p : Nat) : Int) ∧
          coalesce id p controls = some (.error .protocol)) ∨
        (((c.frame.amount + fromBigEndian p : Nat) : Int) ≤ windowBlocks ∧
          coalesce id p controls = some (.ok (before ++
            { c with frame := { c.frame with
              payload := bigEndian 2 (c.frame.amount + fromBigEndian p) } } :: after)))) := by
  induction controls with
  | nil => exact .inl ⟨rfl, by simp⟩
  | cons head rest induction =>
      rw [coalesce]
      by_cases match_ : head.frame.kind = .credit ∧ head.frame.id = id
      · refine .inr ⟨[], head, rest, rfl, match_.1, match_.2, by simp, ?_⟩
        simp only [match_, and_self, if_true, List.nil_append]
        by_cases past : windowBlocks < ((head.frame.amount + fromBigEndian p : Nat) : Int)
        · exact .inl ⟨past, by rw [if_pos past]⟩
        · exact .inr ⟨not_lt.mp past, by rw [if_neg past]⟩
      · simp only [match_, if_false]
        rcases induction with ⟨missing, others⟩ |
          ⟨before, c, after, rfl, kind, same, earlier, outcome⟩
        · refine .inl ⟨by simp [missing], ?_⟩
          intro c member sameId
          rcases List.mem_cons.mp member with rfl | member
          · exact fun kind => match_ ⟨kind, sameId⟩
          · exact others c member sameId
        · refine .inr ⟨head :: before, c, after, rfl, kind, same, ?_, ?_⟩
          · intro d member sameId
            rcases List.mem_cons.mp member with rfl | member
            · exact fun kind => match_ ⟨kind, sameId⟩
            · exact earlier d member sameId
          · rcases outcome with ⟨past, merged⟩ | ⟨within, merged⟩
            · exact .inl ⟨past, by simp [merged, Except.map]⟩
            · exact .inr ⟨within, by simp [merged, Except.map]⟩

/-- The queue after a frame has been appended. -/
def queued (s : Session) (f : Frame) (done : Waiter) : Session :=
  { s with controls := s.controls ++ [⟨f, done⟩], wake := true }

/-- What `controlLocked` does with any frame but CREDIT. -/
theorem controlLocked_plain (s : Session) {t : Kind} (plain : t ≠ .credit)
    (id : Nat) (p : List Byte) (done : Waiter) :
    (∃ e, s.err = some e ∧ s.controlLocked t id p done = (s, some e)) ∨
    (s.err = none ∧ maxControls ≤ s.controls.length ∧
      s.controlLocked t id p done = (s, some .full)) ∨
    (s.err = none ∧ s.controls.length < maxControls ∧
      s.controlLocked t id p done = (s.queued ⟨t, id, p⟩ done, none)) := by
  cases failed : s.err with
  | some e => exact .inl ⟨e, rfl, by simp [controlLocked, failed]⟩
  | none =>
      right
      by_cases full : maxControls ≤ s.controls.length
      · exact .inl ⟨rfl, full, by simp [controlLocked, failed, plain, full]⟩
      · refine .inr ⟨rfl, not_le.mp full, ?_⟩
        simp [controlLocked, failed, plain, full, queued]

/-- What `controlLocked` does with a CREDIT. -/
theorem controlLocked_credit (s : Session) (id : Nat) (p : List Byte) (done : Waiter) :
    (∃ e, s.err = some e ∧ s.controlLocked .credit id p done = (s, some e)) ∨
    (s.err = none ∧ maxControls ≤ s.controls.length ∧
      s.controlLocked .credit id p done = (s, some .full)) ∨
    (s.err = none ∧ (∀ c ∈ s.controls, c.frame.id = id → c.frame.kind ≠ .credit) ∧
      s.controlLocked .credit id p done = (s.queued ⟨.credit, id, p⟩ done, none)) ∨
    ∃ before c after, s.err = none ∧ s.controls = before ++ c :: after ∧
      c.frame.kind = .credit ∧ c.frame.id = id ∧
      ((windowBlocks < ((c.frame.amount + fromBigEndian p : Nat) : Int) ∧
          s.controlLocked .credit id p done = (s, some .protocol)) ∨
        (((c.frame.amount + fromBigEndian p : Nat) : Int) ≤ windowBlocks ∧
          s.controlLocked .credit id p done =
            ({ s with controls := before ++
                { c with frame := { c.frame with
                  payload := bigEndian 2 (c.frame.amount + fromBigEndian p) } } :: after },
              none))) := by
  cases failed : s.err with
  | some e => exact .inl ⟨e, rfl, by simp [controlLocked, failed]⟩
  | none =>
      right
      rcases coalesce_cases id p s.controls with ⟨missing, others⟩ |
        ⟨before, c, after, split_, kind, same, -, outcome⟩
      · by_cases full : maxControls ≤ s.controls.length
        · exact .inl ⟨rfl, full, by simp [controlLocked, failed, missing, full]⟩
        · refine .inr (.inl ⟨rfl, others, ?_⟩)
          simp [controlLocked, failed, missing, full, queued]
      · refine .inr (.inr ⟨before, c, after, rfl, split_, kind, same, ?_⟩)
        rcases outcome with ⟨past, merged⟩ | ⟨within, merged⟩
        · exact .inl ⟨past, by simp [controlLocked, failed, merged]⟩
        · exact .inr ⟨within, by simp [controlLocked, failed, merged]⟩

/-! ## Tracks under the basic updates -/

section Updates

variable (s : Session) (sending : List Control) (completed : List Nat) (k j : Nat)

@[simp]
theorem trackWith_id : (s.trackWith sending completed k).id = k := rfl

@[simp]
theorem trackWith_server : (s.trackWith sending completed k).server = s.server := rfl

@[simp]
theorem trackWith_err : (s.trackWith sending completed k).err = s.err := rfl

@[simp]
theorem trackWith_st : (s.trackWith sending completed k).st = s.objs k := rfl

@[simp]
theorem trackWith_queue :
    (s.trackWith sending completed k).queue = s.controls.filter (·.frame.id = k) := rfl

@[simp]
theorem trackWith_progress : (s.trackWith sending completed k).progress = s.reader.progress k := rfl

@[simp]
theorem trackWith_halted : (s.trackWith sending completed k).halted = s.reader.halted := rfl

theorem trackWith_listed : (s.trackWith sending completed k).listed = true ↔ k ∈ s.streams := by
  simp [trackWith]

theorem trackWith_above : (s.trackWith sending completed k).above = true ↔ s.lastID < k := by
  simp [trackWith]

theorem track_above_false : (s.track k).above = false ↔ k ≤ s.lastID := by
  rw [← Bool.not_eq_true, track, trackWith_above, not_lt]

theorem track_set_self (st : Stream) :
    (s.set k st).track k = { s.track k with st := some st } := by
  simp [track, trackWith, set]

theorem track_set_other (st : Stream) (different : k ≠ j) :
    (s.set j st).track k = s.track k := by
  simp [track, trackWith, set, different]

theorem track_queued_self (f : Frame) (done : Waiter) (same : f.id = k) :
    (s.queued f done).track k =
      { s.track k with queue := (s.track k).queue ++ [⟨f, done⟩] } := by
  simp [track, trackWith, queued, same]

theorem track_queued_other (f : Frame) (done : Waiter) (different : f.id ≠ k) :
    (s.queued f done).track k = s.track k := by
  simp [track, trackWith, queued, different]

@[simp]
theorem track_willFail (e : Option Err) : (s.willFail e).track k = s.track k := rfl

end Updates

theorem blt_self (n : Nat) : n.blt n = false := by
  cases holds : n.blt n with
  | false => rfl
  | true => simp at holds

/-! ## Which moves an action accounts for -/

/-- The control queue has no room for another frame. -/
def queueFull (s : Session) : Prop := maxControls ≤ s.controls.length

instance (s : Session) : Decidable s.queueFull :=
  inferInstanceAs (Decidable (_ ≤ _))

/-- A waiting call on stream `k` is cut short while an OPENED of it is queued. -/
def abandons (s : Session) (k : Nat) (wake : Wake) : Prop :=
  wake = .stopped ∧ s.err = none ∧ (∃ st, s.objs k = some st ∧ st.err = none) ∧
    ∃ c ∈ s.controls, c.frame.id = k ∧ c.frame.kind = .opened

/-- `Open` gets as far as queueing its OPEN. -/
def allocates (s : Session) (metadata : List Byte) : Prop :=
  s.err = none ∧ s.server = false ∧ 0 < metadata.length ∧ metadata.length ≤ 512 ∧
    s.streams.length < maxStreams ∧ s.lastID + 2 < 2 ^ 32

/-- `Respond` gets as far as queueing its answer. -/
def answers (s : Session) (k : Nat) : Prop :=
  s.err = none ∧ s.server = true ∧ ∃ st, s.objs k = some st ∧ st.call = .idle ∧
    st.err = none ∧ st.ready = false ∧ st.closed = false

/-- `CloseWrite` gets as far as queueing FIN. -/
def endsWriting (s : Session) (k : Nat) : Prop :=
  s.err = none ∧ ∃ st, s.objs k = some st ∧ st.call = .idle ∧ st.err = none ∧
    st.closed = false ∧ st.localFIN = false ∧ st.ready = true ∧
    ¬ (s.server = true ∧ st.remoteFIN = true)

/-- `Close` gets as far as queueing RESET. -/
def resets (s : Session) (k : Nat) : Prop :=
  s.err = none ∧ ∃ st, s.objs k = some st ∧ st.closed = false ∧
    st.applicationDone = false ∧ st.peerDone = false ∧ st.err = none

/-- The moves that an action may bring about on the track of stream `k`. -/
def Occurs (s : Session) (action : Action) (k : Nat) (event : Event) : Prop :=
  match action with
  | .open metadata _ =>
      event = .inner ∨ event = .open ∨ event = .openFull ∧ s.queueFull ∧ s.allocates metadata
  | .respond j code =>
      j = k ∧ (event = .respond code ∨
        event = .respondFull code ∧ s.queueFull ∧ s.answers k)
  | .callReturn j wake =>
      j = k ∧ (event = .returned ∨ event = .abandoned ∧ s.abandons k wake)
  | .read j _ _ => j = k ∧ event = .read
  | .write j _ => j = k ∧ event = .write
  | .writeReturn j => j = k ∧ event = .writeReturn
  | .closeWrite j =>
      j = k ∧ (event = .closeWrite ∨
        event = .closeWriteFull ∧ s.queueFull ∧ s.endsWriting k)
  | .finish j => j = k ∧ (event = .finish ∨ event = .finishFull)
  | .close j => j = k ∧ (event = .close ∨ event = .closeFull ∧ s.queueFull ∧ s.resets k)
  | _ => event = .inner

/-! ## Application calls -/

/-- Raising `lastID` only ends the time before the first frame of an identifier. -/
theorem raise_moves {A : Event → Prop} (inner : A .inner) {t : Track}
    {old new k : Nat} (above : t.above = old.blt k) (raised : old ≤ new) :
    Track.Moves A t { t with above := new.blt k } := by
  by_cases same : old.blt k = new.blt k
  · rw [← same, ← above]
    exact Track.Moves.refl _
  · have passed : new.blt k = false := by
      by_contra reached
      have reached : new < k := by simpa using reached
      have was : old < k := lt_of_le_of_lt raised reached
      exact same (by simp [Nat.blt_eq.mpr, was, reached])
    rw [passed]
    exact .one inner .pass

/-- Everything `Open` can do. -/
theorem open_cases (s : Session) (metadata : List Byte) (draw : Nat) :
    (s.open metadata draw).1 = s ∨
    (s.err = none ∧ s.server = false ∧ 0 < metadata.length ∧ metadata.length ≤ 512 ∧
      s.streams.length < maxStreams ∧ s.lastID + 2 < 2 ^ 32 ∧
      (s.queueFull ∧ s.open metadata draw = (s.allocated metadata draw, some .full) ∨
        ¬ s.queueFull ∧ s.open metadata draw =
          ((s.allocated metadata draw).queued ⟨.open, s.nextID, metadata⟩ .nobody, none))) := by
  by_cases bad : metadata.length = 0 ∨ 512 < metadata.length ∨ s.server = true
  · exact .inl (by rw [Session.open, if_pos bad])
  cases failed : s.err with
  | some e => exact .inl (by simp [Session.open, failed]; split_ifs <;> rfl)
  | none =>
      by_cases full : maxStreams ≤ s.streams.length
      · exact .inl (by simp [Session.open, failed, full]; split_ifs <;> rfl)
      by_cases exhausted : 2 ^ 32 - 1 - 2 ≤ s.lastID
      · exact .inl (by
          rw [Session.open, if_neg bad, failed]
          simp only [full, exhausted, if_true, if_false])
      have made : s.open metadata draw =
          (s.allocated metadata draw).controlLocked .open s.nextID metadata .nobody := by
        rw [Session.open, if_neg bad, failed]
        simp only [full, exhausted, if_false]
      have client : s.server = false := by
        by_contra server
        exact bad (.inr (.inr (by simpa using server)))
      refine .inr ⟨rfl, client, by omega, by omega, by omega, by omega, ?_⟩
      have plain : Kind.open ≠ Kind.credit := by decide
      rcases controlLocked_plain (s.allocated metadata draw) plain s.nextID metadata .nobody
        with ⟨e, failedNow, -⟩ | ⟨-, noRoom, outcome⟩ | ⟨-, room, outcome⟩
      · have same : (s.allocated metadata draw).err = s.err := rfl
        rw [same, failed] at failedNow
        cases failedNow
      · exact .inl ⟨noRoom, made.trans outcome⟩
      · exact .inr ⟨not_le.mpr room, made.trans outcome⟩

theorem lastID_lt_nextID (s : Session) : s.lastID < s.nextID := by
  rw [nextID]
  split_ifs <;> omega

theorem open_moves (s : Session) (shape : s.shape.Valid)
    (odd : s.server = false → s.lastID = 0 ∨ s.lastID % 2 = 1)
    (metadata : List Byte) (draw k : Nat) :
    Track.Moves (s.Occurs (.open metadata draw) k) (s.track k)
      ((s.open metadata draw).1.track k) := by
  have raised := s.lastID_lt_nextID
  rcases s.open_cases metadata draw with
    same | ⟨alive, client, nonempty, short, free, small, outcome⟩
  · rw [same]
    exact .refl _
  have valid : s.nextID % 2 = 1 ∧ s.nextID < 2 ^ 32 := by
    have odd := odd client
    rw [nextID]
    split_ifs <;> omega
  by_cases own : k = s.nextID
  · have new : (s.track k).above = true := by
      simpa [track, trackWith, own] using raised
    rcases outcome with ⟨noRoom, outcome⟩ | ⟨-, outcome⟩
    · have moved : (s.allocated metadata draw).track k =
          { s.track k with
            above := false
            st := some (Stream.fresh metadata (s.shape.credit.choose draw))
            listed := true } := by
        simp [allocated, track, trackWith, newStreamLocked, set, own, blt_self]
      rw [outcome, moved]
      exact .one (.inr (.inr ⟨rfl, noRoom, alive, client, nonempty, short, free, small⟩))
        (.openFull _ _ client new alive (own ▸ valid)
        (shape.credit_pos draw))
    · have moved : ((s.allocated metadata draw).queued
            ⟨.open, s.nextID, metadata⟩ .nobody).track k =
          { s.track k with
            above := false
            st := some (Stream.fresh metadata (s.shape.credit.choose draw))
            listed := true
            queue := (s.track k).queue ++
              [⟨⟨.open, (s.track k).id, metadata⟩, .nobody⟩] } := by
        simp [allocated, track, trackWith, newStreamLocked, set, queued, own, blt_self]
      rw [outcome, moved]
      exact .one (.inr (.inl rfl)) (.open _ _ client new alive (own ▸ valid)
        ⟨nonempty, short⟩ (shape.credit_pos draw))
  · have moved : (s.open metadata draw).1.track k =
        { s.track k with above := s.nextID.blt k } := by
      rcases outcome with ⟨-, outcome⟩ | ⟨-, outcome⟩ <;>
        simp [outcome, allocated, track, trackWith, newStreamLocked, set, queued, own,
          Ne.symm own]
    rw [moved]
    exact raise_moves (.inl rfl) rfl raised.le

@[simp]
theorem set_set (s : Session) (k : Nat) (first second : Stream) :
    (s.set k first).set k second = s.set k second := by
  simp only [set, mk.injEq, and_true, true_and]
  funext i
  split_ifs <;> rfl

theorem queued_set (s : Session) (f : Frame) (done : Waiter) (k : Nat) (st : Stream) :
    (s.queued f done).set k st = (s.set k st).queued f done := rfl

/-- The frame `Respond` sends for a code. -/
def response (k : Nat) (code : Byte) : Frame :=
  if code == 0 then ⟨.opened, k, []⟩ else ⟨.failed, k, [code]⟩

/-- Everything `Respond` can do before it waits. -/
theorem respond_cases {s s' : Session} {k : Nat} {code : Byte} {result : Option Err}
    (taken : s.respond k code = some (s', result)) :
    ∃ st, s.objs k = some st ∧ st.call = .idle ∧
      (s' = s ∧ result ≠ none ∨
        st.err = none ∧ s.server = true ∧ st.ready = false ∧ st.closed = false ∧
          ((s.queueFull ∨ s.err ≠ none) ∧ result ≠ none ∧
              s' = s.set k { st with ready := code == 0 } ∨
            s.err = none ∧ ¬ s.queueFull ∧ result = none ∧
              s' = (s.set k { st with ready := code == 0, call := .respond }).queued
                (response k code) .controlDone)) := by
  unfold respond at taken
  split at taken
  · cases taken
  next st here =>
  split at taken
  · cases taken
  next free =>
  refine ⟨st, here, not_not.mp free, ?_⟩
  split at taken
  · cases taken
    exact .inl ⟨rfl, by simp⟩
  next unfailed =>
  split at taken
  · cases taken
    exact .inl ⟨rfl, by simp⟩
  next refused =>
  simp only [Bool.or_eq_true, Bool.not_eq_true', not_or, Bool.not_eq_false,
    Bool.not_eq_true] at refused
  refine .inr ⟨unfailed, refused.1.1, refused.1.2, refused.2, ?_⟩
  have plain : (if (code == 0) = true then Kind.opened else Kind.failed) ≠
      Kind.credit := by
    split_ifs <;> decide
  have sent : (⟨if (code == 0) = true then Kind.opened else Kind.failed, k,
      if (code == 0) = true then [] else [code]⟩ : Frame) = response k code := by
    rw [response]
    split_ifs <;> rfl
  simp only at taken
  rcases controlLocked_plain (s.set k { st with ready := code == 0 }) plain k
      (if (code == 0) = true then [] else [code]) .controlDone with
    ⟨e, failed, outcome⟩ | ⟨alive, full, outcome⟩ | ⟨alive, room, outcome⟩
  · rw [outcome] at taken
    cases taken
    exact .inl ⟨.inr (by rw [show s.err = some e from failed]; simp), by simp, rfl⟩
  · rw [outcome] at taken
    cases taken
    exact .inl ⟨.inl full, by simp, rfl⟩
  · rw [outcome] at taken
    cases taken
    refine .inr ⟨alive, not_le.mpr room, rfl, ?_⟩
    rw [queued_set, set_set, sent]

/-- Replacing one stream moves only its own track. -/
theorem set_moves {allowed : Event → Prop} {s : Session} {j k : Nat} {st : Stream}
    (moves : j = k → Track.Moves allowed (s.track k) { s.track k with st := some st }) :
    Track.Moves allowed (s.track k) ((s.set j st).track k) := by
  by_cases own : k = j
  · subst own
    rw [track_set_self]
    exact moves rfl
  · rw [track_set_other _ _ _ _ own]
    exact .refl _

/-- Replacing one stream and queueing a frame of it moves only its own track. -/
theorem set_queued_moves {allowed : Event → Prop} {s : Session} {j k : Nat} {st : Stream}
    {f : Frame} {done : Waiter} (id : f.id = j)
    (moves : j = k → Track.Moves allowed (s.track k)
      { s.track k with st := some st, queue := (s.track k).queue ++ [⟨f, done⟩] }) :
    Track.Moves allowed (s.track k) (((s.set j st).queued f done).track k) := by
  by_cases own : k = j
  · subst own
    rw [track_queued_self _ _ _ _ id, track_set_self]
    exact moves rfl
  · rw [track_queued_other _ _ _ _ (by rw [id]; exact Ne.symm own),
      track_set_other _ _ _ _ own]
    exact .refl _

theorem respond_moves {s s' : Session} {j : Nat} {code : Byte} {result : Option Err}
    (taken : s.respond j code = some (s', result)) (k : Nat) :
    Track.Moves (s.Occurs (.respond j code) k) (s.track k) (s'.track k) := by
  rcases respond_cases taken with ⟨st, here, free, same | ⟨unfailed, server, waiting,
    unclosed, ⟨refused, -, rfl⟩ | ⟨alive, room, -, rfl⟩⟩⟩
  · rw [same.1]
    exact .refl _
  · refine set_moves fun own => ?_
    subst own
    by_cases alive : s.err = none
    · have full := refused.resolve_right (not_not.mpr alive)
      exact .one ⟨rfl, .inr ⟨rfl, full, alive, server, st, here, free, unfailed, waiting,
          unclosed⟩⟩
        (.respondFull code here free unfailed server waiting unclosed alive)
    · exact .one ⟨rfl, .inl rfl⟩
        (.respondOver code here free unfailed server waiting unclosed alive)
  · have id : (response j code).id = j := by
      rw [response]
      split_ifs <;> rfl
    refine set_queued_moves id fun own => ?_
    subst own
    exact .one ⟨rfl, .inl rfl⟩
      (.respond code here free unfailed server waiting unclosed alive)

/-- Everything the end of a waiting call can be. -/
theorem callReturn_cases {s s' : Session} {k : Nat} {wake : Wake} {result : Option Err}
    (taken : s.callReturn k wake = some (s', result)) :
    ∃ st, s.objs k = some st ∧
      (wake = .token ∧ (st.call = .respond ∨ st.call = .finish) ∧
          (∃ rest, st.controlDone = result :: rest ∧
            s' = s.set k { st with controlDone := rest, call := .idle }) ∨
        wake = .token ∧ st.call = .closeWrite ∧
          (∃ rest, st.finDone = result :: rest ∧
            s' = s.set k { st with finDone := rest, call := .idle }) ∨
        wake ≠ .token ∧ (st.call ≠ .idle ∧ st.call ≠ .write) ∧
          (wake = .stopped ∧ s.stopped st = true ∨ wake = .done ∧ s.err ≠ none) ∧
          result ≠ none ∧ s' = s.set k { st with call := .idle }) := by
  unfold callReturn at taken
  split at taken
  · cases taken
  next st here =>
  refine ⟨st, here, ?_⟩
  split at taken
  · next call =>
      split at taken
      · cases taken
      next e rest reported =>
      cases taken
      exact .inl ⟨rfl, .inl call, rest, reported, rfl⟩
  · next call =>
      split at taken
      · cases taken
      next e rest reported =>
      cases taken
      exact .inl ⟨rfl, .inr call, rest, reported, rfl⟩
  · next call =>
      split at taken
      · cases taken
      next e rest reported =>
      cases taken
      exact .inr (.inl ⟨rfl, call, rest, reported, rfl⟩)
  all_goals right; right
  · next call =>
      split at taken
      · next past =>
          cases taken
          exact ⟨by simp, by simp [call], .inl ⟨rfl, past⟩, by simp, rfl⟩
      · cases taken
  · next call =>
      split at taken
      · next past =>
          cases taken
          exact ⟨by simp, by simp [call], .inl ⟨rfl, past⟩, by simp, rfl⟩
      · cases taken
  · next call =>
      split at taken
      · next past =>
          cases taken
          exact ⟨by simp, by simp [call], .inl ⟨rfl, past⟩, by simp, rfl⟩
      · cases taken
  · next call =>
      split at taken
      · cases taken
      next e failed =>
      cases taken
      exact ⟨by simp, by simp [call], .inr ⟨rfl, by simp [failed]⟩, by simp, rfl⟩
  · cases taken

theorem callReturn_moves {s s' : Session} {j : Nat} {wake : Wake} {result : Option Err}
    (taken : s.callReturn j wake = some (s', result)) (k : Nat) :
    Track.Moves (s.Occurs (.callReturn j wake) k) (s.track k) (s'.track k) := by
  rcases callReturn_cases taken with ⟨st, here, ⟨-, waiting, rest, reported, rfl⟩ |
    ⟨-, waiting, rest, reported, rfl⟩ | ⟨-, waiting, cause, -, rfl⟩⟩
  · refine set_moves fun own => ?_
    subst own
    exact .one ⟨rfl, .inl rfl⟩ (.controlReturn here waiting reported)
  · refine set_moves fun own => ?_
    subst own
    exact .one ⟨rfl, .inl rfl⟩ (.finReturn here waiting reported)
  · refine set_moves fun own => ?_
    subst own
    by_cases queuedOpened : ∃ c ∈ s.controls, c.frame.id = j ∧ c.frame.kind = .opened
    · by_cases past : st.err ≠ none ∨ s.err ≠ none
      · refine .one ⟨rfl, .inl rfl⟩ (.giveUp here waiting ?_)
        rcases past with past | past
        · exact .inl past
        · exact .inr (.inl past)
      · simp only [ne_eq, not_or, not_not] at past
        rcases cause with ⟨stop, -⟩ | ⟨-, failed⟩
        · exact .one ⟨rfl, .inr ⟨rfl, stop, past.2, ⟨st, here, past.1⟩, queuedOpened⟩⟩
            (.abandon here waiting)
        · exact (failed past.2).elim
    · refine .one ⟨rfl, .inl rfl⟩ (.giveUp here waiting (.inr (.inr ?_)))
      intro c member kind
      have member := List.mem_filter.mp member
      exact queuedOpened ⟨c, member.1, by simpa using member.2, kind⟩

/-- Everything `Write` can do before it waits. -/
theorem write_cases {s s' : Session} {k : Nat} {p : List Byte}
    {result : Option (Option Err)} (taken : s.write k p = some (s', result)) :
    ∃ st, s.objs k = some st ∧ st.call = .idle ∧
      (s' = s ∧ (result ≠ none ∧ (p = [] ∨ result ≠ some none)) ∨
        st.err = none ∧ st.closed = false ∧ st.localFIN = false ∧ st.ready = true ∧
          p ≠ [] ∧ result = none ∧
          s' = { s.set k { st with request := some ⟨p, 0, false⟩, call := .write } with
            wake := true }) := by
  unfold write at taken
  split at taken
  · cases taken
  next st here =>
  split at taken
  · cases taken
  next free =>
  refine ⟨st, here, not_not.mp free, ?_⟩
  split at taken
  · cases taken
    exact .inl ⟨rfl, by simp⟩
  next unfailed =>
  split at taken
  · cases taken
    exact .inl ⟨rfl, by simp⟩
  next open_ =>
  split at taken
  · cases taken
    exact .inl ⟨rfl, by simp⟩
  next opened =>
  split at taken
  · next empty =>
      cases taken
      exact .inl ⟨rfl, by simp, .inl (List.length_eq_zero_iff.mp empty)⟩
  next nonempty =>
  cases taken
  simp only [Bool.or_eq_true, not_or, Bool.not_eq_true] at open_
  simp only [Bool.not_eq_true', Bool.not_eq_false] at opened
  exact .inr ⟨unfailed, open_.1, open_.2, opened,
    fun empty => nonempty (List.length_eq_zero_iff.mpr empty), rfl, rfl⟩

theorem write_moves {s s' : Session} {j : Nat} {p : List Byte}
    {result : Option (Option Err)} (taken : s.write j p = some (s', result)) (k : Nat) :
    Track.Moves (s.Occurs (.write j p) k) (s.track k) (s'.track k) := by
  rcases write_cases taken with ⟨st, here, free, same |
    ⟨unfailed, unclosed, unended, opened, nonempty, -, rfl⟩⟩
  · rw [same.1]
    exact .refl _
  · refine set_moves fun own => ?_
    subst own
    exact .one ⟨rfl, rfl⟩
      (.write p here free unfailed unclosed unended opened nonempty)

/-- Everything the end of `Write` can be. -/
theorem writeReturn_cases {s s' : Session} {k n : Nat} {e : Option Err}
    (taken : s.writeReturn k = some (s', n, e)) :
    ∃ st r rest, s.objs k = some st ∧ st.call = .write ∧ st.request = some r ∧
      st.writeDone = (n, e) :: rest ∧
      s' = s.set k { st with
        writeDone := rest, request := none, call := .idle
        wrote := st.wrote ++ r.p.take n } := by
  unfold writeReturn at taken
  split at taken
  · cases taken
  next st here =>
  split at taken
  · next n' e' rest r call reported pending =>
      cases taken
      exact ⟨st, r, rest, here, call, pending, reported, rfl⟩
  · cases taken

theorem writeReturn_moves {s s' : Session} {j n : Nat} {e : Option Err}
    (taken : s.writeReturn j = some (s', n, e)) (k : Nat) :
    Track.Moves (s.Occurs (.writeReturn j) k) (s.track k) (s'.track k) := by
  rcases writeReturn_cases taken with ⟨st, r, rest, here, waiting, pending, reported, rfl⟩
  refine set_moves fun own => ?_
  subst own
  exact .one ⟨rfl, rfl⟩ (.writeReturn here waiting reported pending)

/-- Everything `CloseWrite` can do before it waits. -/
theorem closeWrite_cases {s s' : Session} {k : Nat} {result : Option (Option Err)}
    (taken : s.closeWrite k = some (s', result)) :
    ∃ st, s.objs k = some st ∧ st.call = .idle ∧
      (s' = s ∧ result ≠ none ∧
          (result = some none → st.err = none ∧ st.closed = false ∧ st.localFIN = true) ∨
        st.err = none ∧ st.closed = false ∧ st.localFIN = false ∧ st.ready = true ∧
          (s.server = true ∧ st.remoteFIN = true ∧ result = some none ∧
              s' = s.set k { st with
                localFIN := true, closedAt := some st.wrote, pendingFIN := true } ∨
            ¬ (s.server = true ∧ st.remoteFIN = true) ∧
              ((s.queueFull ∨ s.err ≠ none) ∧ (∃ e, result = some (some e)) ∧
                  s' = s.set k { st with localFIN := true, closedAt := some st.wrote } ∨
                s.err = none ∧ result = none ∧
                  s' = (s.set k { st with
                    localFIN := true, closedAt := some st.wrote
                    call := .closeWrite }).queued ⟨.fin, k, []⟩ .finDone))) := by
  unfold closeWrite at taken
  split at taken
  · cases taken
  next st here =>
  split at taken
  · cases taken
  next free =>
  refine ⟨st, here, not_not.mp free, ?_⟩
  split at taken
  · cases taken
    exact .inl ⟨rfl, by simp, by simp⟩
  next unfailed =>
  split at taken
  · cases taken
    exact .inl ⟨rfl, by simp, by simp⟩
  next unclosed =>
  split at taken
  · next again =>
      cases taken
      exact .inl ⟨rfl, by simp, fun _ => ⟨unfailed, by simpa using unclosed, again⟩⟩
  next first =>
  split at taken
  · cases taken
    exact .inl ⟨rfl, by simp, by simp⟩
  next opened =>
  refine .inr ⟨unfailed, by simpa using unclosed, by simpa using first,
    by simpa using opened, ?_⟩
  simp only at taken
  split at taken
  · next later =>
      cases taken
      rw [Bool.and_eq_true] at later
      exact .inl ⟨later.1, later.2, rfl, rfl⟩
  next now =>
  rw [Bool.and_eq_true] at now
  refine .inr ⟨now, ?_⟩
  have plain : Kind.fin ≠ Kind.credit := by decide
  rcases controlLocked_plain (s.set k { st with localFIN := true, closedAt := some st.wrote })
      plain k [] .finDone with
    ⟨e, failed, outcome⟩ | ⟨alive, full, outcome⟩ | ⟨alive, room, outcome⟩
  · rw [outcome] at taken
    cases taken
    exact .inl ⟨.inr (by rw [show s.err = some e from failed]; simp), ⟨e, rfl⟩, rfl⟩
  · rw [outcome] at taken
    cases taken
    exact .inl ⟨.inl full, ⟨.full, rfl⟩, rfl⟩
  · rw [outcome] at taken
    cases taken
    refine .inr ⟨alive, rfl, ?_⟩
    rw [queued_set, set_set]

theorem closeWrite_moves {s s' : Session} {j : Nat} {result : Option (Option Err)}
    (taken : s.closeWrite j = some (s', result)) (k : Nat) :
    Track.Moves (s.Occurs (.closeWrite j) k) (s.track k) (s'.track k) := by
  rcases closeWrite_cases taken with ⟨st, here, free, same | ⟨unfailed, unclosed, unended,
    opened, ⟨server, ended, -, rfl⟩ |
      ⟨now, ⟨refused, -, rfl⟩ | ⟨alive, -, rfl⟩⟩⟩⟩
  · rw [same.1]
    exact .refl _
  · refine set_moves fun own => ?_
    subst own
    exact .one ⟨rfl, .inl rfl⟩
      (.closeWriteLater here free unfailed unclosed unended opened ⟨server, ended⟩)
  · refine set_moves fun own => ?_
    subst own
    by_cases alive : s.err = none
    · have full := refused.resolve_right (not_not.mpr alive)
      exact .one ⟨rfl, .inr ⟨rfl, full, alive, st, here, free, unfailed, unclosed, unended,
          opened, now⟩⟩
        (.closeWriteFull here free unfailed unclosed unended opened alive now)
    · exact .one ⟨rfl, .inl rfl⟩
        (.closeWriteOver here free unfailed unclosed unended opened alive now)
  · refine set_queued_moves rfl fun own => ?_
    subst own
    exact .one ⟨rfl, .inl rfl⟩
      (.closeWrite here free unfailed unclosed unended opened alive now)

/-- The session after `Finish` has queued the deferred FIN, when there is one. -/
def withDeferred (s : Session) (k : Nat) (pending : Bool) : Session :=
  if pending then s.queued ⟨.fin, k, []⟩ .nobody else s

@[simp]
theorem withDeferred_err (s : Session) (k : Nat) (pending : Bool) :
    (s.withDeferred k pending).err = s.err := by
  unfold withDeferred
  split_ifs <;> rfl

theorem withDeferred_set (s : Session) (k : Nat) (pending : Bool) (st : Stream) :
    (s.withDeferred k pending).set k st = (s.set k st).withDeferred k pending := by
  cases pending <;> rfl

/-- Everything `Finish` can do before it waits. -/
theorem finish_cases {s s' : Session} {k : Nat} {result : Option Err}
    (taken : s.finish k = some (s', result)) :
    ∃ st, s.objs k = some st ∧ st.call = .idle ∧
      (s' = s ∧ result ≠ none ∨
        st.err = none ∧ s.server = true ∧ st.localFIN = true ∧ st.remoteFIN = true ∧
          st.applicationDone = false ∧
          ((∃ e pending, result = some e ∧ (e = .full ∨ s.err = some e) ∧
              (pending = true → st.pendingFIN = true ∧ s.err = none) ∧
              s' = ((s.set k { st with
                applicationDone := true, pendingFIN := false }).withDeferred k
                  pending).willFail (some e)) ∨
            s.err = none ∧ result = none ∧
              s' = ((s.set k { st with
                applicationDone := true, pendingFIN := false
                call := .finish }).withDeferred k st.pendingFIN).queued
                  ⟨.finished, k, []⟩ .controlDone)) := by
  unfold finish at taken
  split at taken
  · cases taken
  next st here =>
  split at taken
  · cases taken
  next free =>
  refine ⟨st, here, not_not.mp free, ?_⟩
  split at taken
  · cases taken
    exact .inl ⟨rfl, by simp⟩
  next unfailed =>
  split at taken
  · cases taken
    exact .inl ⟨rfl, by simp⟩
  next refused =>
  simp only [Bool.or_eq_true, Bool.not_eq_true', not_or, Bool.not_eq_false,
    Bool.not_eq_true] at refused
  refine .inr ⟨unfailed, refused.1.1.1, refused.1.1.2, refused.1.2, refused.2, ?_⟩
  have plainFin : Kind.fin ≠ Kind.credit := by decide
  have plainDone : Kind.finished ≠ Kind.credit := by decide
  simp only at taken
  -- The session after the optional FIN, with the frame queued or refused.
  have first : (∃ e, (e = .full ∨ s.err = some e) ∧ (if st.pendingFIN = true then
        (s.set k { st with applicationDone := true, pendingFIN := false }).controlLocked
          .fin k [] .nobody
        else (s.set k { st with applicationDone := true }, none)) =
          (s.set k { st with applicationDone := true, pendingFIN := false }, some e)) ∨
      (st.pendingFIN = true → s.err = none) ∧ (if st.pendingFIN = true then
        (s.set k { st with applicationDone := true, pendingFIN := false }).controlLocked
          .fin k [] .nobody
        else (s.set k { st with applicationDone := true }, none)) =
          ((s.set k { st with applicationDone := true, pendingFIN := false }).withDeferred k
            st.pendingFIN, none) := by
    cases pending : st.pendingFIN with
    | false =>
        exact .inr ⟨by simp, by simp [withDeferred]⟩
    | true =>
        simp only [if_true]
        rcases controlLocked_plain
            (s.set k { st with applicationDone := true, pendingFIN := false })
            plainFin k [] .nobody with
          ⟨e, failed, outcome⟩ | ⟨-, -, outcome⟩ | ⟨alive, -, outcome⟩
        · exact .inl ⟨e, .inr failed, outcome⟩
        · exact .inl ⟨_, .inl rfl, outcome⟩
        · exact .inr ⟨fun _ => alive, outcome⟩
  rcases first with ⟨e, known, outcome⟩ | ⟨alive, outcome⟩
  · rw [outcome] at taken
    cases taken
    exact .inl ⟨e, false, rfl, known, by simp, by simp [withDeferred]⟩
  · rw [outcome] at taken
    simp only at taken
    rcases controlLocked_plain
        ((s.set k { st with applicationDone := true, pendingFIN := false }).withDeferred k
          st.pendingFIN) plainDone k [] .controlDone with
      ⟨e, failed, second⟩ | ⟨-, -, second⟩ | ⟨stillAlive, -, second⟩
    · rw [second] at taken
      cases taken
      rw [withDeferred_err] at failed
      exact .inl ⟨e, st.pendingFIN, rfl, .inr failed,
        fun pending => ⟨pending, alive pending⟩, rfl⟩
    · rw [second] at taken
      cases taken
      exact .inl ⟨.full, st.pendingFIN, rfl, .inl rfl,
        fun pending => ⟨pending, alive pending⟩, rfl⟩
    · rw [second] at taken
      cases taken
      rw [withDeferred_err] at stillAlive
      refine .inr ⟨stillAlive, rfl, ?_⟩
      rw [queued_set, withDeferred_set, set_set]

theorem track_withDeferred_self (s : Session) (k : Nat) (pending : Bool) :
    (s.withDeferred k pending).track k =
      { s.track k with
        queue := (s.track k).queue ++ (s.track k).deferredFin pending } := by
  cases pending with
  | false => simp [withDeferred, Track.deferredFin]
  | true => exact track_queued_self _ _ _ _ rfl

theorem track_withDeferred_other (s : Session) {j k : Nat} (pending : Bool)
    (different : k ≠ j) : (s.withDeferred j pending).track k = s.track k := by
  cases pending with
  | false => rfl
  | true => exact track_queued_other _ _ _ _ (Ne.symm different)

theorem finish_moves {s s' : Session} {j : Nat} {result : Option Err}
    (taken : s.finish j = some (s', result)) (k : Nat) :
    Track.Moves (s.Occurs (.finish j) k) (s.track k) (s'.track k) := by
  rcases finish_cases taken with ⟨st, here, free, same | ⟨unfailed, server, sent, ended,
    first, ⟨e, pending, -, -, deferred, rfl⟩ | ⟨alive, -, rfl⟩⟩⟩
  · rw [same.1]
    exact .refl _
  · by_cases own : k = j
    · subst own
      rw [track_willFail, track_withDeferred_self, track_set_self]
      exact .one ⟨rfl, .inr rfl⟩
        (.finishFull pending here free unfailed server sent ended first deferred)
    · rw [track_willFail, track_withDeferred_other _ _ own, track_set_other _ _ _ _ own]
      exact .refl _
  · by_cases own : k = j
    · subst own
      rw [track_queued_self _ _ _ _ rfl, track_withDeferred_self, track_set_self]
      exact .one ⟨rfl, .inl rfl⟩
        (.finish here free unfailed server sent ended first alive)
    · rw [track_queued_other _ _ _ _ (Ne.symm own), track_withDeferred_other _ _ own,
        track_set_other _ _ _ _ own]
      exact .refl _

/-- The session after `closeLocked`, apart from the RESET it may queue. -/
def shutStream (s : Session) (k : Nat) (st : Stream) (reason : Err) : Session :=
  { s.set k (st.shut reason) with
    streams := s.streams.filter (· ≠ k)
    reader := s.reader.discardFor k }

theorem closeLocked_silent (s : Session) {k : Nat} {st : Stream} (reason : Err)
    (unclosed : st.closed = false) :
    s.closeLocked k st reason false = (s.shutStream k st reason, none) := by
  simp [closeLocked, shutStream, unclosed]

/-- Everything `Close` can do. -/
theorem close_cases {s s' : Session} {k : Nat} (taken : s.close k = some s') :
    ∃ st, s.objs k = some st ∧
      (st.closed = true ∧ s' = s ∨
        st.closed = false ∧
          (st.applicationDone = false ∧ st.peerDone = false ∧ st.err = none ∧
              s.err = none ∧ s.queueFull ∧
              s' = (s.shutStream k st .closed).willFail (some .full) ∨
            st.applicationDone = false ∧ st.peerDone = false ∧ st.err = none ∧
              s.err = none ∧ ¬ s.queueFull ∧
              s' = (s.shutStream k st .closed).queued ⟨.reset, k, []⟩ .nobody ∨
            (st.applicationDone = true ∨ st.peerDone = true ∨ st.err ≠ none ∨
                s.err ≠ none) ∧
              ∃ e, (∀ cause, e = some cause → s.err = some cause) ∧
                s' = (s.shutStream k st .closed).willFail e)) := by
  unfold close at taken
  split at taken
  · cases taken
  next st here =>
  refine ⟨st, here, ?_⟩
  cases closed : st.closed with
  | true =>
      simp only [closeLocked, closed, if_true] at taken
      cases taken
      exact .inl ⟨rfl, by simp [willFail]⟩
  | false =>
      refine .inr ⟨rfl, ?_⟩
      simp only [closeLocked, closed, Bool.false_eq_true, if_false] at taken
      by_cases announced : (true && !(st.applicationDone || st.peerDone) &&
          st.err.isNone) = true
      · rw [if_pos announced] at taken
        simp only [Bool.true_and, Bool.and_eq_true, Bool.not_eq_true', Bool.or_eq_false_iff,
          Option.isNone_iff_eq_none] at announced
        have plain : Kind.reset ≠ Kind.credit := by decide
        rcases controlLocked_plain s plain k [] .nobody with
          ⟨e, failed, outcome⟩ | ⟨alive, full, outcome⟩ | ⟨alive, room, outcome⟩
        · simp only [outcome] at taken
          cases taken
          refine .inr (.inr ⟨.inr (.inr (.inr (by simp [failed]))), _, ?_, rfl⟩)
          intro cause found
          rw [Option.filter_eq_some_iff] at found
          exact failed.trans found.1
        · simp only [outcome] at taken
          cases taken
          exact .inl ⟨announced.1.1, announced.1.2, announced.2, alive, full, rfl⟩
        · simp only [outcome] at taken
          cases taken
          refine .inr (.inl ⟨announced.1.1, announced.1.2, announced.2, alive,
            not_le.mpr room, ?_⟩)
          simp [willFail, shutStream, queued, set]
      · rw [if_neg announced] at taken
        cases taken
        refine .inr (.inr ⟨?_, none, by simp, rfl⟩)
        by_contra alive
        simp only [not_or, Bool.not_eq_true, ne_eq, not_not] at alive
        exact announced (by simp [alive.1, alive.2.1, alive.2.2.1])

@[simp]
theorem halted_discardFor (reader : Reader) (k : Nat) :
    (reader.discardFor k).halted = reader.halted := by
  cases reader <;> rfl

theorem progress_discardFor_self (reader : Reader) (k : Nat) :
    (reader.discardFor k).progress k = Track.discarded (reader.progress k) := by
  cases reader with
  | receiving hd got discard =>
      by_cases own : hd.id = k <;>
        simp [Reader.discardFor, Reader.progress, Track.discarded, own]
  | header h => rfl
  | payload hd live p =>
      simp only [Reader.discardFor, Reader.progress]
      split_ifs <;> rfl
  | chunk hd live =>
      simp only [Reader.discardFor, Reader.progress]
      split_ifs <;> rfl
  | stopped cause last =>
      cases last <;> simp only [Reader.discardFor, Reader.progress, Track.discarded]
      split_ifs <;> rfl

theorem progress_discardFor_other (reader : Reader) {j k : Nat} (different : k ≠ j) :
    (reader.discardFor j).progress k = reader.progress k := by
  cases reader with
  | receiving hd got discard =>
      by_cases own : hd.id = k
      · simp [Reader.discardFor, Reader.progress, own, different]
      · simp [Reader.discardFor, Reader.progress, own]
  | _ => rfl

theorem track_shutStream_self (s : Session) (k : Nat) (st : Stream) (reason : Err) :
    (s.shutStream k st reason).track k =
      { s.track k with
        st := some (st.shut reason), listed := false
        progress := Track.discarded (s.track k).progress } := by
  simp [track, trackWith, shutStream, set, progress_discardFor_self]

theorem track_shutStream_other (s : Session) {j k : Nat} (st : Stream) (reason : Err)
    (different : k ≠ j) : (s.shutStream j st reason).track k = s.track k := by
  simp [track, trackWith, shutStream, set, different, progress_discardFor_other]

theorem close_moves {s s' : Session} {j : Nat} (taken : s.close j = some s') (k : Nat) :
    Track.Moves (s.Occurs (.close j) k) (s.track k) (s'.track k) := by
  rcases close_cases taken with ⟨st, here, same | ⟨unclosed,
    ⟨complete, done, unfailed, alive, full, rfl⟩ |
    ⟨complete, done, unfailed, alive, room, rfl⟩ | ⟨past, e, -, rfl⟩⟩⟩
  · rw [same.2]
    exact .refl _
  · by_cases own : k = j
    · subst own
      rw [track_willFail, track_shutStream_self]
      exact .one ⟨rfl, .inr ⟨rfl, full, alive, st, here, unclosed, complete, done, unfailed⟩⟩
        (.closeFull here unclosed ⟨complete, done⟩ unfailed alive)
    · rw [track_willFail, track_shutStream_other _ _ _ own]
      exact .refl _
  · by_cases own : k = j
    · subst own
      rw [track_queued_self _ _ _ _ rfl, track_shutStream_self]
      exact .one ⟨rfl, .inl rfl⟩
        (.close here unclosed ⟨complete, done⟩ unfailed alive)
    · rw [track_queued_other _ _ _ _ (Ne.symm own), track_shutStream_other _ _ _ own]
      exact .refl _
  · by_cases own : k = j
    · subst own
      rw [track_willFail, track_shutStream_self]
      exact .one ⟨rfl, .inl rfl⟩ (.closeQuiet here unclosed past)
    · rw [track_willFail, track_shutStream_other _ _ _ own]
      exact .refl _

/-! ## Reading -/

/-- A queued CREDIT that took a refund; the other streams' queues stay as they were. -/
theorem filter_merged {before after : List Control} {c c' : Control} {j k : Nat}
    (id : c.frame.id = j) (id' : c'.frame.id = j) (different : k ≠ j) :
    (before ++ c' :: after).filter (·.frame.id = k) =
      (before ++ c :: after).filter (·.frame.id = k) := by
  simp [id, id', Ne.symm different]

/-- One turn of the drain loop that takes a whole block. -/
theorem pop_moves {s : Session} {k : Nat} {st : Stream} {c : Chunk} {rest : List Chunk}
    {room : Nat} (here : s.objs k = some st) (front : st.unread = c :: rest)
    (whole : c.start + (c.rest.take room).length = c.b.length)
    (complete : c.complete = true) :
    c.rest.take room = c.rest ∧
      Track.Move .read (s.track k) { s.track k with st := some (st.pop c.rest) } := by
  have all : c.rest.length ≤ room := by
    simp only [List.length_take, Chunk.rest, List.length_drop] at *
    omega
  exact ⟨List.take_of_length_le all, .pop here front complete (by omega)⟩

theorem controlLocked_shape (s : Session) (t : Kind) (id : Nat) (p : List Byte)
    (done : Waiter) : (s.controlLocked t id p done).1.shape = s.shape := by
  unfold controlLocked
  split
  · rfl
  · split
    · rfl
    · rfl
    · split_ifs <;> rfl

theorem controlLocked_objs (s : Session) (t : Kind) (id : Nat) (p : List Byte)
    (done : Waiter) : (s.controlLocked t id p done).1.objs = s.objs := by
  unfold controlLocked
  split
  · rfl
  · split
    · rfl
    · rfl
    · split_ifs <;> rfl

/-- Whatever the refund of one turn does, it moves the stream's own track. -/
theorem refund_moves {s s' : Session} {k n : Nat} {st : Stream} {e : Option Err}
    (here : s.objs k = some st) (due : (st.refundAt : Int) ≤ st.refund)
    (unfailed : st.err = none) (unclosed : st.closed = false)
    (positive : e = none → 0 < n)
    (refunded : s.controlLocked .credit k (bigEndian 2 st.refund.toNat) .nobody = (s', e))
    (j : Nat) :
    (e ≠ none ∧ s' = s) ∨
      e = none ∧ Track.Moves (fun event => k = j ∧ event = .read) (s.track j)
        ((s'.set k (st.granted n)).track j) := by
  rcases controlLocked_credit s k (bigEndian 2 st.refund.toNat) .nobody with
    ⟨_, -, outcome⟩ | ⟨-, -, outcome⟩ | ⟨alive, none_, outcome⟩ |
    ⟨before, c, after, alive, split_, kind, id, ⟨-, outcome⟩ | ⟨fits, outcome⟩⟩
  · cases outcome.symm.trans refunded
    exact .inl ⟨by simp, rfl⟩
  · cases outcome.symm.trans refunded
    exact .inl ⟨by simp, rfl⟩
  · cases outcome.symm.trans refunded
    refine .inr ⟨rfl, ?_⟩
    rw [queued_set]
    refine set_queued_moves rfl fun own => ?_
    subst own
    refine .one ⟨rfl, rfl⟩ (.grant n here due unfailed unclosed alive ?_ (positive rfl))
    intro c member
    have member := List.mem_filter.mp member
    exact none_ c member.1 (by simpa using member.2)
  · cases outcome.symm.trans refunded
    exact .inl ⟨by simp, rfl⟩
  · cases outcome.symm.trans refunded
    refine .inr ⟨rfl, ?_⟩
    by_cases own : j = k
    · subst own
      rw [track_set_self]
      have queue : (s.track j).queue = before.filter (·.frame.id = j) ++
          c :: after.filter (·.frame.id = j) := by
        simp [track, split_, id]
      refine .one ⟨rfl, rfl⟩ ?_
      have move := Track.Move.merge n here due unfailed unclosed alive queue kind fits
        (positive rfl)
      simpa [track, trackWith, id] using move
    · have same : ({ s with controls := before ++ { c with frame := { c.frame with
            payload := bigEndian 2
              (c.frame.amount + fromBigEndian (bigEndian 2 st.refund.toNat)) } } ::
              after }).track j = s.track j := by
        simp only [track, trackWith, split_, Track.mk.injEq, true_and, and_true]
        exact filter_merged id id own
      rw [track_set_other _ _ _ _ own, same]
      exact .refl _

theorem drain_moves (k : Nat) (draw : Nat → Nat) (fuel room : Nat) (got : List Byte)
    (s : Session) (shape : s.shape.Valid) (j : Nat) :
    Track.Moves (fun event => k = j ∧ event = .read) (s.track j)
      ((drain k draw fuel room got s).1.track j) := by
  induction fuel generalizing room got s with
  | zero => exact .refl _
  | succ fuel induction =>
      rw [drain]
      split
      · exact .refl _
      next st here =>
      split
      · exact .refl _
      next c rest front =>
      split
      · exact .refl _
      next readable =>
      simp only
      split
      · next unfinished =>
          refine set_moves fun own => ?_
          subst own
          exact .one ⟨rfl, rfl⟩
            (.advance _ here front (List.take_prefix _ _) unfinished)
      next whole =>
      simp only [not_or, ne_eq, not_not, Bool.not_eq_false] at whole
      have popped : ∃ bytes, c.rest.take room = bytes ∧
          Track.Moves (fun event => k = j ∧ event = .read) (s.track j)
            ((s.set k (st.pop bytes)).track j) := by
        rcases pop_moves here front whole.1 whole.2 with ⟨all, move⟩
        refine ⟨_, rfl, set_moves fun own => ?_⟩
        subst own
        rw [all]
        exact .one ⟨rfl, rfl⟩ move
      rcases popped with ⟨bytes, taken, popped⟩
      rw [taken]
      split
      · next due =>
          split
          · next s' e refunded =>
              rcases refund_moves (n := 0) (by simp [set]) due.1 due.2.1 due.2.2
                (by simp) refunded j with ⟨-, same⟩ | ⟨impossible, -⟩
              · rw [same]
                exact popped
              · cases impossible
          · next s' refunded =>
              have same : s'.shape = s.shape := by
                have kept := congrArg (fun result => result.1.shape) refunded
                rw [controlLocked_shape] at kept
                exact kept.symm
              rw [← same] at shape
              rcases refund_moves (n := s'.shape.credit.choose (draw fuel))
                (by simp [set]) due.1 due.2.1 due.2.2 (fun _ => shape.credit_pos _)
                refunded j with
                ⟨impossible, -⟩ | ⟨-, granted⟩
              · exact (impossible rfl).elim
              · exact (popped.trans granted).trans (induction _ _ _ shape)
      · exact popped.trans (induction _ _ _ shape)

theorem read_moves {s s' : Session} (shape : s.shape.Valid) {j n : Nat} {draw : Nat → Nat}
    {result : ReadResult} (taken : s.read j n draw = some (s', result)) (k : Nat) :
    Track.Moves (s.Occurs (.read j n draw) k) (s.track k) (s'.track k) := by
  unfold read at taken
  split at taken
  · cases taken
  next st here =>
  split at taken
  · cases taken
    exact .refl _
  · cases taken
    rw [track_willFail]
    exact drain_moves j draw _ n [] s shape k

/-! ## What a call leaves alone -/

/-- The identifiers of the OPEN frames in a list. -/
def opens (frames : List Frame) : List Nat := (frames.filter (·.kind = .open)).map Frame.id

@[simp]
theorem opens_append (first second : List Frame) :
    opens (first ++ second) = opens first ++ opens second := by
  simp [opens]

theorem opens_other {f : Frame} (other : f.kind ≠ .open) : opens [f] = [] := by
  simp [opens, other]

theorem opens_cons (f : Frame) (rest : List Frame) : opens (f :: rest) = opens [f] ++ opens rest :=
  opens_append [f] rest

/-- The identifiers of the OPEN frames in the control queue. -/
def openings (s : Session) : List Nat := opens (s.controls.map Control.frame)

/--
What a call on a stream leaves alone: the read loop but for a discarded block,
the write loop, the session's own error and the histories of the transport.
-/
structure Kept (s s' : Session) : Prop where
  server : s'.server = s.server
  shape : s'.shape = s.shape
  cancelled : s'.cancelled = s.cancelled
  lastID : s'.lastID = s.lastID
  err : s'.err = s.err
  accepted : s'.accepted = s.accepted
  preamble : s'.preamble = s.preamble
  writer : s'.writer = s.writer
  emitted : s'.emitted = s.emitted
  processed : s'.processed = s.processed
  received : s'.received = s.received
  sent : s'.sent = s.sent
  reader : s'.reader = s.reader ∨ ∃ k, s'.reader = s.reader.discardFor k
  streams : s'.streams = s.streams ∨ ∃ k, s'.streams = s.streams.filter (· ≠ k)
  openings : s'.openings = s.openings
  failing : ∀ e ∈ s'.failing,
    e ∈ s.failing ∨ e = .full ∨ e = .protocol ∨ s.err = some e

namespace Kept

theorem refl (s : Session) : Kept s s where
  server := rfl
  shape := rfl
  cancelled := rfl
  lastID := rfl
  err := rfl
  accepted := rfl
  preamble := rfl
  writer := rfl
  emitted := rfl
  processed := rfl
  received := rfl
  sent := rfl
  reader := .inl rfl
  streams := .inl rfl
  openings := rfl
  failing _ member := .inl member

/-- Replacing streams, controls and the wake-up flag changes nothing else. -/
theorem update {s s' : Session} (kept : Kept s s') (objs : Nat → Option Stream)
    (controls : List Control) (wake : Bool)
    (same : opens (controls.map Control.frame) = s'.openings) :
    Kept s { s' with objs := objs, controls := controls, wake := wake } :=
  ⟨kept.server, kept.shape, kept.cancelled, kept.lastID, kept.err, kept.accepted,
    kept.preamble, kept.writer, kept.emitted, kept.processed, kept.received, kept.sent,
    kept.reader, kept.streams, same.trans kept.openings, kept.failing⟩

theorem set {s s' : Session} (kept : Kept s s') (k : Nat) (st : Stream) :
    Kept s (s'.set k st) :=
  kept.update _ s'.controls s'.wake rfl

theorem queued {s s' : Session} (kept : Kept s s') {f : Frame} (other : f.kind ≠ .open)
    (done : Waiter) : Kept s (s'.queued f done) := by
  refine kept.update s'.objs _ true ?_
  rw [List.map_append, opens_append, List.map_singleton, opens_other other, List.append_nil]
  rfl

theorem withDeferred {s s' : Session} (kept : Kept s s') (k : Nat) (pending : Bool) :
    Kept s (s'.withDeferred k pending) := by
  cases pending with
  | false => exact kept
  | true => exact kept.queued (by simp) _

theorem willFail {s s' : Session} (kept : Kept s s') {e : Option Err}
    (plain : ∀ cause, e = some cause →
      cause = .full ∨ cause = .protocol ∨ s.err = some cause) :
    Kept s (s'.willFail e) where
  server := kept.server
  shape := kept.shape
  cancelled := kept.cancelled
  lastID := kept.lastID
  err := kept.err
  accepted := kept.accepted
  preamble := kept.preamble
  writer := kept.writer
  emitted := kept.emitted
  processed := kept.processed
  received := kept.received
  sent := kept.sent
  reader := kept.reader
  streams := kept.streams
  openings := kept.openings
  failing cause member := by
    rcases List.mem_append.mp member with old | new
    · exact kept.failing cause old
    · exact .inr (plain cause (by simpa using new))

theorem shutStream (s : Session) (k : Nat) (st : Stream) (reason : Err) :
    Kept s (s.shutStream k st reason) :=
  { refl s with
    reader := .inr ⟨k, rfl⟩
    streams := .inr ⟨k, rfl⟩ }

/-- `controlLocked` changes the control queue only, and names why it refuses. -/
theorem controlLocked {s s' : Session} (kept : Kept s s') {t : Kind} (other : t ≠ .open)
    (id : Nat) (p : List Byte) (done : Waiter) :
    Kept s (s'.controlLocked t id p done).1 ∧
      ∀ cause, (s'.controlLocked t id p done).2 = some cause →
        cause = .full ∨ cause = .protocol ∨ s.err = some cause := by
  by_cases credit : t = .credit
  · subst credit
    rcases controlLocked_credit s' id p done with ⟨e, failed, outcome⟩ |
      ⟨-, -, outcome⟩ | ⟨-, -, outcome⟩ |
      ⟨before, c, after, -, queue, kind, -, ⟨-, outcome⟩ | ⟨-, outcome⟩⟩ <;> rw [outcome]
    · refine ⟨kept, fun cause found => .inr (.inr ?_)⟩
      cases found
      rw [← kept.err, failed]
    · exact ⟨kept, fun cause found => .inl (Option.some.inj found).symm⟩
    · exact ⟨kept.queued (by simp) _, by simp⟩
    · exact ⟨kept, fun cause found => .inr (.inl (Option.some.inj found).symm)⟩
    · refine ⟨kept.update s'.objs _ s'.wake ?_, by simp⟩
      simp [Session.openings, queue, opens, kind]
  · rcases controlLocked_plain s' credit id p done with
      ⟨e, failed, outcome⟩ | ⟨-, -, outcome⟩ | ⟨-, -, outcome⟩ <;> rw [outcome]
    · refine ⟨kept, fun cause found => .inr (.inr ?_)⟩
      cases found
      rw [← kept.err, failed]
    · exact ⟨kept, fun cause found => .inl (Option.some.inj found).symm⟩
    · exact ⟨kept.queued other _, by simp⟩

end Kept

theorem respond_kept {s s' : Session} {k : Nat} {code : Byte} {result : Option Err}
    (taken : s.respond k code = some (s', result)) : Kept s s' := by
  rcases respond_cases taken with
    ⟨st, -, -, ⟨rfl, -⟩ | ⟨-, -, -, -, ⟨-, -, rfl⟩ | ⟨-, -, -, rfl⟩⟩⟩
  · exact .refl _
  · exact (Kept.refl s).set _ _
  · refine ((Kept.refl s).set _ _).queued ?_ _
    unfold response
    split_ifs <;> simp

theorem callReturn_kept {s s' : Session} {k : Nat} {wake : Wake} {result : Option Err}
    (taken : s.callReturn k wake = some (s', result)) : Kept s s' := by
  rcases callReturn_cases taken with
    ⟨st, -, ⟨-, -, rest, -, rfl⟩ | ⟨-, -, rest, -, rfl⟩ | ⟨-, -, -, -, rfl⟩⟩ <;>
    exact (Kept.refl s).set _ _

theorem write_kept {s s' : Session} {k : Nat} {p : List Byte}
    {result : Option (Option Err)} (taken : s.write k p = some (s', result)) :
    Kept s s' := by
  rcases write_cases taken with ⟨st, -, -, ⟨rfl, -⟩ | ⟨-, -, -, -, -, -, rfl⟩⟩
  · exact .refl _
  · exact (Kept.refl s).update _ s.controls true rfl

theorem writeReturn_kept {s s' : Session} {k n : Nat} {e : Option Err}
    (taken : s.writeReturn k = some (s', n, e)) : Kept s s' := by
  rcases writeReturn_cases taken with ⟨st, r, rest, -, -, -, -, rfl⟩
  exact (Kept.refl s).set _ _

theorem closeWrite_kept {s s' : Session} {k : Nat} {result : Option (Option Err)}
    (taken : s.closeWrite k = some (s', result)) : Kept s s' := by
  rcases closeWrite_cases taken with ⟨st, -, -, ⟨rfl, -⟩ | ⟨-, -, -, -, ⟨-, -, -, rfl⟩ |
    ⟨-, ⟨-, -, rfl⟩ | ⟨-, -, rfl⟩⟩⟩⟩
  · exact .refl _
  · exact (Kept.refl s).set _ _
  · exact (Kept.refl s).set _ _
  · exact ((Kept.refl s).set _ _).queued (by simp) _

theorem finish_kept {s s' : Session} {k : Nat} {result : Option Err}
    (taken : s.finish k = some (s', result)) : Kept s s' := by
  rcases finish_cases taken with ⟨st, -, -, ⟨rfl, -⟩ | ⟨-, -, -, -, -,
    ⟨e, pending, -, known, -, rfl⟩ | ⟨-, -, rfl⟩⟩⟩
  · exact .refl _
  · refine (((Kept.refl s).set _ _).withDeferred _ _).willFail fun cause found => ?_
    cases found
    rcases known with full | failed
    · exact .inl full
    · exact .inr (.inr failed)
  · exact (((Kept.refl s).set _ _).withDeferred _ _).queued (by simp) _

theorem close_kept {s s' : Session} {k : Nat} (taken : s.close k = some s') :
    Kept s s' := by
  rcases close_cases taken with ⟨st, -, ⟨-, rfl⟩ | ⟨-, ⟨-, -, -, -, -, rfl⟩ |
    ⟨-, -, -, -, -, rfl⟩ | ⟨-, e, known, rfl⟩⟩⟩
  · exact .refl _
  · exact (Kept.shutStream s k st .closed).willFail (by simp)
  · exact (Kept.shutStream s k st .closed).queued (by simp) _
  · exact (Kept.shutStream s k st .closed).willFail
      fun cause found => .inr (.inr (known cause found))

theorem drain_kept (k : Nat) (draw : Nat → Nat) (fuel room : Nat) (got : List Byte)
    {s s' : Session} (kept : Kept s s') :
    Kept s (drain k draw fuel room got s').1 ∧
      ∀ cause, (drain k draw fuel room got s').2.2 = some cause →
        cause = .full ∨ cause = .protocol ∨ s.err = some cause := by
  induction fuel generalizing room got s' with
  | zero => exact ⟨kept, by simp [drain]⟩
  | succ fuel induction =>
      rw [drain]
      split
      · exact ⟨kept, by simp⟩
      next st here =>
      split
      · exact ⟨kept, by simp⟩
      next c rest front =>
      split
      · exact ⟨kept, by simp⟩
      simp only
      split
      · exact ⟨kept.set _ _, by simp⟩
      split
      · have refunded := (kept.set k (st.pop (c.rest.take room))).controlLocked
          (t := .credit) (by simp) k (bigEndian 2 (st.pop (c.rest.take room)).refund.toNat) .nobody
        split
        · next refused =>
            rw [refused] at refunded
            exact refunded
        · next granted =>
            rw [granted] at refunded
            exact induction _ _ (refunded.1.set _ _)
      · exact induction _ _ (kept.set _ _)

theorem read_kept {s s' : Session} {k n : Nat} {draw : Nat → Nat} {result : ReadResult}
    (taken : s.read k n draw = some (s', result)) : Kept s s' := by
  unfold read at taken
  split at taken
  · cases taken
  next st here =>
  split at taken
  · cases taken
    exact .refl _
  · cases taken
    have drained := drain_kept k draw st.unread.length n [] (Kept.refl s)
    exact drained.1.willFail drained.2

end Session

end Veil.Mux

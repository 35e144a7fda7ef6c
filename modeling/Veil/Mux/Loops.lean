import Veil.Mux.Refine

/-!
# The loops of a session move every track

The second half of the refinement: the failure of a session, the read loop and
the write loop.  A step of the read loop concerns the stream of the frame it is
reading, except that an OPEN also sweeps completed streams and that the end of
the loop is visible to every stream.  A batch is a sequence of moves, one for
each frame put into it.

`Sound` collects what these steps rely on and what does not concern any single
stream.  The theorem `step_moves` joins both halves.
-/

namespace Veil.Mux

open Veil.Lib

namespace Reader

/-- The read loop's position agrees with the checks it has passed. -/
def Fits (server : Bool) (lastID : Nat) : Reader → Prop
  | .header h => h.length ≤ headerSize
  | .payload hd _ p =>
      hd.Valid ∧ hd.kind ≠ .data ∧ p.length ≤ hd.length ∧
        (hd.kind = .open → server = true ∧ lastID < hd.id)
  | .chunk hd _ => hd.Valid ∧ hd.kind = .data
  | .receiving hd got _ => hd.Valid ∧ hd.kind = .data ∧ got.length < hd.length
  | .stopped _ _ => True

end Reader

namespace Session

/-- What the steps of a session rely on beyond the state of single streams. -/
structure Sound (s : Session) : Prop where
  shape : s.shape.Valid
  odd : s.server = false → s.lastID = 0 ∨ s.lastID % 2 = 1
  reading : s.reader.Fits s.server s.lastID
  failing : .eof ∈ s.failing → s.reader.halted = true
  err : s.err = some .eof → s.reader.halted = true

/-! ## Failure -/

/-- Everything `fail` does, when it is the first failure. -/
theorem fail_moves {s : Session} {e : Err} (ended : e = .eof → s.reader.halted = true)
    (k : Nat) : Track.Moves (· = .inner) (s.track k) ((s.fail e).track k) := by
  unfold fail
  split
  · exact .refl _
  next alive =>
  cases here : s.objs k with
  | none =>
      have moved : ({ s with
            err := some e
            objs := fun k => (s.objs k).map (s.failStream e k)
            controls := [] } : Session).track k =
          { s.track k with err := some e, queue := [] } := by
        simp [track, trackWith, here]
      rw [moved]
      exact .one rfl (.failBare e alive ended here)
  | some st =>
      have moved : ({ s with
            err := some e
            objs := fun k => (s.objs k).map (s.failStream e k)
            controls := [] } : Session).track k =
          { s.track k with
            err := some e
            st := some ((if (s.track k).listed = true ∧ ¬ st.peerDone
              then st.stop (streamError e) else st).notifyAll (some e) (s.track k).queue)
            queue := [] } := by
        simp only [track, trackWith, here, List.contains_iff_mem, List.filter_nil]
        rfl
      rw [moved]
      exact .one rfl (.fail e alive ended here)

/-! ## The read loop -/

/-- The read loop moves on: only the position that concerns the track changes. -/
theorem reader_moves {allowed : Event → Prop} {s s' : Session} {reader : Reader} {k : Nat}
    (moves : Track.Moves allowed (s.track k)
      { s'.track k with halted := reader.halted, progress := reader.progress k }) :
    Track.Moves allowed (s.track k) (({ s' with reader := reader }).track k) :=
  moves

/-- The read loop moves on without touching the track. -/
theorem reader_refl {allowed : Event → Prop} {s s' : Session} {reader : Reader} {k : Nat}
    (same : s'.track k = s.track k) (halted : reader.halted = (s.track k).halted)
    (progress : reader.progress k = (s.track k).progress) :
    Track.Moves allowed (s.track k) (({ s' with reader := reader }).track k) := by
  refine reader_moves ?_
  rw [same, halted, progress]
  exact .refl _

/-- The read loop ends outside a DATA payload. -/
theorem stopReader_moves {s : Session} (cause : Err) {r : Reader} {k : Nat}
    (before : s.reader.progress k = .away ∨ ∃ live, s.reader.progress k = .control live)
    (after : (Reader.stopped cause r).progress k = .away) :
    Track.Moves (· = .inner) (s.track k) ((s.stopReader cause r).track k) := by
  have moved : (s.stopReader cause r).track k =
      { s.track k with halted := true, progress := .away } := by
    simp [stopReader, track, trackWith, after, Reader.halted]
  rw [moved]
  exact .one rfl (.halt before)

theorem track_stopReader (s : Session) (cause : Err) (last : Reader) (k : Nat) :
    (s.stopReader cause last).track k =
      { s.track k with
        halted := true, progress := (Reader.stopped cause last).progress k } := rfl

/-- The session after a frame has been read and has taken effect. -/
def consumed (s : Session) (f : Frame) : Session :=
  { s with reader := .header [], processed := s.processed ++ [f] }

theorem track_consumed_self (s : Session) {f : Frame} {k : Nat} (own : f.id = k)
    {halted : Bool} {progress : Progress} (reading : halted = false)
    (away : progress = .away) :
    (s.consumed f).track k =
      { s.track k with
        halted := halted, progress := progress, inn := (s.track k).inn ++ [f] } := by
  simp [consumed, track, trackWith, Reader.halted, Reader.progress, own, reading, away]

theorem track_consumed_other (s : Session) {f : Frame} {k : Nat} (other : f.id ≠ k)
    {halted : Bool} {progress : Progress} (reading : halted = false)
    (away : progress = .away) :
    (s.consumed f).track k = { s.track k with halted := halted, progress := progress } := by
  simp [consumed, track, trackWith, Reader.halted, Reader.progress, other, reading, away]

/-- Why the header check refuses a header. -/
def Refuses (s : Session) (h : List Byte) : Prop :=
  readHeader h = none ∨ ∃ hd, readHeader h = some hd ∧
    (hd.kind = .open ∧ ¬ (s.server = true ∧ s.lastID < hd.id) ∨
      hd.kind ≠ .open ∧ s.lastID < hd.id ∨
      hd.kind = .data ∧ ∃ st, s.lookup hd.id = some st ∧
        ¬ (st.ready = true ∧ st.remoteFIN = false ∧ 0 < st.recvCredit))

/-- Everything the header check can do. -/
theorem check_cases {s s' : Session} (taken : s.check = some s') :
    ∃ h, s.reader = .header h ∧ h.length = headerSize ∧
      (s.Refuses h ∧ s' = s.stopReader .protocol (.header h) ∨
        ∃ hd, readHeader h = some hd ∧
          (hd.kind = .data ∧ hd.id ≤ s.lastID ∧ s.lookup hd.id = none ∧
              s' = { s with reader := .chunk hd false } ∨
            hd.kind = .data ∧ hd.id ≤ s.lastID ∧
              (∃ st, s.lookup hd.id = some st ∧ st.ready = true ∧ st.remoteFIN = false ∧
                0 < st.recvCredit ∧
                s' = { s.set hd.id { st with recvCredit := st.recvCredit - 1 } with
                  reader := .chunk hd true }) ∨
            hd.kind ≠ .data ∧ (hd.kind = .open → s.server = true ∧ s.lastID < hd.id) ∧
              (hd.kind ≠ .open → hd.id ≤ s.lastID) ∧
              s' = { s with reader := .payload hd (s.lookup hd.id).isSome [] })) := by
  unfold check at taken
  split at taken
  next h position =>
    split at taken
    · cases taken
    next full =>
    refine ⟨h, position, not_not.mp full, ?_⟩
    split at taken
    · next bad =>
        cases taken
        exact .inl ⟨.inl bad, rfl⟩
    next hd read =>
    simp only at taken
    split at taken
    · next data =>
        have other : hd.kind ≠ .open := by rw [data]; decide
        rw [if_neg other] at taken
        split at taken
        · next missing =>
            split at taken
            · next old =>
                cases taken
                exact .inr ⟨hd, read, .inl ⟨data, by simpa using old, missing, rfl⟩⟩
            · next high =>
                cases taken
                exact .inl ⟨.inr ⟨hd, read, .inr (.inl ⟨other, by simpa using high⟩)⟩, rfl⟩
        · next st found =>
            split at taken
            · next fine =>
                cases taken
                simp only [Bool.and_eq_true, decide_eq_true_eq, Bool.not_eq_true'] at fine
                exact .inr ⟨hd, read, .inr (.inl ⟨data, fine.1.1.1, st, found,
                  fine.1.1.2, fine.1.2, fine.2, rfl⟩)⟩
            · next bad =>
                cases taken
                refine .inl ⟨.inr ⟨hd, read, ?_⟩, rfl⟩
                by_cases old : hd.id ≤ s.lastID
                · refine .inr (.inr ⟨data, st, found, ?_⟩)
                  rintro ⟨opened, unended, window⟩
                  exact bad (by simp [old, opened, unended, window])
                · exact .inr (.inl ⟨other, by omega⟩)
    · next control =>
        by_cases open_ : hd.kind = .open
        · rw [if_pos open_] at taken
          split at taken
          · next fine =>
              cases taken
              exact .inr ⟨hd, read, .inr (.inr ⟨control, fun _ => by simpa using fine,
                fun other => (other open_).elim, rfl⟩)⟩
          · next bad =>
              cases taken
              refine .inl ⟨.inr ⟨hd, read, .inl ⟨open_, ?_⟩⟩, rfl⟩
              simpa using bad
        · rw [if_neg open_] at taken
          split at taken
          · next old =>
              cases taken
              exact .inr ⟨hd, read, .inr (.inr ⟨control, fun yes => (open_ yes).elim,
                fun _ => by simpa using old, rfl⟩)⟩
          · next high =>
              cases taken
              exact .inl ⟨.inr ⟨hd, read, .inr (.inl ⟨open_, by simpa using high⟩)⟩, rfl⟩
  · cases taken

theorem lookup_some {s : Session} {k : Nat} {st : Stream} :
    s.lookup k = some st ↔ k ∈ s.streams ∧ s.objs k = some st ∧ st.err = none := by
  unfold lookup
  split_ifs with listed
  · simp [Option.filter_eq_some_iff, listed, Option.isNone_iff_eq_none]
  · simp [listed]

/-- The lookup of the read loop is the liveness of the track. -/
theorem lookup_live (s : Session) (k : Nat) : (s.lookup k).isSome = (s.track k).live := by
  unfold lookup Track.live track trackWith
  by_cases listed : k ∈ s.streams
  · cases found : s.objs k with
    | none => simp [listed]
    | some st => cases failed : st.err <;> simp [listed, Option.filter, failed]
  · simp [listed]

theorem check_moves {s s' : Session} (taken : s.check = some s') (k : Nat) :
    Track.Moves (· = .inner) (s.track k) (s'.track k) := by
  rcases check_cases taken with ⟨h, position, -, ⟨-, rfl⟩ | ⟨hd, -,
    ⟨data, old, missing, rfl⟩ | ⟨data, old, st, found, opened, unended, window, rfl⟩ |
    ⟨control, open_, other, rfl⟩⟩⟩
  all_goals
    have away : (s.track k).progress = .away := by
      simp [track, position, Reader.progress]
    have reading : (s.track k).halted = false := by
      simp [track, position, Reader.halted]
  · exact stopReader_moves _ (.inl away) rfl
  · by_cases own : hd.id = k
    · subst own
      have dead : (s.track hd.id).live = false := by
        rw [← lookup_live, missing]
        rfl
      have move := Track.Move.checkedDead away dead ((track_above_false _ _).mpr old)
      refine reader_moves (.one rfl ?_)
      simpa [Reader.halted, Reader.progress, ← reading] using move
    · exact reader_refl rfl reading.symm (by rw [away]; simp [Reader.progress, own])
  · by_cases own : hd.id = k
    · subst own
      rcases lookup_some.mp found with ⟨listed, here, unfailed⟩
      have move := Track.Move.checked away reading
        ((trackWith_listed _ _ _ _).mpr listed) here unfailed opened unended window
      refine reader_moves (.one rfl ?_)
      rw [track_set_self]
      simpa [Reader.halted, Reader.progress, ← reading] using move
    · exact reader_refl (track_set_other _ _ _ _ (Ne.symm own)) reading.symm
        (by rw [away]; simp [Reader.progress, own])
  · by_cases own : hd.id = k ∧ hd.kind ≠ .open
    · rcases own with ⟨rfl, plain⟩
      have move := Track.Move.control away ((track_above_false _ _).mpr (other plain))
      refine reader_moves (.one rfl ?_)
      simpa [Reader.halted, Reader.progress, ← reading, plain, lookup_live] using move
    · refine reader_refl rfl reading.symm ?_
      rw [away]
      simp only [Reader.progress, own, if_false]

/-- Everything the first critical section of `receive` can do. -/
theorem takeChunk_cases {s s' : Session} (taken : s.takeChunk = some s') :
    ∃ hd live, s.reader = .chunk hd live ∧
      ((∃ st, s.objs hd.id = some st ∧ live = true ∧ hd.id ∈ s.streams ∧ st.closed = false ∧
          s' = { s.set hd.id { st with queue := st.queue ++ [⟨[], 0, false⟩] } with
            reader := .receiving hd [] false }) ∨
        ¬ (live = true ∧ hd.id ∈ s.streams ∧
            ∃ st, s.objs hd.id = some st ∧ st.closed = false) ∧
          s' = { s with reader := .receiving hd [] true }) := by
  unfold takeChunk at taken
  split at taken
  next hd live position =>
    refine ⟨hd, live, position, ?_⟩
    split at taken
    · next st here =>
        split at taken
        · next fine =>
            cases taken
            simp only [Bool.and_eq_true, decide_eq_true_eq, Bool.not_eq_true'] at fine
            exact .inl ⟨st, here, fine.1.1, fine.1.2, fine.2, rfl⟩
        · next dead =>
            cases taken
            refine .inr ⟨?_, rfl⟩
            rintro ⟨alive, listed, st', here', unclosed⟩
            cases here.symm.trans here'
            exact dead (by simp [alive, listed, unclosed])
    · next missing =>
        cases taken
        refine .inr ⟨?_, rfl⟩
        rintro ⟨-, -, st, here, -⟩
        cases missing.symm.trans here
  · cases taken

theorem takeChunk_moves {s s' : Session} (taken : s.takeChunk = some s') (k : Nat) :
    Track.Moves (· = .inner) (s.track k) (s'.track k) := by
  rcases takeChunk_cases taken with ⟨hd, live, position,
    ⟨st, here, alive, listed, unclosed, rfl⟩ | ⟨dead, rfl⟩⟩
  all_goals
    have reading : (s.track k).halted = false := by
      simp [track, position, Reader.halted]
    have progress : (s.track k).progress = if hd.id = k then .checked live else .away := by
      simp [track, position, Reader.progress]
  · by_cases own : hd.id = k
    · subst own
      rw [if_pos rfl, alive] at progress
      have move := Track.Move.keepChunk progress ((trackWith_listed _ _ _ _).mpr listed)
        here unclosed
      refine reader_moves (.one rfl ?_)
      rw [track_set_self]
      simpa [Reader.halted, Reader.progress, ← reading] using move
    · refine reader_refl (track_set_other _ _ _ _ (Ne.symm own)) reading.symm ?_
      rw [progress]
      simp [Reader.progress, own]
  · by_cases own : hd.id = k
    · subst own
      rw [if_pos rfl] at progress
      have move := Track.Move.dropChunk progress (by
        rw [show (s.track hd.id).listed = true ↔ _ from trackWith_listed _ _ _ _]
        exact dead)
      refine reader_moves (.one rfl ?_)
      simpa [Reader.halted, Reader.progress, ← reading] using move
    · refine reader_refl rfl reading.symm ?_
      rw [progress]
      simp [Reader.progress, own]

/-- The session after the read loop's bytes are recorded. -/
def hears (s : Session) (bs : List Byte) : Session :=
  { s with received := s.received ++ bs }

/-- The error of the header reader when the transport returned `e`. -/
def headerError (h : List Byte) (e : Err) : Err :=
  if e = .eof then (if h = [] then .eof else .unexpectedEOF) else e

/-- Everything a read of header bytes can do. -/
theorem recvHeader_cases {s s' : Session} {h bs : List Byte} {e : Option Err}
    (taken : s.recvHeader h bs e = some s') :
    h.length < headerSize ∧ (h ++ bs).length ≤ headerSize ∧
      (((h ++ bs).length = headerSize ∨ e = none) ∧
          s' = { s with reader := .header (h ++ bs) } ∨
        (h ++ bs).length < headerSize ∧ ∃ cause, e = some cause ∧
          s' = s.stopReader (headerError (h ++ bs) cause) (.header (h ++ bs))) := by
  unfold recvHeader at taken
  split at taken
  · cases taken
  next fits =>
  simp only [not_or, not_le, not_lt] at fits
  rw [← List.length_append] at fits
  refine ⟨fits.1, fits.2, ?_⟩
  simp only at taken
  split at taken
  · next full =>
      cases taken
      exact .inl ⟨.inl full, rfl⟩
  next short =>
  split at taken
  · cases taken
    exact .inl ⟨.inr rfl, rfl⟩
  · cases taken
    exact .inr ⟨by omega, .eof, rfl, by simp [headerError]⟩
  · next cause other =>
      cases taken
      have plain : cause ≠ .eof := fun same => other (same ▸ rfl)
      exact .inr ⟨by omega, cause, rfl, by simp [headerError, plain]⟩

/-- Everything a read of a control payload can do. -/
theorem recvPayload_cases {s s' : Session} {hd : Header} {live : Bool} {p bs : List Byte}
    {e : Option Err} (taken : s.recvPayload hd live p bs e = some s') :
    p.length < hd.length ∧ (p ++ bs).length ≤ hd.length ∧
      (e = none ∧ bs ≠ [] ∧ s' = { s with reader := .payload hd live (p ++ bs) } ∨
        ∃ cause, (e = some cause ∨ e = none ∧ bs = [] ∧ cause = .noProgress) ∧
          s' = s.stopReader cause (.payload hd live (p ++ bs))) := by
  unfold recvPayload at taken
  split at taken
  · cases taken
  next fits =>
  simp only [not_or, not_le, not_lt] at fits
  rw [← List.length_append] at fits
  refine ⟨fits.1, fits.2, ?_⟩
  simp only at taken
  split at taken
  · next cause =>
      cases taken
      exact .inr ⟨cause, .inl rfl, rfl⟩
  split at taken
  · next nothing =>
      cases taken
      exact .inr ⟨.noProgress, .inr ⟨rfl, nothing, rfl⟩, rfl⟩
  · next something =>
      cases taken
      exact .inl ⟨rfl, something, rfl⟩

/-- Everything a read of a DATA payload can do. -/
theorem recvData_cases {s s' : Session} {hd : Header} {got bs : List Byte} {discard : Bool}
    {e : Option Err} (taken : s.recvData hd got bs discard e = some s') :
    (got ++ bs).length ≤ hd.length ∧
      (receiveError bs e = none ∧ (got ++ bs).length = hd.length ∧
          s' = (s.published hd.id bs discard true).consumed ⟨.data, hd.id, got ++ bs⟩ ∨
        receiveError bs e = none ∧ (got ++ bs).length < hd.length ∧
          s' = { s.published hd.id bs discard false with
            reader := .receiving hd (got ++ bs) discard } ∨
        ∃ cause, receiveError bs e = some cause ∧
          s' = (s.published hd.id bs discard true).stopReader cause
            (.receiving hd (got ++ bs) discard)) := by
  unfold recvData at taken
  split at taken
  · cases taken
  next fits =>
  rw [not_lt, ← List.length_append] at fits
  refine ⟨fits, ?_⟩
  simp only at taken
  split at taken
  · next cause failed =>
      cases taken
      refine .inr (.inr ⟨cause, failed, ?_⟩)
      simp [failed]
  next fine =>
  split at taken
  · next whole =>
      cases taken
      refine .inl ⟨fine, whole, ?_⟩
      simp [whole, consumed]
  · next part =>
      cases taken
      refine .inr (.inl ⟨fine, lt_of_le_of_ne fits part, ?_⟩)
      simp only [part, fine, Option.isSome_none, Bool.false_eq_true, or_self, decide_false]

theorem receiveError_none {bs : List Byte} {e : Option Err}
    (fine : receiveError bs e = none) : bs ≠ [] ∧ e = none := by
  unfold receiveError at fine
  split at fine
  · split at fine
    · cases fine
    · next something => exact ⟨something, rfl⟩
  · cases fine
  · cases fine

@[simp]
theorem published_other {s : Session} {j k : Nat} {bs : List Byte} {discard complete : Bool}
    (different : k ≠ j) :
    (s.published j bs discard complete).track k = s.track k := by
  unfold published
  split
  · exact track_set_other _ _ _ _ different
  · rfl

/-- Either the bytes are published in the stream's last block, or they are dropped. -/
theorem published_self (s : Session) (k : Nat) (bs : List Byte) (discard complete : Bool) :
    (discard = false ∧ ∃ st, s.objs k = some st ∧
      (s.published k bs discard complete).track k =
        { s.track k with st := some (st.publish bs complete) }) ∨
    (discard = true ∨ s.objs k = none) ∧
      (s.published k bs discard complete).track k = s.track k := by
  cases discard with
  | true => exact .inr ⟨.inl rfl, rfl⟩
  | false =>
      cases found : s.objs k with
      | none => exact .inr ⟨.inr rfl, by simp [published, found]⟩
      | some st => exact .inl ⟨rfl, st, rfl, by simp [published, found, track_set_self]⟩

/-- A read of a DATA payload publishes its bytes and moves the reader. -/
theorem recvData_moves {s s' : Session} {hd : Header} {got bs : List Byte} {discard : Bool}
    {e : Option Err} (position : s.reader = .receiving hd got discard)
    (taken : s.recvData hd got bs discard e = some s') (k : Nat) :
    Track.Moves (· = .inner) (s.track k) (s'.track k) := by
  have reading : (s.track k).halted = false := by
    simp [track, position, Reader.halted]
  have progress : (s.track k).progress =
      if hd.id = k then .receiving got discard else .away := by
    simp [track, position, Reader.progress]
  by_cases own : hd.id = k
  · subst own
    rw [if_pos rfl] at progress
    rcases recvData_cases taken with ⟨-, ⟨fine, -, rfl⟩ | ⟨fine, -, rfl⟩ | ⟨cause, -, rfl⟩⟩
    · rw [track_consumed_self _ rfl reading rfl]
      rcases published_self s hd.id bs discard true with
        ⟨rfl, st, here, same⟩ | ⟨dropped, same⟩ <;> rw [same]
      · exact .one rfl (.complete bs progress here (receiveError_none fine).1)
      · exact .one rfl (.completeDropped bs progress dropped)
    · refine reader_moves ?_
      rcases published_self s hd.id bs discard false with
        ⟨rfl, st, here, same⟩ | ⟨dropped, same⟩ <;> rw [same]
      · have move := Track.Move.publish bs progress here
        refine .one rfl ?_
        simpa [Reader.halted, Reader.progress, ← reading] using move
      · have move := Track.Move.publishDropped bs progress dropped
        refine .one rfl ?_
        simpa [Reader.halted, Reader.progress, ← reading] using move
    · rw [track_stopReader]
      rcases published_self s hd.id bs discard true with
        ⟨rfl, st, here, same⟩ | ⟨dropped, same⟩ <;> rw [same]
      · have move := Track.Move.cut bs progress here
        refine .one rfl ?_
        simpa [Reader.progress] using move
      · have move := Track.Move.cutDropped bs progress dropped
        refine .one rfl ?_
        simpa [Reader.progress] using move
  · rw [if_neg own] at progress
    have same : ∀ complete, (s.published hd.id bs discard complete).track k = s.track k :=
      fun _ => published_other (Ne.symm own)
    rcases recvData_cases taken with ⟨-, ⟨fine, -, rfl⟩ | ⟨fine, -, rfl⟩ | ⟨cause, -, rfl⟩⟩
    · rw [track_consumed_other _ own reading progress, same]
      exact .refl _
    · refine reader_refl (same _) reading.symm ?_
      rw [progress]
      simp [Reader.progress, own]
    · have before : (s.published hd.id bs discard true).reader.progress k = .away := by
        have := congrArg Track.progress (same true)
        rw [progress] at this
        exact this
      have moves := stopReader_moves (s := s.published hd.id bs discard true) (k := k)
        cause (r := .receiving hd (got ++ bs) discard) (.inl before)
        (by simp [Reader.progress, own])
      rwa [same] at moves

theorem recv_moves {s s' : Session} {bs : List Byte} {e : Option Err}
    (taken : s.recv bs e = some s') (k : Nat) :
    Track.Moves (· = .inner) (s.track k) (s'.track k) := by
  unfold recv at taken
  split at taken
  · cases taken
  simp only at taken
  split at taken
  · next h position =>
      have away : (s.track k).progress = .away := by
        simp [track, position, Reader.progress]
      have reading : (s.track k).halted = false := by
        simp [track, position, Reader.halted]
      rcases recvHeader_cases taken with ⟨-, -, ⟨-, rfl⟩ | ⟨-, cause, -, rfl⟩⟩
      · exact @reader_refl _ s (s.hears bs) _ k rfl reading.symm away.symm
      · exact stopReader_moves (s := s.hears bs) _ (.inl away) rfl
  · next hd live p position =>
      have progress : (s.track k).progress =
          (if hd.id = k ∧ hd.kind ≠ .open then .control live else .away) := by
        simp [track, position, Reader.progress]
      have reading : (s.track k).halted = false := by
        simp [track, position, Reader.halted]
      rcases recvPayload_cases taken with ⟨-, -, ⟨-, -, rfl⟩ | ⟨cause, -, rfl⟩⟩
      · exact @reader_refl _ s (s.hears bs) _ k rfl reading.symm progress.symm
      · refine stopReader_moves (s := s.hears bs) _ ?_ rfl
        by_cases own : hd.id = k ∧ hd.kind ≠ .open
        · exact .inr ⟨live, progress.trans (if_pos own)⟩
        · exact .inl (progress.trans (if_neg own))
  · next hd got discard position =>
      exact recvData_moves (s := s.hears bs) position taken k
  · cases taken

/-! ### Control frames -/

/-- Why a control frame of a live stream is a protocol error. -/
def Objects (server : Bool) (st : Stream) (t : Kind) (p : List Byte) : Prop :=
  match t with
  | .opened | .failed => server = true ∨ st.ready = true
  | .fin => st.ready = false ∨ st.remoteFIN = true
  | .finished =>
      server = true ∨ st.peerDone = true ∨ st.localFIN = false ∨ st.remoteFIN = false
  | .credit =>
      fromBigEndian p = 0 ∨ windowBlocks - st.sendCredit < (fromBigEndian p : Int)
  | _ => False

/-- The session after a control frame has taken effect on its stream. -/
def afterFrame (s : Session) (k : Nat) (st : Stream) (t : Kind) (p : List Byte) : Session :=
  match t with
  | .opened => s.set k { st with ready := true }
  | .failed => s.shutStream k st (.openError (p.headD 0))
  | .fin => s.set k { st with remoteFIN := true }
  | .reset => s.shutStream k st .reset
  | .finished => s.set k { st with peerDone := true }
  | .credit =>
      { s.set k { st with sendCredit := st.sendCredit + (fromBigEndian p : Int) } with
        wake := true }
  | _ => s

/-- A control frame of a live stream is refused only for a reason `Objects` names. -/
theorem deliver_cases (s : Session) (k : Nat) {st : Stream} (t : Kind) (p : List Byte)
    (unclosed : st.closed = false) :
    Objects s.server st t p ∧ s.deliver k st t p = (s, some .protocol) ∨
    ¬ Objects s.server st t p ∧ s.deliver k st t p = (s.afterFrame k st t p, none) := by
  by_cases bad : Objects s.server st t p
  · refine .inl ⟨bad, ?_⟩
    cases t <;> simp only [Objects] at bad <;>
      simp [deliver, bad, or_assoc]
  · refine .inr ⟨bad, ?_⟩
    cases t <;> simp only [Objects, not_or, Bool.not_eq_true, Bool.not_eq_false] at bad <;>
      simp [deliver, afterFrame, bad, closeLocked_silent _ _ unclosed]

/-- The stream a control frame finds: live at its header and still routed to. -/
def Finds (s : Session) (live : Bool) (k : Nat) (st : Stream) : Prop :=
  live = true ∧ k ∈ s.streams ∧ s.objs k = some st ∧ st.closed = false

/-- Everything a completely read control frame can do. -/
theorem dispatch_cases {s s' : Session} {draw : Nat} (taken : s.dispatch draw = some s') :
    ∃ hd live p, s.reader = .payload hd live p ∧ p.length = hd.length ∧
      (hd.kind = .open ∧
          ((s.admission hd.id p draw).2 = none ∧
              s' = (s.admission hd.id p draw).1.consumed ⟨hd.kind, hd.id, p⟩ ∨
            ∃ e, (s.admission hd.id p draw).2 = some e ∧
              s' = (s.admission hd.id p draw).1.stopReader e (.payload hd live p)) ∨
        hd.kind ≠ .open ∧ (∀ st, ¬ s.Finds live hd.id st) ∧
          s' = s.consumed ⟨hd.kind, hd.id, p⟩ ∨
        hd.kind ≠ .open ∧ ∃ st, s.Finds live hd.id st ∧
          (Objects s.server st hd.kind p ∧ s' = s.stopReader .protocol (.payload hd live p) ∨
            ¬ Objects s.server st hd.kind p ∧
              s' = (s.afterFrame hd.id st hd.kind p).consumed ⟨hd.kind, hd.id, p⟩)) := by
  unfold dispatch at taken
  split at taken
  next hd live p position =>
    split at taken
    · cases taken
    next whole =>
    refine ⟨hd, live, p, position, not_not.mp whole, ?_⟩
    by_cases open_ : hd.kind = .open
    · refine .inl ⟨open_, ?_⟩
      simp only [open_, if_true] at taken ⊢
      split at taken
      · next e refused =>
          cases taken
          exact .inr ⟨e, refused, rfl⟩
      · next admitted =>
          cases taken
          exact .inl ⟨admitted, rfl⟩
    · right
      simp only [open_, if_false] at taken
      cases here : s.objs hd.id with
      | none =>
          simp only [here] at taken
          cases taken
          refine .inl ⟨open_, ?_, rfl⟩
          rintro st ⟨-, -, found, -⟩
          cases here.symm.trans found
      | some st =>
          simp only [here] at taken
          by_cases alive : (live && decide (hd.id ∈ s.streams) && !st.closed) = true
          · rw [if_pos alive] at taken
            simp only [Bool.and_eq_true, decide_eq_true_eq, Bool.not_eq_true'] at alive
            refine .inr ⟨open_, st, ⟨alive.1.1, alive.1.2, here, alive.2⟩, ?_⟩
            rcases deliver_cases s hd.id hd.kind p alive.2 with ⟨bad, same⟩ | ⟨fine, same⟩
            · rw [same] at taken
              cases taken
              exact .inl ⟨bad, rfl⟩
            · rw [same] at taken
              cases taken
              exact .inr ⟨fine, rfl⟩
          · rw [if_neg alive] at taken
            cases taken
            refine .inl ⟨open_, ?_, rfl⟩
            rintro st' ⟨yes, listed, found, unclosed⟩
            cases here.symm.trans found
            exact alive (by simp [yes, listed, unclosed])
  · cases taken

/-- The session after an OPEN has raised `lastID` and swept completed streams. -/
def swept (s : Session) (id : Nat) : Session :=
  { s with
    lastID := id
    streams := s.streams.filter fun k => !((s.objs k).any Stream.applicationDone) }

/-- The capacity branch of the admission. -/
def AtCapacity (s : Session) (id : Nat) : Prop :=
  maxStreams ≤ (s.swept id).streams.length ∨ s.accepted.length = maxStreams

/-- Everything the admission of an OPEN can do. -/
theorem admission_cases (s : Session) (id : Nat) (p : List Byte) (draw : Nat) :
    (s.AtCapacity id ∧
      ((s.err = none ∧
          s.admission id p draw = ((s.swept id).queued ⟨.failed, id, [1]⟩ .nobody, none)) ∨
        ∃ e, (e = .full ∨ s.err = some e) ∧ s.admission id p draw = (s.swept id, some e))) ∨
    ¬ s.AtCapacity id ∧ s.admission id p draw =
      ({ (s.swept id).newStreamLocked id p draw with accepted := s.accepted ++ [id] }, none) := by
  have folded : s.admission id p draw =
      if maxStreams ≤ (s.swept id).streams.length ∨ s.accepted.length = maxStreams then
        (s.swept id).controlLocked .failed id [1] .nobody
      else
        ({ (s.swept id).newStreamLocked id p draw with accepted := s.accepted ++ [id] },
          none) := rfl
  by_cases full : s.AtCapacity id
  · refine .inl ⟨full, ?_⟩
    rw [folded, if_pos (show _ ∨ _ from full)]
    have plain : Kind.failed ≠ Kind.credit := by decide
    rcases controlLocked_plain (s.swept id) plain id [1] .nobody with
      ⟨e, failed, outcome⟩ | ⟨-, -, outcome⟩ | ⟨alive, -, outcome⟩
    · exact .inr ⟨e, .inr failed, outcome⟩
    · exact .inr ⟨.full, .inl rfl, outcome⟩
    · exact .inl ⟨alive, outcome⟩
  · exact .inr ⟨full, by rw [folded, if_neg (show ¬ (_ ∨ _) from full)]⟩

/-- Raising `lastID` and sweeping the map, on one track. -/
theorem swept_moves {s : Session} {id : Nat} (raised : s.lastID ≤ id) (k : Nat) :
    Track.Moves (· = .inner) (s.track k) ((s.swept id).track k) := by
  have pass := raise_moves (A := (· = .inner)) rfl (t := s.track k) (k := k)
    rfl raised
  refine pass.trans ?_
  by_cases complete : (s.objs k).any Stream.applicationDone = true
  · rw [Option.any_eq_true] at complete
    rcases complete with ⟨st, here, complete⟩
    have moved : (s.swept id).track k =
        { ({ s.track k with above := id.blt k } : Track) with listed := false } := by
      simp [swept, track, trackWith, here, complete]
    rw [moved]
    exact .one rfl (.sweep here complete)
  · have moved : (s.swept id).track k = { s.track k with above := id.blt k } := by
      simp only [Bool.not_eq_true] at complete
      simp only [swept, track, trackWith, Track.mk.injEq, true_and, and_true]
      rw [Bool.eq_iff_iff]
      simp [complete]
    rw [moved]
    exact .refl _

/-- The stream in the map under the identifier of an OPEN, swept or not. -/
theorem swept_self_moves (s : Session) (id : Nat) :
    Track.Moves (· = .inner) (s.track id)
      { s.track id with listed := ((s.swept id).track id).listed } := by
  by_cases complete : (s.objs id).any Stream.applicationDone = true
  · rw [Option.any_eq_true] at complete
    rcases complete with ⟨st, here, complete⟩
    have unlisted : ((s.swept id).track id).listed = false := by
      simp [swept, track, trackWith, here, complete]
    rw [unlisted]
    exact .one rfl (.sweep here complete)
  · have same : ((s.swept id).track id).listed = (s.track id).listed := by
      simp only [Bool.not_eq_true] at complete
      rw [Bool.eq_iff_iff]
      simp [swept, track, trackWith, complete]
    rw [same]
    exact .refl _

/-- The track of the stream an OPEN names, in the parts the admission changes. -/
theorem track_swept_self (s : Session) (id : Nat) :
    (s.swept id).track id =
      { s.track id with above := false, listed := ((s.swept id).track id).listed } := by
  simp [swept, track, trackWith, blt_self]

theorem admission_moves {s : Session} {hd : Header} {live : Bool} {p : List Byte}
    {d : Nat} (sound : s.Sound) (position : s.reader = .payload hd live p)
    (open_ : hd.kind = .open) (k : Nat) :
    ((s.admission hd.id p d).2 = none →
      Track.Moves (· = .inner) (s.track k)
        (((s.admission hd.id p d).1.consumed ⟨hd.kind, hd.id, p⟩).track k)) ∧
    ((s.admission hd.id p d).2 ≠ none →
      Track.Moves (· = .inner) (s.track k) ((s.admission hd.id p d).1.track k)) := by
  have fits := sound.reading
  rw [position] at fits
  rcases fits with ⟨valid, -, -, fresh⟩
  rcases fresh open_ with ⟨server, new⟩
  have reading : (s.track k).halted = false := by
    simp [track, position, Reader.halted]
  have away : (s.track k).progress = .away := by
    simp [track, position, Reader.progress, open_]
  by_cases own : hd.id = k
  · subst own
    have above : (s.track hd.id).above = true := (trackWith_above _ _ _ _).mpr new
    have first := swept_self_moves s hd.id
    have valid' : hd.id % 2 = 1 ∧ hd.id < 2 ^ 32 := ⟨valid.1, valid.2.1⟩
    rcases admission_cases s hd.id p d with
      ⟨-, ⟨alive, outcome⟩ | ⟨e, -, outcome⟩⟩ | ⟨-, outcome⟩
    · refine ⟨fun _ => ?_, fun refused => (refused (by rw [outcome])).elim⟩
      rw [outcome, track_consumed_self _ rfl reading away, track_queued_self _ _ _ _ rfl,
        track_swept_self, open_]
      exact first.trans (.one rfl (.refuse p server above alive valid'))
    · refine ⟨fun fine => ?_, fun _ => ?_⟩
      · rw [outcome] at fine
        cases fine
      · rw [outcome, track_swept_self]
        exact first.trans (.one rfl .pass)
    · refine ⟨fun _ => ?_, fun refused => (refused (by rw [outcome])).elim⟩
      rw [outcome, track_consumed_self _ rfl reading away, open_]
      have moved : ({ (s.swept hd.id).newStreamLocked hd.id p d with
            accepted := s.accepted ++ [hd.id] } : Session).track hd.id =
          { s.track hd.id with
            above := false
            st := some (Stream.fresh p (s.shape.credit.choose d))
            listed := true } := by
        simp [swept, newStreamLocked, set, track, trackWith, blt_self]
      rw [moved]
      exact .one rfl (.arrive p _ server above valid' reading (sound.shape.credit_pos d))
  · have first := @swept_moves s hd.id new.le k
    rcases admission_cases s hd.id p d with
      ⟨-, ⟨alive, outcome⟩ | ⟨e, -, outcome⟩⟩ | ⟨-, outcome⟩
    · refine ⟨fun _ => ?_, fun refused => (refused (by rw [outcome])).elim⟩
      rw [outcome, track_consumed_other _ own reading away, track_queued_other _ _ _ _ own]
      exact first
    · refine ⟨fun fine => ?_, fun _ => ?_⟩
      · rw [outcome] at fine
        cases fine
      · rw [outcome]
        exact first
    · refine ⟨fun _ => ?_, fun refused => (refused (by rw [outcome])).elim⟩
      have moved : ({ (s.swept hd.id).newStreamLocked hd.id p d with
            accepted := s.accepted ++ [hd.id] } : Session).track k =
          (s.swept hd.id).track k := by
        simp [newStreamLocked, set, track, trackWith, Ne.symm own]
      rw [outcome, track_consumed_other _ own reading away, moved]
      exact first

/-- A control frame that takes effect is one move of its stream. -/
theorem afterFrame_move {s : Session} {k : Nat} {st : Stream} {t : Kind} {p : List Byte}
    (found : s.Finds true k st) (at_ : (s.track k).progress = .control true)
    (reading : (s.track k).halted = false)
    (control : t ≠ .open ∧ t ≠ .data) (fine : ¬ Objects s.server st t p) :
    Track.Move .inner (s.track k) (((s.afterFrame k st t p).consumed ⟨t, k, p⟩).track k) := by
  rcases found with ⟨-, listed, here, unclosed⟩
  have listed : (s.track k).listed = true := (trackWith_listed _ _ _ _).mpr listed
  have shut : ∀ reason, ((s.shutStream k st reason).consumed ⟨t, k, p⟩).track k =
      { s.track k with
        st := some (st.shut reason), listed := false
        inn := (s.track k).inn ++ [⟨t, k, p⟩], progress := .away } := by
    intro reason
    rw [track_consumed_self _ rfl reading rfl, track_shutStream_self]
  have kept : ∀ st', ((s.set k st').consumed ⟨t, k, p⟩).track k =
      { s.track k with
        st := some st', inn := (s.track k).inn ++ [⟨t, k, p⟩], progress := .away } := by
    intro st'
    rw [track_consumed_self _ rfl reading rfl, track_set_self]
  cases t with
  | «open» => exact (control.1 rfl).elim
  | data => exact (control.2 rfl).elim
  | opened =>
      simp only [Objects, not_or, Bool.not_eq_true] at fine
      rw [afterFrame, kept]
      exact .opened _ rfl at_ listed here unclosed fine.1 fine.2
  | failed =>
      simp only [Objects, not_or, Bool.not_eq_true] at fine
      rw [afterFrame, shut]
      exact .failed _ rfl _ at_ listed here unclosed fine.1 fine.2 (by simp)
  | fin =>
      simp only [Objects, not_or, Bool.not_eq_true, Bool.not_eq_false] at fine
      rw [afterFrame, kept]
      exact .fin _ rfl at_ listed here unclosed fine.1 fine.2
  | reset =>
      rw [afterFrame, shut]
      exact .reset _ rfl at_ listed here unclosed
  | finished =>
      simp only [Objects, not_or, Bool.not_eq_true, Bool.not_eq_false] at fine
      rw [afterFrame, kept]
      exact .finished _ rfl at_ listed here unclosed fine.1 fine.2.1 fine.2.2.1 fine.2.2.2
  | credit =>
      simp only [Objects, not_or, not_lt] at fine
      have wake : ∀ s : Session, ({ s with wake := true }.consumed ⟨.credit, k, p⟩).track k =
          (s.consumed ⟨.credit, k, p⟩).track k := fun _ => rfl
      rw [afterFrame, wake, kept]
      exact .credit ⟨.credit, k, p⟩ rfl at_ listed here unclosed fine.1 fine.2

/-- A control frame leaves the other streams alone. -/
theorem track_afterFrame_other (s : Session) {j k : Nat} (st : Stream) (t : Kind)
    (p : List Byte) (different : k ≠ j) :
    (s.afterFrame j st t p).track k = s.track k := by
  have kept : ∀ st', (s.set j st').track k = s.track k :=
    fun _ => track_set_other _ _ _ _ different
  have shut : ∀ reason, (s.shutStream j st reason).track k = s.track k :=
    fun _ => track_shutStream_other _ _ _ different
  cases t with
  | opened | fin | finished | credit => exact kept _
  | failed | reset => exact shut _
  | «open» | data => rfl

theorem dispatch_moves {s s' : Session} {draw : Nat} (sound : s.Sound)
    (taken : s.dispatch draw = some s') (k : Nat) :
    Track.Moves (· = .inner) (s.track k) (s'.track k) := by
  rcases dispatch_cases taken with ⟨hd, live, p, position, -, outcome⟩
  have reading : (s.track k).halted = false := by
    simp [track, position, Reader.halted]
  have progress : (s.track k).progress =
      (if hd.id = k ∧ hd.kind ≠ .open then .control live else .away) := by
    simp [track, position, Reader.progress]
  have outside : s.reader.progress k = .away ∨
      ∃ live, s.reader.progress k = .control live := by
    by_cases own : hd.id = k ∧ hd.kind ≠ .open
    · exact .inr ⟨live, progress.trans (if_pos own)⟩
    · exact .inl (progress.trans (if_neg own))
  have fits := sound.reading
  rw [position] at fits
  rcases outcome with ⟨open_, ⟨fine, rfl⟩ | ⟨e, refused, rfl⟩⟩ | ⟨other, dead, rfl⟩ |
    ⟨other, st, found, ⟨-, rfl⟩ | ⟨fine, rfl⟩⟩
  · exact (admission_moves sound position open_ k).1 fine
  · have admitted := (admission_moves (d := draw) sound position open_ k).2
    refine (admitted (by simp [refused])).trans ?_
    refine stopReader_moves e (.inl ?_) rfl
    have same : (s.admission hd.id p draw).1.reader = s.reader := by
      rcases admission_cases s hd.id p draw with
        ⟨-, ⟨-, outcome⟩ | ⟨e, -, outcome⟩⟩ | ⟨-, outcome⟩ <;> rw [outcome] <;> rfl
    rw [same, position]
    simp [Reader.progress, open_]
  · by_cases own : hd.id = k
    · subst own
      rw [track_consumed_self _ rfl reading rfl]
      rw [if_pos ⟨rfl, other⟩] at progress
      refine .one rfl (.ignore _ progress ?_ ⟨other, fits.2.1⟩)
      rintro ⟨alive, listed, st, here, unclosed⟩
      exact dead st ⟨alive, (trackWith_listed _ _ _ _).mp listed, here, unclosed⟩
    · rw [if_neg (by simp [own])] at progress
      rw [track_consumed_other _ own reading progress]
      exact .refl _
  · exact stopReader_moves _ outside rfl
  · by_cases own : hd.id = k
    · subst own
      rw [if_pos ⟨rfl, other⟩] at progress
      have alive : live = true := found.1
      subst alive
      exact .one rfl (afterFrame_move found progress reading ⟨other, fits.2.1⟩ fine)
    · rw [if_neg (by simp [own])] at progress
      rw [track_consumed_other _ own reading progress,
        track_afterFrame_other _ _ _ _ (Ne.symm own)]
      exact .refl _

/-! ## The write loop -/

/-- The control loop takes an initial part of the queue, in order. -/
theorem takeControls_spec (limit : Nat) (controls : List Control) (a : Assembly) :
    ∃ taken, controls = taken ++ (takeControls limit controls a).2 ∧
      (takeControls limit controls a).1.frames = a.frames ++ taken.map Control.frame ∧
      (takeControls limit controls a).1.sentControls = a.sentControls ++ taken ∧
      (takeControls limit controls a).1.completed = a.completed := by
  induction controls generalizing a with
  | nil => exact ⟨[], by simp [takeControls]⟩
  | cons c rest induction =>
      rw [takeControls]
      split
      · exact ⟨[], by simp⟩
      simp only
      split
      · exact ⟨[c], by simp [Assembly.add]⟩
      · rcases induction { a.add c.frame with sentControls := a.sentControls ++ [c] } with
          ⟨taken, split_, frames, sent, completed⟩
        refine ⟨c :: taken, by rw [List.cons_append, ← split_], ?_, ?_, completed⟩
        · rw [frames]
          simp [Assembly.add]
        · rw [sent]
          simp

/-- One DATA frame goes into a batch. -/
def EmitStep (work work' : Session × Assembly) : Prop :=
  ∃ k st r n, k ∈ work.1.streams ∧ work.1.objs k = some st ∧ st.request = some r ∧
    r.finished = false ∧ 0 < n ∧ n ≤ r.p.length - r.off ∧ n ≤ blockSize ∧
    0 < st.sendCredit ∧ st.err = none ∧ work' = emitData k st r n work

/-- Any number of DATA frames go into a batch. -/
def Emits : Session × Assembly → Session × Assembly → Prop :=
  Relation.ReflTransGen EmitStep

/-- The streams the data loop serves: routed to, without error, with no negative credit. -/
def Sendable (s : Session) (order : List Nat) : Prop :=
  ∀ k ∈ order, k ∈ s.streams ∧ ∀ st, s.objs k = some st →
    st.err = none ∧ 0 ≤ st.sendCredit

theorem emitData_sendable {work : Session × Assembly} {order : List Nat} {k n : Nat}
    {st : Stream} {r : WriteRequest} (able : Sendable work.1 order)
    (unfailed : st.err = none) (window : 0 < st.sendCredit) :
    Sendable (emitData k st r n work).1 order := by
  intro j member
  refine ⟨(able j member).1, fun st' found => ?_⟩
  simp only [emitData, set] at found
  split at found
  · cases found
    exact ⟨unfailed, by simp only; omega⟩
  · exact (able j member).2 st' found

/-- A round of the data loop only puts DATA frames into the batch. -/
theorem dataRound_emits {l : Nat} {share : Nat → Nat} {order : List Nat}
    (small : ∀ size, share size ≤ blockSize) (served : List Nat)
    (work : Session × Assembly) (able : Sendable work.1 order)
    (within : ∀ k ∈ served, k ∈ order) :
    Emits work (dataRound l share served work).1 ∧
      Sendable (dataRound l share served work).1.1 order := by
  induction served generalizing work with
  | nil => exact ⟨.refl, able⟩
  | cons k rest induction =>
      have later : ∀ j ∈ rest, j ∈ order := fun j member => within j (by simp [member])
      rw [dataRound]
      split
      · exact induction work able later
      next st r pending =>
      rw [Option.bind_eq_some_iff] at pending
      rcases pending with ⟨st', here, pending⟩
      rw [Option.map_eq_some_iff] at pending
      rcases pending with ⟨r', request, same⟩
      cases same
      split
      · exact induction work able later
      next unfinished =>
      simp only [not_or, Bool.not_eq_true] at unfinished
      simp only
      split
      · exact ⟨.refl, able⟩
      next progress =>
      rcases able k (within k (by simp)) with ⟨listed, fine⟩
      rcases fine st here with ⟨unfailed, credit⟩
      have window : 0 < st.sendCredit := lt_of_le_of_ne credit (Ne.symm unfinished.2.2)
      have able' := emitData_sendable (k := k) (r := r)
        (n := min (share work.2.size)
          (min (r.p.length - r.off) (l - work.2.size - headerSize)))
        able unfailed window
      rcases induction _ able' later with ⟨emits, able''⟩
      refine ⟨.head ?_ emits, able''⟩
      exact ⟨k, st, r, _, listed, here, request, unfinished.1, by omega, by omega,
        (min_le_left _ _).trans (small _), window, unfailed, rfl⟩

/-- The data loop only puts DATA frames into the batch. -/
theorem dataLoop_emits {l : Nat} {share : Nat → Nat} {order : List Nat}
    (small : ∀ size, share size ≤ blockSize) (fuel : Nat)
    (work : Session × Assembly) (able : Sendable work.1 order) :
    Emits work (dataLoop l share order fuel work) := by
  induction fuel generalizing work with
  | zero => exact .refl
  | succ fuel induction =>
      have round := dataRound_emits (l := l) small order work able (fun _ => id)
      rw [dataLoop]
      split
      · split
        · next work' progressed =>
            rw [progressed] at round
            exact round.1.trans (induction work' round.2)
        · next work' stuck =>
            rw [stuck] at round
            exact round.1
      · exact .refl

theorem mem_sendingOrder {s : Session} {rotation : Nat} {ready : List Nat} {k : Nat}
    (member : k ∈ s.sendingOrder rotation ready) : k ∈ ready := by
  unfold sendingOrder at member
  split at member
  · exact member
  · simpa using member

/-- The ready streams can be served. -/
theorem ready_sendable (s : Session) (rotation : Nat) :
    Sendable s (s.sendingOrder rotation s.ready) := by
  intro k member
  rcases List.mem_filter.mp (mem_sendingOrder member) with ⟨listed, wants⟩
  refine ⟨listed, fun st here => ?_⟩
  rw [here, Option.any_some, Stream.wantsToSend] at wants
  split at wants
  · cases wants
  · simp only [Bool.and_eq_true, decide_eq_true_eq, Option.isNone_iff_eq_none] at wants
    exact ⟨wants.2, wants.1.2.le⟩

/-- The session a batch starts its data loop from. -/
def withControls (s : Session) (d : Draws) (taken rest : List Control) : Session :=
  { s with
    controls := rest
    preamble := []
    emitted := s.emitted ++ taken.map Control.frame
    shape := { s.shape with remaining := s.startup d - 1 } }

/-- The size of a DATA frame, by the size of the batch at its turn. -/
def share (s : Session) (d : Draws) (size : Nat) : Nat :=
  if 1 < s.ready.length then s.shape.quantum.choose (d.share size) else blockSize

theorem share_pos {s : Session} (valid : s.shape.Valid) (d : Draws) (size : Nat) :
    0 < s.share d size := by
  rw [share]
  split_ifs
  · have low := (Range.choose_mem valid.quantum_ordered (d.share size)).1
    have wide := valid.quantum_low
    omega
  · decide

theorem share_small {s : Session} (valid : s.shape.Valid) (d : Draws) (size : Nat) :
    s.share d size ≤ blockSize := by
  rw [share]
  split_ifs
  · exact (Range.choose_mem valid.quantum_ordered _).2.trans valid.quantum_high
  · exact le_rfl

/-- How the critical section of a batch assembles it. -/
theorem batch_assembled {s s' : Session} {d : Draws} (taken : s.batch d = some s') :
    s.writer = .running ∧
      (s.err ≠ none ∧ s' = { s with writer := .stopped } ∨
        s.err = none ∧ s.ready = [] ∧ s.controls = [] ∧ s' = { s with writer := .parked } ∨
        s.err = none ∧ ∃ sentControls rest a work more padding,
          s.controls = sentControls ++ rest ∧
          a.frames = sentControls.map Control.frame ∧ a.sentControls = sentControls ∧
          a.completed = [] ∧
          work = dataLoop (s.limit d) (s.share d) (s.sendingOrder d.rotation s.ready)
            (s.limit d) (s.withControls d sentControls rest, a) ∧
          s' = { work.1 with writer := .writing {
            unsent := s.preamble ++ encodeAll work.2.frames
            completed := work.2.completed
            sentControls := work.2.sentControls
            more := more
            padding := padding } }) := by
  unfold batch at taken
  split at taken
  · next e running failed =>
      cases taken
      exact ⟨running, .inl ⟨by simp [failed], rfl⟩⟩
  · next running alive =>
      refine ⟨running, .inr ?_⟩
      simp only at taken
      split at taken
      · next idle =>
          cases taken
          exact .inl ⟨alive, idle.1, idle.2, rfl⟩
      refine .inr ⟨alive, ?_⟩
      rcases takeControls_spec (s.limit d) s.controls ⟨[], s.preamble.length, [], []⟩ with
        ⟨sentControls, split_, frames, sent, completed⟩
      simp only [List.nil_append] at frames sent completed
      simp only [frames] at taken
      cases taken
      exact ⟨sentControls, _, _, _, _, _, split_, frames, sent, completed, rfl, rfl⟩
  · cases taken

/-- Everything the critical section of a batch can do. -/
theorem batch_cases {s s' : Session} {d : Draws} (valid : s.shape.Valid)
    (taken : s.batch d = some s') :
    s.writer = .running ∧
      (s.err ≠ none ∧ s' = { s with writer := .stopped } ∨
        s.err = none ∧ s.ready = [] ∧ s.controls = [] ∧ s' = { s with writer := .parked } ∨
        s.err = none ∧ ∃ sentControls rest a work more padding,
          s.controls = sentControls ++ rest ∧
          a.frames = sentControls.map Control.frame ∧ a.sentControls = sentControls ∧
          a.completed = [] ∧
          Emits (s.withControls d sentControls rest, a) work ∧
          s' = { work.1 with writer := .writing {
            unsent := s.preamble ++ encodeAll work.2.frames
            completed := work.2.completed
            sentControls := work.2.sentControls
            more := more
            padding := padding } }) := by
  rcases batch_assembled taken with ⟨running, stopped | idle | ⟨alive, sentControls, rest, a,
    work, more, padding, split_, frames, sent, completed, looped, rfl⟩⟩
  · exact ⟨running, .inl stopped⟩
  · exact ⟨running, .inr (.inl idle)⟩
  · refine ⟨running, .inr (.inr ⟨alive, sentControls, rest, a, work, more, padding, split_,
      frames, sent, completed, ?_, rfl⟩)⟩
    have able : Sendable (s.withControls d sentControls rest)
        (s.sendingOrder d.rotation s.ready) := ready_sendable s d.rotation
    rw [looped]
    exact dataLoop_emits (share_small valid d) (s.limit d) _ able

/-- What a batch's data loop leaves alone, and what it adds to batch and history. -/
structure Emitted (work work' : Session × Assembly) : Prop where
  server : work'.1.server = work.1.server
  shape : work'.1.shape = work.1.shape
  cancelled : work'.1.cancelled = work.1.cancelled
  streams : work'.1.streams = work.1.streams
  lastID : work'.1.lastID = work.1.lastID
  controls : work'.1.controls = work.1.controls
  err : work'.1.err = work.1.err
  accepted : work'.1.accepted = work.1.accepted
  preamble : work'.1.preamble = work.1.preamble
  reader : work'.1.reader = work.1.reader
  failing : work'.1.failing = work.1.failing
  processed : work'.1.processed = work.1.processed
  received : work'.1.received = work.1.received
  sent : work'.1.sent = work.1.sent
  sentControls : work'.2.sentControls = work.2.sentControls
  frames : ∃ new, work'.2.frames = work.2.frames ++ new ∧
    work'.1.emitted = work.1.emitted ++ new ∧ ∀ f ∈ new, f.kind = .data

theorem Emits.emitted {work work' : Session × Assembly} (emits : Emits work work') :
    Emitted work work' := by
  induction emits with
  | refl => constructor <;> first | rfl | exact ⟨[], by simp⟩
  | tail _ step before =>
      rcases step with ⟨k, st, r, n, -, -, -, -, -, -, -, -, -, rfl⟩
      rcases before.frames with ⟨new, frames, emitted, data⟩
      have sentControls : ∀ work : Session × Assembly,
          (emitData k st r n work).2.sentControls = work.2.sentControls := by
        intro work
        simp only [emitData, Assembly.add]
        split_ifs <;> rfl
      have added : ∀ work : Session × Assembly, (emitData k st r n work).2.frames =
          work.2.frames ++ [⟨.data, k, (r.p.drop r.off).take n⟩] := by
        intro work
        simp only [emitData, Assembly.add]
        split_ifs <;> rfl
      exact { before with
        sentControls := (sentControls _).trans before.sentControls
        frames := ⟨new ++ [⟨.data, k, (r.p.drop r.off).take n⟩],
          by rw [added, frames, List.append_assoc],
          by simp only [emitData]; rw [emitted, List.append_assoc],
          fun f member => by
            rcases List.mem_append.mp member with old | last
            · exact data f old
            · rw [List.mem_singleton.mp last]⟩ }

/-- Putting one DATA frame into a batch moves the track of its stream. -/
theorem emitStep_moves {work work' : Session × Assembly} (sending : List Control)
    (alive : work.1.err = none) (step : EmitStep work work') (k : Nat) :
    Track.Moves (· = .inner) (work.1.trackWith sending work.2.completed k)
      (work'.1.trackWith sending work'.2.completed k) := by
  rcases step with ⟨j, st, r, n, listed, here, request, unfinished, some_, available, small,
    window, unfailed, rfl⟩
  by_cases own : k = j
  · subst own
    have move := Track.Move.emitData (t := work.1.trackWith sending work.2.completed k) n
      alive ((trackWith_listed _ _ _ _).mpr listed) here request unfinished some_ available
      small window unfailed
    have moved : (emitData k st r n work).1.trackWith sending
          (emitData k st r n work).2.completed k =
        { work.1.trackWith sending work.2.completed k with
          st := some { st with
            request := some { r with off := r.off + n }
            sendCredit := st.sendCredit - 1
            transferred := st.transferred + n }
          finishing := (work.1.trackWith sending work.2.completed k).finishing ||
            decide (r.off + n = r.p.length)
          out := (work.1.trackWith sending work.2.completed k).out ++
            [⟨.data, (work.1.trackWith sending work.2.completed k).id,
              (r.p.drop r.off).take n⟩] } := by
      by_cases whole : r.off + n = r.p.length <;>
        simp [emitData, set, trackWith, Assembly.add, whole]
    rw [moved]
    exact .one rfl move
  · have same : (emitData j st r n work).1.trackWith sending
        (emitData j st r n work).2.completed k =
        work.1.trackWith sending work.2.completed k := by
      by_cases whole : r.off + n = r.p.length <;>
        simp [emitData, set, trackWith, Assembly.add, whole, own, Ne.symm own]
    rw [same]
    exact .refl _

theorem emits_moves {work work' : Session × Assembly} (sending : List Control)
    (alive : work.1.err = none) (emits : Emits work work') (k : Nat) :
    Track.Moves (· = .inner) (work.1.trackWith sending work.2.completed k)
      (work'.1.trackWith sending work'.2.completed k) := by
  induction emits with
  | refl => exact .refl _
  | tail before step moved =>
      have stillAlive := (Emits.emitted before).err.trans alive
      exact moved.trans (emitStep_moves sending stillAlive step k)

/-- Queued controls go into a batch one after the other. -/
theorem emitControls_moves {t : Track} (alive : t.err = none) {taken rest : List Control}
    (queue : t.queue = taken ++ rest) :
    Track.Moves (· = .inner) t { t with
      queue := rest
      out := t.out ++ taken.map Control.frame
      sending := t.sending ++ taken } := by
  induction taken generalizing t with
  | nil =>
      simp only [List.nil_append] at queue
      simp only [List.map_nil, List.append_nil, ← queue]
      exact .refl _
  | cons c taken induction =>
      have first : Track.Moves (· = .inner) t { t with
          queue := taken ++ rest, out := t.out ++ [c.frame], sending := t.sending ++ [c] } :=
        .one rfl (.emitControl alive queue)
      have others := induction (t := { t with
        queue := taken ++ rest, out := t.out ++ [c.frame], sending := t.sending ++ [c] })
        alive rfl
      simp only [List.append_assoc, List.singleton_append] at others
      exact first.trans others

theorem batch_moves {s s' : Session} {d : Draws} (sound : s.Sound)
    (taken : s.batch d = some s') (k : Nat) :
    Track.Moves (· = .inner) (s.track k) (s'.track k) := by
  rcases batch_cases sound.shape taken with ⟨running, ⟨-, rfl⟩ | ⟨-, -, -, rfl⟩ |
    ⟨alive, sentControls, rest, a, work, more, padding, split_, frames, sent, completed,
      emits, rfl⟩⟩
  · have same : ({ s with writer := .stopped }).track k = s.track k := by
      simp [track, running, trackWith, Writer.sentControls, Writer.completed]
    rw [same]
    exact .refl _
  · have same : ({ s with writer := .parked }).track k = s.track k := by
      simp [track, running, trackWith, Writer.sentControls, Writer.completed]
    rw [same]
    exact .refl _
  · have start : s.track k = s.trackWith [] [] k := by
      simp [track, running, Writer.sentControls, Writer.completed]
    have queue : (s.trackWith [] [] k).queue =
        sentControls.filter (·.frame.id = k) ++ rest.filter (·.frame.id = k) := by
      rw [trackWith_queue, split_, List.filter_append]
    have middle : (s.withControls d sentControls rest).trackWith sentControls [] k =
        { s.trackWith [] [] k with
          queue := rest.filter (·.frame.id = k)
          out := (s.trackWith [] [] k).out ++
            (sentControls.filter (·.frame.id = k)).map Control.frame
          sending := (s.trackWith [] [] k).sending ++
            sentControls.filter (·.frame.id = k) } := by
      simp only [withControls, trackWith, List.filter_append, List.filter_map,
        List.filter_nil, List.nil_append]
      rfl
    have controls := emitControls_moves (t := s.trackWith [] [] k) alive queue
    have data := emits_moves sentControls alive emits k
    have final : ({ work.1 with writer := .writing {
          unsent := s.preamble ++ encodeAll work.2.frames
          completed := work.2.completed
          sentControls := work.2.sentControls
          more := more
          padding := padding } }).track k =
        work.1.trackWith sentControls work.2.completed k := by
      have same : work.2.sentControls = sentControls := emits.emitted.sentControls.trans sent
      simp only [track, Writer.sentControls, Writer.completed, same]
      rfl
    rw [start, final]
    rw [← middle] at controls
    simp only [completed] at data
    exact controls.trans data

/-- The session after the result of a batch has been reported. -/
def reported (s : Session) (b : Batch) (e : Option Err) : Session :=
  { s with objs := fun k => (s.objs k).map (report b e k) }

/-- Everything the end of a transport write can do. -/
theorem writeEnd_cases {s s' : Session} {e : Option Err} (taken : s.writeEnd e = some s') :
    ∃ b, s.writer = .writing b ∧
      (e = none ∧ b.unsent = [] ∧
          s' = { s.reported b e with writer := if b.more then .running else .parked } ∨
        ∃ cause, e = some cause ∧ cause ≠ .eof ∧ cause.ofTransport = true ∧
          s' = { s.reported b e with
            writer := .stopped, failing := s.failing ++ [cause] }) := by
  unfold writeEnd at taken
  split at taken
  next b writing =>
    refine ⟨b, writing, ?_⟩
    split at taken
    · cases taken
    next fine =>
    simp only [not_or, not_and, not_not, Bool.not_eq_false] at fine
    simp only at taken
    split at taken
    · next cause =>
        cases taken
        exact .inr ⟨cause, rfl, fun same => fine.2.1 (same ▸ rfl), by simpa using fine.2.2, rfl⟩
    · cases taken
      exact .inl ⟨rfl, fine.1 rfl, rfl⟩
  · cases taken

theorem reported_move {s s' : Session} {b : Batch} {e : Option Err} {k : Nat}
    (writing : s.writer = .writing b)
    (after : s'.track k = (s.reported b e).trackWith [] [] k) :
    Track.Move .inner (s.track k) (s'.track k) := by
  have before : s.track k = s.trackWith b.sentControls b.completed k := by
    simp only [track, writing, Writer.sentControls, Writer.completed]
  rw [after, before]
  cases here : s.objs k with
  | none =>
      have moved : (s.reported b e).trackWith [] [] k =
          { s.trackWith b.sentControls b.completed k with
            sending := [], finishing := false } := by
        simp [reported, trackWith, here]
      rw [moved]
      exact .reportBare here
  | some st =>
      have moved : (s.reported b e).trackWith [] [] k =
          { s.trackWith b.sentControls b.completed k with
            st := some ((if b.completed.contains k then st.finishRequest e
              else st).notifyAll e (b.sentControls.filter (·.frame.id = k)))
            sending := [], finishing := false } := by
        simp only [reported, trackWith, here, List.filter_nil, List.contains_nil,
          List.contains_iff_mem]
        rfl
      rw [moved]
      exact .report e here

theorem writeEnd_moves {s s' : Session} {e : Option Err} (taken : s.writeEnd e = some s')
    (k : Nat) : Track.Moves (· = .inner) (s.track k) (s'.track k) := by
  rcases writeEnd_cases taken with ⟨b, writing, ⟨rfl, -, rfl⟩ | ⟨cause, -, -, -, rfl⟩⟩
  · refine .one rfl (reported_move (e := none) writing ?_)
    unfold track
    cases b.more <;> rfl
  · exact .one rfl (reported_move writing rfl)

/-! ## The refinement -/

/-- Whatever a session does, every track goes through moves that its action accounts for. -/
theorem step_moves {s s' : Session} {action : Action} (sound : s.Sound)
    (taken : s.step action = some s') (k : Nat) :
    Track.Moves (s.Occurs action k) (s.track k) (s'.track k) := by
  cases action with
  | «open» metadata draw =>
      cases taken
      exact open_moves s sound.shape sound.odd metadata draw k
  | accept =>
      simp only [step, accept] at taken
      split at taken
      · cases taken
      · cases taken
        exact .refl _
  | respond j code =>
      rcases Option.map_eq_some_iff.mp taken with ⟨⟨_, result⟩, made, rfl⟩
      exact respond_moves made k
  | callReturn j wake =>
      rcases Option.map_eq_some_iff.mp taken with ⟨⟨_, result⟩, made, rfl⟩
      exact callReturn_moves made k
  | read j n draw =>
      rcases Option.map_eq_some_iff.mp taken with ⟨⟨_, result⟩, made, rfl⟩
      exact read_moves sound.shape made k
  | write j p =>
      rcases Option.map_eq_some_iff.mp taken with ⟨⟨_, result⟩, made, rfl⟩
      exact write_moves made k
  | writeReturn j =>
      rcases Option.map_eq_some_iff.mp taken with ⟨⟨_, result⟩, made, rfl⟩
      exact writeReturn_moves made k
  | closeWrite j =>
      rcases Option.map_eq_some_iff.mp taken with ⟨⟨_, result⟩, made, rfl⟩
      exact closeWrite_moves made k
  | finish j =>
      rcases Option.map_eq_some_iff.mp taken with ⟨⟨_, result⟩, made, rfl⟩
      exact finish_moves made k
  | close j => exact close_moves taken k
  | closeSession =>
      cases taken
      exact fail_moves (by simp) k
  | cancel =>
      simp only [step] at taken
      split at taken
      · cases taken
        exact .refl _
      · cases taken
  | fail i =>
      simp only [step] at taken
      split at taken
      · cases taken
      next e found =>
      cases taken
      refine fail_moves (s := { s with failing := s.failing.eraseIdx i }) ?_ k
      intro ended
      subst ended
      exact sound.failing (List.mem_of_getElem? found)
  | recv bs e => exact recv_moves taken k
  | check => exact check_moves taken k
  | takeChunk => exact takeChunk_moves taken k
  | dispatch draw => exact dispatch_moves sound taken k
  | wakeUp =>
      simp only [step, wakeUp] at taken
      split at taken
      next parked =>
        have start : s.track k = s.trackWith [] [] k := by
          simp only [track, parked, Writer.sentControls, Writer.completed]
        rw [start]
        split at taken
        · cases taken
          exact .refl _
        · split at taken
          · cases taken
            exact .refl _
          · cases taken
      · cases taken
  | batch draws => exact batch_moves sound taken k
  | send n =>
      simp only [step, send] at taken
      split at taken
      next b writing =>
        split at taken
        · cases taken
        · cases taken
          have same : ({ s with
              sent := s.sent ++ b.unsent.take n
              writer := .writing { b with unsent := b.unsent.drop n } }).track k =
              s.track k := by
            unfold track
            simp only [writing, Writer.sentControls, Writer.completed]
            rfl
          rw [same]
          exact .refl _
      · cases taken
  | writeEnd e => exact writeEnd_moves taken k

/-! ## Soundness is kept -/

theorem fits_discardFor {server : Bool} {lastID : Nat} {reader : Reader}
    (fits : reader.Fits server lastID) (k : Nat) :
    (reader.discardFor k).Fits server lastID := by
  cases reader <;> exact fits

theorem Kept.sound {s s' : Session} (kept : Kept s s') (sound : s.Sound) : s'.Sound := by
  have halted : s'.reader.halted = s.reader.halted := by
    rcases kept.reader with same | ⟨k, same⟩
    · rw [same]
    · rw [same, halted_discardFor]
  exact {
    shape := kept.shape ▸ sound.shape
    odd := by rw [kept.server, kept.lastID]; exact sound.odd
    reading := by
      rw [kept.server, kept.lastID]
      rcases kept.reader with same | ⟨k, same⟩
      · rw [same]
        exact sound.reading
      · rw [same]
        exact fits_discardFor sound.reading k
    failing := by
      intro member
      rw [halted]
      rcases kept.failing _ member with old | full | bad | failed
      · exact sound.failing old
      · cases full
      · cases bad
      · exact sound.err failed
    err := by
      rw [kept.err, halted]
      exact sound.err }

/-- A stopped read loop meets every condition on its position. -/
theorem stopReader_sound {s : Session} (sound : s.Sound) (cause : Err) (last : Reader) :
    (s.stopReader cause last).Sound where
  shape := sound.shape
  odd := sound.odd
  reading := trivial
  failing _ := rfl
  err _ := rfl

/-- A running read loop that moves on to a position that fits. -/
theorem reader_sound {s : Session} (sound : s.Sound) (running : s.reader.halted = false)
    {s' : Session} (reading : s'.reader.Fits s'.server s'.lastID)
    (shape : s'.shape = s.shape) (server : s'.server = s.server)
    (lastID : s'.server = false → s'.lastID = s.lastID)
    (failing : s'.failing = s.failing) (err : s'.err = s.err) : s'.Sound where
  shape := shape ▸ sound.shape
  odd client := by
    rw [lastID client]
    exact sound.odd (server ▸ client)
  reading := reading
  failing := by
    rw [failing]
    intro member
    exact absurd (sound.failing member) (by simp [running])
  err := by
    rw [err]
    intro ended
    exact absurd (sound.err ended) (by simp [running])

theorem check_sound {s s' : Session} (sound : s.Sound) (taken : s.check = some s') :
    s'.Sound := by
  rcases check_cases taken with ⟨h, position, size, ⟨-, rfl⟩ | ⟨hd, read,
    ⟨data, -, -, rfl⟩ | ⟨data, -, st, -, -, -, -, rfl⟩ | ⟨control, open_, -, rfl⟩⟩⟩
  · exact stopReader_sound sound _ _
  all_goals
    have running : s.reader.halted = false := by rw [position]; rfl
    have valid := (readHeader_sound size read).2
  · exact reader_sound sound running ⟨valid, data⟩ rfl rfl (fun _ => rfl) rfl rfl
  · exact reader_sound sound running ⟨valid, data⟩ rfl rfl (fun _ => rfl) rfl rfl
  · exact reader_sound sound running ⟨valid, control, Nat.zero_le _, open_⟩ rfl rfl
      (fun _ => rfl) rfl rfl

theorem takeChunk_sound {s s' : Session} (sound : s.Sound) (taken : s.takeChunk = some s') :
    s'.Sound := by
  rcases takeChunk_cases taken with ⟨hd, live, position, ⟨st, -, -, -, -, rfl⟩ | ⟨-, rfl⟩⟩
  all_goals
    have running : s.reader.halted = false := by rw [position]; rfl
    have fits := sound.reading
    rw [position] at fits
    have some_ : ([] : List Byte).length < hd.length := by
      have ok := fits.1.2.2
      rw [fits.2] at ok
      simp only [Kind.lengthOk, Bool.and_eq_true, decide_eq_true_eq] at ok
      exact ok.1
  · exact reader_sound sound running ⟨fits.1, fits.2, some_⟩ rfl rfl (fun _ => rfl) rfl rfl
  · exact reader_sound sound running ⟨fits.1, fits.2, some_⟩ rfl rfl (fun _ => rfl) rfl rfl

/-- Publishing bytes concerns streams only. -/
theorem published_kept (s : Session) (id : Nat) (bs : List Byte) (discard complete : Bool) :
    Kept s (s.published id bs discard complete) ∧
      (s.published id bs discard complete).reader = s.reader ∧
      (s.published id bs discard complete).failing = s.failing := by
  unfold published
  split
  · exact ⟨(Kept.refl s).set _ _, rfl, rfl⟩
  · exact ⟨.refl s, rfl, rfl⟩

theorem recv_sound {s s' : Session} {bs : List Byte} {e : Option Err} (sound : s.Sound)
    (taken : s.recv bs e = some s') : s'.Sound := by
  have heard : (s.hears bs).Sound :=
    ⟨sound.shape, sound.odd, sound.reading, sound.failing, sound.err⟩
  have fits := sound.reading
  unfold recv at taken
  split at taken
  · cases taken
  simp only at taken
  split at taken
  · next h position =>
      have running : (s.hears bs).reader.halted = false := by
        rw [show (s.hears bs).reader = .header h from position]
        rfl
      rcases recvHeader_cases taken with ⟨-, size, ⟨-, rfl⟩ | ⟨-, cause, -, rfl⟩⟩
      · exact reader_sound heard running size rfl rfl (fun _ => rfl) rfl rfl
      · exact stopReader_sound heard _ _
  · next hd live p position =>
      have running : (s.hears bs).reader.halted = false := by
        rw [show (s.hears bs).reader = .payload hd live p from position]
        rfl
      rw [show s.reader = .payload hd live p from position] at fits
      rcases recvPayload_cases taken with ⟨-, size, ⟨-, -, rfl⟩ | ⟨cause, -, rfl⟩⟩
      · exact reader_sound heard running ⟨fits.1, fits.2.1, size, fits.2.2.2⟩ rfl rfl
          (fun _ => rfl) rfl rfl
      · exact stopReader_sound heard _ _
  · next hd got discard position =>
      have running : (s.hears bs).reader.halted = false := by
        rw [show (s.hears bs).reader = .receiving hd got discard from position]
        rfl
      rw [show s.reader = .receiving hd got discard from position] at fits
      rcases recvData_cases taken with
        ⟨-, ⟨-, -, rfl⟩ | ⟨-, part, rfl⟩ | ⟨cause, -, rfl⟩⟩
      · rcases published_kept (s.hears bs) hd.id bs discard true with ⟨kept, -, failing⟩
        exact reader_sound heard running (Nat.zero_le _) kept.shape kept.server
          (fun _ => kept.lastID) failing kept.err
      · rcases published_kept (s.hears bs) hd.id bs discard false with ⟨kept, -, failing⟩
        exact reader_sound heard running ⟨fits.1, fits.2.1, part⟩ kept.shape kept.server
          (fun _ => kept.lastID) failing kept.err
      · exact stopReader_sound ((published_kept _ _ _ _ _).1.sound heard) _ _
  · cases taken

theorem dispatch_sound {s s' : Session} {draw : Nat} (sound : s.Sound)
    (taken : s.dispatch draw = some s') : s'.Sound := by
  rcases dispatch_cases taken with ⟨hd, live, p, position, -, outcome⟩
  have running : s.reader.halted = false := by rw [position]; rfl
  have fits := sound.reading
  rw [position] at fits
  rcases outcome with ⟨open_, outcome⟩ | ⟨-, -, rfl⟩ | ⟨-, st, -, ⟨-, rfl⟩ | ⟨-, rfl⟩⟩
  · have server := (fits.2.2.2 open_).1
    rcases outcome with ⟨-, rfl⟩ | ⟨e, -, rfl⟩
    · rcases admission_cases s hd.id p draw with
        ⟨-, ⟨-, admitted⟩ | ⟨e, -, admitted⟩⟩ | ⟨-, admitted⟩ <;> rw [admitted] <;>
        exact reader_sound sound running (Nat.zero_le _) rfl rfl
          (fun client => absurd (client.symm.trans server) (by simp)) rfl rfl
    · refine ⟨?_, ?_, trivial, fun _ => rfl, fun _ => rfl⟩
      · rcases admission_cases s hd.id p draw with
          ⟨-, ⟨-, admitted⟩ | ⟨e, -, admitted⟩⟩ | ⟨-, admitted⟩ <;> rw [admitted] <;>
          exact sound.shape
      · intro client
        rcases admission_cases s hd.id p draw with
          ⟨-, ⟨-, admitted⟩ | ⟨e, -, admitted⟩⟩ | ⟨-, admitted⟩ <;> rw [admitted] at client <;>
          exact absurd (client.symm.trans server) (by simp)
  · exact reader_sound sound running (Nat.zero_le _) rfl rfl (fun _ => rfl) rfl rfl
  · exact stopReader_sound sound _ _
  · cases kind : hd.kind <;>
      exact reader_sound sound running (Nat.zero_le _) rfl rfl (fun _ => rfl) rfl rfl

theorem batch_sound {s s' : Session} {d : Draws} (sound : s.Sound)
    (taken : s.batch d = some s') : s'.Sound := by
  rcases batch_cases sound.shape taken with ⟨-, ⟨-, rfl⟩ | ⟨-, -, -, rfl⟩ |
    ⟨-, sentControls, rest, a, work, more, padding, -, -, -, -, emits, rfl⟩⟩
  · exact ⟨sound.shape, sound.odd, sound.reading, sound.failing, sound.err⟩
  · exact ⟨sound.shape, sound.odd, sound.reading, sound.failing, sound.err⟩
  · have kept := emits.emitted
    have valid := sound.shape
    refine ⟨?_, ?_, ?_, ?_, ?_⟩
    · simp only [kept.shape]
      exact ⟨valid.credit_low, valid.credit_ordered, valid.credit_high, valid.quantum_low,
        valid.quantum_ordered, valid.quantum_high, valid.startup_low, valid.startup_ordered⟩
    · simp only [kept.server, kept.lastID]
      exact sound.odd
    · simp only [kept.reader, kept.server, kept.lastID]
      exact sound.reading
    · simp only [kept.failing, kept.reader]
      exact sound.failing
    · simp only [kept.err, kept.reader]
      exact sound.err

theorem open_sound {s : Session} (sound : s.Sound) (metadata : List Byte) (draw : Nat) :
    (s.open metadata draw).1.Sound := by
  rcases s.open_cases metadata draw with same | ⟨-, client, -, -, -, -, outcome⟩
  · rw [same]
    exact sound
  have odd : s.nextID % 2 = 1 := by
    have odd := sound.odd client
    rw [nextID]
    split_ifs <;> omega
  have reading : s.reader.Fits s.server s.nextID := by
    have fits := sound.reading
    cases position : s.reader with
    | payload hd live p =>
        rw [position] at fits
        refine ⟨fits.1, fits.2.1, fits.2.2.1, fun open_ => ?_⟩
        have server := (fits.2.2.2 open_).1
        rw [client] at server
        cases server
    | _ =>
        rw [position] at fits
        exact fits
  rcases outcome with ⟨-, outcome⟩ | ⟨-, outcome⟩ <;> rw [outcome] <;>
    exact ⟨sound.shape, fun _ => .inr odd, reading, sound.failing, sound.err⟩

theorem fail_sound {s : Session} (sound : s.Sound) {e : Err}
    (ended : e = .eof → s.reader.halted = true) : (s.fail e).Sound := by
  unfold fail
  split
  · exact sound
  · refine ⟨sound.shape, sound.odd, sound.reading, sound.failing, fun failed => ?_⟩
    exact ended (Option.some.inj failed)

/-- Every step keeps soundness. -/
theorem step_sound {s s' : Session} {action : Action} (sound : s.Sound)
    (taken : s.step action = some s') : s'.Sound := by
  have same : ∀ {s' : Session}, s'.shape = s.shape → s'.server = s.server →
      s'.lastID = s.lastID → s'.reader = s.reader →
      (.eof ∈ s'.failing → .eof ∈ s.failing) → s'.err = s.err → s'.Sound := by
    intro s' shape server lastID reader failing err
    refine ⟨shape ▸ sound.shape, ?_, ?_, ?_, ?_⟩
    · rw [server, lastID]
      exact sound.odd
    · rw [reader, server, lastID]
      exact sound.reading
    · intro member
      rw [reader]
      exact sound.failing (failing member)
    · rw [err, reader]
      exact sound.err
  cases action with
  | «open» metadata draw =>
      cases taken
      exact open_sound sound metadata draw
  | accept =>
      simp only [step, accept] at taken
      split at taken
      · cases taken
      · cases taken
        exact same rfl rfl rfl rfl id rfl
  | respond j code =>
      rcases Option.map_eq_some_iff.mp taken with ⟨⟨_, result⟩, made, rfl⟩
      exact (respond_kept made).sound sound
  | callReturn j wake =>
      rcases Option.map_eq_some_iff.mp taken with ⟨⟨_, result⟩, made, rfl⟩
      exact (callReturn_kept made).sound sound
  | read j n draw =>
      rcases Option.map_eq_some_iff.mp taken with ⟨⟨_, result⟩, made, rfl⟩
      exact (read_kept made).sound sound
  | write j p =>
      rcases Option.map_eq_some_iff.mp taken with ⟨⟨_, result⟩, made, rfl⟩
      exact (write_kept made).sound sound
  | writeReturn j =>
      rcases Option.map_eq_some_iff.mp taken with ⟨⟨_, result⟩, made, rfl⟩
      exact (writeReturn_kept made).sound sound
  | closeWrite j =>
      rcases Option.map_eq_some_iff.mp taken with ⟨⟨_, result⟩, made, rfl⟩
      exact (closeWrite_kept made).sound sound
  | finish j =>
      rcases Option.map_eq_some_iff.mp taken with ⟨⟨_, result⟩, made, rfl⟩
      exact (finish_kept made).sound sound
  | close j => exact (close_kept taken).sound sound
  | closeSession =>
      cases taken
      exact fail_sound sound (by simp)
  | cancel =>
      simp only [step] at taken
      split at taken
      · cases taken
        exact same rfl rfl rfl rfl id rfl
      · cases taken
  | fail i =>
      simp only [step] at taken
      split at taken
      · cases taken
      next e found =>
      cases taken
      have before := @same { s with failing := s.failing.eraseIdx i }
        rfl rfl rfl rfl List.mem_of_mem_eraseIdx rfl
      refine fail_sound before ?_
      intro ended
      subst ended
      exact sound.failing (List.mem_of_getElem? found)
  | recv bs e => exact recv_sound sound taken
  | check => exact check_sound sound taken
  | takeChunk => exact takeChunk_sound sound taken
  | dispatch draw => exact dispatch_sound sound taken
  | wakeUp =>
      simp only [step, wakeUp] at taken
      split at taken
      · split at taken
        · cases taken
          exact same rfl rfl rfl rfl id rfl
        · split at taken
          · cases taken
            exact same rfl rfl rfl rfl id rfl
          · cases taken
      · cases taken
  | batch draws => exact batch_sound sound taken
  | send n =>
      simp only [step, send] at taken
      split at taken
      · split at taken
        · cases taken
        · cases taken
          exact same rfl rfl rfl rfl id rfl
      · cases taken
  | writeEnd e =>
      rcases writeEnd_cases taken with ⟨b, -, ⟨-, -, rfl⟩ | ⟨cause, -, other, -, rfl⟩⟩
      · exact same rfl rfl rfl rfl id rfl
      · refine same rfl rfl rfl rfl (fun member => ?_) rfl
        rcases List.mem_append.mp member with old | new
        · exact old
        · exact (other (List.mem_singleton.mp new).symm).elim

theorem reachable_sound {server : Bool} {ok : Session → Action → Prop} {s : Session}
    (reached : (machine server).ReachableBy ok s) : s.Sound := by
  refine reached.invariant (P := Sound) ?_
    fun _ _ _ _ sound _ taken => step_sound sound taken
  rintro s ⟨shape, valid, rfl⟩
  exact ⟨valid, fun _ => .inl rfl, Nat.zero_le _, by simp [Session.new], by simp [Session.new]⟩

/-- The track of a stream no session step has touched. -/
def initialTrack (server : Bool) (k : Nat) : Track where
  id := k
  server := server
  above := Nat.blt 0 k
  err := none
  halted := false
  st := none
  listed := false
  queue := []
  sending := []
  finishing := false
  out := []
  inn := []
  progress := .away

/--
The invariant rule for streams: what holds of every initial track and is kept
by every allowed move holds of every track of a reached session.
-/
theorem reachable_track {server : Bool} {ok : Session → Action → Prop}
    {A : Event → Prop} {P : Track → Prop}
    (permits : ∀ s action k event, ok s action → s.Occurs action k event → A event)
    (initially : ∀ k, P (initialTrack server k))
    (preserved : ∀ event t t', A event → Track.Move event t t' → P t → P t')
    {s : Session} (reached : (machine server).ReachableBy ok s) (k : Nat) :
    P (s.track k) := by
  revert k
  refine reached.invariant (P := fun s => ∀ k, P (s.track k)) ?_ ?_
  · rintro s ⟨shape, -, rfl⟩ k
    exact initially k
  · intro s action s' before held fine taken k
    have moves := step_moves (reachable_sound before) taken k
    exact (moves.mono fun event occurs => permits s action k event fine occurs).invariant
      preserved (held k)

end Session

end Veil.Mux

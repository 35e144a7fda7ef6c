import Veil.Rust.Refine

/-!
# A Rust session on the wire

What holds of the whole session in every run: the map `streams` lists the slots,
the read loop holds part of a valid frame, the bytes read spell the frames
processed, and the bytes sent and waiting in `out` spell the frames put into
batches.
-/

namespace Veil.Rust

open Veil.Lib
open Veil.Mux (Byte Kind Header Frame readHeader readHeader_sound encodeAll
  frames_selfDelimiting blockSize headerSize maxStreams)

namespace Reader

/-- The bytes read of a frame that has not been processed. -/
def pending : Reader → List Byte
  | .header h => h
  | .payload hd p => hd.bytes ++ p
  | .data hd got => hd.bytes ++ got

end Reader

namespace Session

/-- The histories of the transport agree with those of the frames. -/
structure Wired (s : Session) : Prop where
  idle : s.writing = false → s.out = [] ∧ s.touched = []
  sent : encodeAll s.emitted = s.sent ++ s.out
  received : s.received = encodeAll s.processed ++ s.reader.pending
  valid : ∀ f ∈ s.processed, f.Valid

/-- What a call leaves alone: both loops and their histories. -/
structure Quiet (s s' : Session) : Prop where
  server : s'.server = s.server
  traffic : s'.traffic = s.traffic
  reader : s'.reader = s.reader
  writing : s'.writing = s.writing
  out : s'.out = s.out
  touched : s'.touched = s.touched
  emitted : s'.emitted = s.emitted
  processed : s'.processed = s.processed
  received : s'.received = s.received
  sent : s'.sent = s.sent
  running : s'.ended = none → s.ended = none

/-- The map `streams` has the same keys. -/
structure SameKeys (s s' : Session) : Prop where
  ids : s'.ids = s.ids
  high : s'.high = s.high
  keys : ∀ k, (s'.slots k).isSome = (s.slots k).isSome

namespace Quiet

theorem refl (s : Session) : Quiet s s :=
  ⟨rfl, rfl, rfl, rfl, rfl, rfl, rfl, rfl, rfl, rfl, id⟩

theorem trans {s s' s'' : Session} (first : Quiet s s') (second : Quiet s' s'') :
    Quiet s s'' where
  server := second.server.trans first.server
  traffic := second.traffic.trans first.traffic
  reader := second.reader.trans first.reader
  writing := second.writing.trans first.writing
  out := second.out.trans first.out
  touched := second.touched.trans first.touched
  emitted := second.emitted.trans first.emitted
  processed := second.processed.trans first.processed
  received := second.received.trans first.received
  sent := second.sent.trans first.sent
  running still := first.running (second.running still)

theorem wired {s s' : Session} (quiet : Quiet s s') (wired : s.Wired) : s'.Wired where
  idle := by
    rw [quiet.writing, quiet.out, quiet.touched]
    exact wired.idle
  sent := by
    rw [quiet.emitted, quiet.sent, quiet.out]
    exact wired.sent
  received := by
    rw [quiet.received, quiet.processed, quiet.reader]
    exact wired.received
  valid := by
    rw [quiet.processed]
    exact wired.valid

end Quiet

namespace SameKeys

theorem refl (s : Session) : SameKeys s s := ⟨rfl, rfl, fun _ => rfl⟩

theorem trans {s s' s'' : Session} (first : SameKeys s s') (second : SameKeys s' s'') :
    SameKeys s s'' where
  ids := second.ids.trans first.ids
  high := second.high.trans first.high
  keys k := (second.keys k).trans (first.keys k)

theorem set (s : Session) {k : Nat} {st : Slot} (here : s.slots k = some st) (st' : Slot) :
    SameKeys s (s.set k st') where
  ids := rfl
  high := rfl
  keys := (Writes.set s here st').keys

theorem keyed {s s' : Session} (same : SameKeys s s') (keyed : s.Keyed) : s'.Keyed where
  keys k := by
    rw [same.ids, same.keys]
    exact keyed.keys k
  sorted := by
    rw [same.ids]
    exact keyed.sorted
  below k member := by
    rw [same.ids] at member
    rw [same.high]
    exact keyed.below k member

end SameKeys

/-- A step that keeps the keys keeps what the refinement needs. -/
theorem Sound.keep {s s' : Session} (sound : s.Sound) (quiet : Quiet s s')
    (same : SameKeys s s') : s'.Sound where
  keyed := same.keyed sound.keyed
  odd := by
    rw [same.high]
    exact sound.odd
  traffic := by
    rw [quiet.traffic]
    exact sound.traffic
  framed := by
    rw [quiet.reader, quiet.server, same.high]
    exact sound.framed
  fresh running := by
    rw [quiet.reader, same.high]
    exact sound.fresh (quiet.running running)

/-- `control` changes the queue and one history variable only. -/
theorem control_quiet (s : Session) (kind : Kind) (id : Nat) (p : List Byte) :
    Quiet s (s.control kind id p).1 ∧ SameKeys s (s.control kind id p).1 := by
  by_cases credit : kind = .credit
  · subst credit
    rcases control_credit s id p with outcome | ⟨-, outcome⟩ |
      ⟨before, c, after, -, -, -, ⟨-, outcome⟩ | ⟨-, outcome⟩⟩ <;> rw [outcome] <;>
      exact ⟨{ Quiet.refl s with }, { SameKeys.refl s with }⟩
  · rcases control_plain s kind credit id p with ⟨-, outcome⟩ | ⟨-, outcome⟩ <;>
      rw [outcome] <;> exact ⟨{ Quiet.refl s with }, { SameKeys.refl s with }⟩

/-- Replacing a slot and then queueing a frame. -/
theorem set_control_quiet (s : Session) {k : Nat} {st : Slot} (here : s.slots k = some st)
    (st' : Slot) (kind : Kind) (p : List Byte) :
    Quiet s ((s.set k st').control kind k p).1 ∧ SameKeys s ((s.set k st').control kind k p).1 := by
  have queued := control_quiet (s.set k st') kind k p
  have replaced : Quiet s (s.set k st') := { Quiet.refl s with }
  exact ⟨replaced.trans queued.1, (SameKeys.set s here st').trans queued.2⟩

theorem fail_quiet (s : Session) (e : ErrorKind) : Quiet s (s.fail e) ∧ SameKeys s (s.fail e) := by
  unfold fail
  split
  · exact ⟨.refl s, .refl s⟩
  · exact ⟨{ Quiet.refl s with }, { SameKeys.refl s with keys := by simp }⟩

/-- One of the goroutines that decided to fail the session does. -/
theorem failing_quiet (s : Session) (i : Nat) (e : ErrorKind) :
    Quiet s ({ s with failing := s.failing.eraseIdx i }.fail e) ∧
      SameKeys s ({ s with failing := s.failing.eraseIdx i }.fail e) := by
  have failed := fail_quiet { s with failing := s.failing.eraseIdx i } e
  exact ⟨{ failed.1 with }, { failed.2 with }⟩

theorem accept_quiet {s : Session} {k : Nat} {r : Session × Option ErrorKind}
    (taken : s.accept k = some r) : Quiet s r.1 ∧ SameKeys s r.1 := by
  unfold accept at taken
  split at taken
  · cases taken
  next st here =>
  split at taken
  · cases taken
    exact ⟨.refl s, .refl s⟩
  split at taken
  · cases taken
    exact ⟨.refl s, .refl s⟩
  · cases taken
    exact set_control_quiet s here _ _ _

theorem reject_quiet {s : Session} {k : Nat} {code : Byte} {r : Session × Option ErrorKind}
    (taken : s.reject k code = some r) : Quiet s r.1 ∧ SameKeys s r.1 := by
  unfold reject at taken
  split at taken
  · cases taken
  next st here =>
  split at taken
  · cases taken
    exact ⟨.refl s, .refl s⟩
  · cases taken
    exact set_control_quiet s here _ _ _

theorem finish_quiet {s : Session} {k : Nat} {r : Session × Option ErrorKind}
    (taken : s.finish k = some r) : Quiet s r.1 ∧ SameKeys s r.1 := by
  unfold finish at taken
  split at taken
  · cases taken
  split at taken
  · split at taken
    · cases taken
      exact ⟨.refl s, .refl s⟩
    split at taken
    · cases taken
      exact ⟨.refl s, .refl s⟩
    · cases taken
      exact control_quiet s _ _ _
  · cases taken
    exact ⟨.refl s, .refl s⟩

theorem pollRead_quiet {s : Session} {k n : Nat} {r : Session × Poll}
    (taken : s.pollRead k n = some r) : Quiet s r.1 ∧ SameKeys s r.1 := by
  unfold pollRead at taken
  split at taken
  · cases taken
  next st here =>
  split at taken
  · cases taken
    exact ⟨.refl s, .refl s⟩
  split at taken
  · cases taken
    exact ⟨.refl s, .refl s⟩
  simp only at taken
  split at taken
  · split at taken <;> next outcome =>
      cases taken
      rw [← congrArg Prod.fst outcome]
      exact set_control_quiet s here _ _ _
  · cases taken
    exact ⟨{ Quiet.refl s with }, SameKeys.set s here _⟩

theorem pollWrite_quiet {s : Session} {k : Nat} {buf : List Byte}
    {r : Session × Except ErrorKind (Option Nat)} (taken : s.pollWrite k buf = some r) :
    Quiet s r.1 ∧ SameKeys s r.1 := by
  unfold pollWrite at taken
  split at taken
  · cases taken
  next st here =>
  simp only at taken
  split_ifs at taken <;> (try split at taken) <;> cases taken
  all_goals first
    | exact ⟨.refl s, .refl s⟩
    | exact ⟨{ Quiet.refl s with }, SameKeys.set s here _⟩

theorem pollShutdown_quiet {s : Session} {k : Nat} {r : Session × Except ErrorKind Bool}
    (taken : s.pollShutdown k = some r) : Quiet s r.1 ∧ SameKeys s r.1 := by
  unfold pollShutdown at taken
  split at taken
  · cases taken
  next st here =>
  split at taken <;> cases taken
  · exact ⟨.refl s, .refl s⟩
  · exact ⟨{ Quiet.refl s with }, SameKeys.set s here _⟩

theorem keyed_remove {s : Session} (keyed : s.Keyed) (k : Nat) : (s.remove k).Keyed where
  keys j := by
    by_cases same : j = k
    · simp [remove, same]
    · simpa [remove, same] using keyed.keys j
  sorted := keyed.sorted.filter _
  below j member := keyed.below j (List.mem_filter.mp member).1

theorem drop_quiet {s s' : Session} {k : Nat} (keyed : s.Keyed) (taken : s.drop k = some s') :
    Quiet s s' ∧ s'.Keyed ∧ s'.high = s.high := by
  have removed : Quiet s (s.remove k) := { Quiet.refl s with }
  unfold drop at taken
  split at taken
  · cases taken
  split at taken
  · have queued := control_quiet (s.remove k) .reset k []
    split at taken <;> next outcome =>
      cases taken
      rw [outcome] at queued
      have later := queued.2.keyed (keyed_remove keyed k)
      exact ⟨removed.trans { queued.1 with }, { later with }, queued.2.high⟩
  · cases taken
    exact ⟨removed, keyed_remove keyed k, rfl⟩

theorem keyed_insert {s : Session} (keyed : s.Keyed) {k : Nat} (new : s.high < k) (st : Slot) :
    ((s.raise k).insert k st).Keyed where
  keys j := by
    by_cases same : j = k
    · simp [insert, set, same]
    · simpa [insert, set, raise, same] using keyed.keys j
  sorted := by
    refine List.pairwise_append.mpr ⟨keyed.sorted, List.pairwise_singleton _ _, ?_⟩
    intro i member j last
    rw [List.mem_singleton.mp last]
    exact lt_of_le_of_lt (keyed.below i member) new
  below j member := by
    rcases List.mem_append.mp member with old | last
    · exact (keyed.below j old).trans new.le
    · exact (List.mem_singleton.mp last).le

theorem nextID_facts (s : Session) (odd : s.high = 0 ∨ s.high % 2 = 1) :
    s.nextID % 2 = 1 ∧ s.high < s.nextID := by
  simp only [nextID]
  split <;> omega

theorem framed_raise {r : Reader} {server : Bool} {high new : Nat} (framed : r.Framed server high)
    (raised : high ≤ new) : r.Framed server new := by
  cases r with
  | header h => exact framed
  | payload hd p =>
      rcases framed with ⟨valid, kind, short, direction, old⟩
      exact ⟨valid, kind, short, direction, fun other => (old other).trans raised⟩
  | data hd got => exact ⟨framed.1, framed.2.1, framed.2.2.1, framed.2.2.2.trans raised⟩

theorem reserve_quiet {s : Session} (sound : s.Sound) (target : Target) (draw : Nat) :
    Quiet s (s.reserve target draw).1 ∧ (s.reserve target draw).1.Sound := by
  rw [reserve]
  split
  · exact ⟨.refl s, sound⟩
  next role =>
  split
  · exact ⟨.refl s, sound⟩
  simp only [Bool.or_eq_true, not_or, Bool.not_eq_true] at role
  have next_ := s.nextID_facts sound.odd
  rcases control_plain s .open (by simp) s.nextID target.payload with
    ⟨-, outcome⟩ | ⟨-, outcome⟩ <;> rw [outcome]
  · have quiet : Quiet s s.refusing := { Quiet.refl s with }
    exact ⟨quiet, sound.keep quiet { SameKeys.refl s with }⟩
  · have quiet : Quiet s (((s.queued ⟨.open, s.nextID, target.payload⟩).raise s.nextID).insert
        s.nextID (Slot.new (s.traffic.creditBlocks.choose draw))) := { Quiet.refl s with }
    have keyed : (s.queued ⟨.open, s.nextID, target.payload⟩).Keyed := { sound.keyed with }
    refine ⟨quiet, ?_, .inr next_.1, sound.traffic, ?_, fun _ hd p at_ open_ => ?_⟩
    · exact keyed_insert keyed next_.2 _
    · exact framed_raise sound.framed next_.2.le
    · have framed := sound.framed
      rw [show s.reader = .payload hd p from at_] at framed
      cases role.1.symm.trans (framed.2.2.2.1 open_)

/-! ## The loops -/

/-- What the read loop leaves alone: the writer and its histories. -/
structure ReadsOnly (s s' : Session) : Prop where
  server : s'.server = s.server
  traffic : s'.traffic = s.traffic
  writing : s'.writing = s.writing
  out : s'.out = s.out
  touched : s'.touched = s.touched
  emitted : s'.emitted = s.emitted
  sent : s'.sent = s.sent

theorem ReadsOnly.refl (s : Session) : ReadsOnly s s := ⟨rfl, rfl, rfl, rfl, rfl, rfl, rfl⟩

/-- The read loop goes from one position to the next and processes some frames. -/
theorem ReadsOnly.wired {s s' : Session} (only : ReadsOnly s s') (wired : s.Wired)
    (received : s'.received = encodeAll s'.processed ++ s'.reader.pending)
    (valid : ∀ f ∈ s'.processed, f.Valid) : s'.Wired where
  idle := by
    rw [only.writing, only.out, only.touched]
    exact wired.idle
  sent := by
    rw [only.emitted, only.sent, only.out]
    exact wired.sent
  received := received
  valid := valid

/-- A complete frame that has been accepted. -/
theorem accepted_bytes {s : Session} {hd : Header} {p before : List Byte} (valid : hd.Valid)
    (complete : p.length = hd.length) (frames : ∀ f ∈ s.processed, f.Valid)
    (received : before = encodeAll s.processed ++ (hd.bytes ++ p)) :
    before = encodeAll (s.accepted ⟨hd.kind, hd.id, p⟩).processed ++
        (s.accepted ⟨hd.kind, hd.id, p⟩).reader.pending ∧
      ∀ f ∈ (s.accepted ⟨hd.kind, hd.id, p⟩).processed, f.Valid := by
  have header : Frame.header ⟨hd.kind, hd.id, p⟩ = hd := by
    simp [Frame.header, complete]
  constructor
  · rw [received]
    simp [accepted, Reader.pending, Frame.bytes, header]
  · intro f member
    rcases List.mem_append.mp member with old | last
    · exact frames f old
    · rw [List.mem_singleton.mp last, Frame.Valid, header]
      exact valid

theorem recvData_wired {s : Session} {hd : Header} {got bs : List Byte} (sound : s.Sound)
    (wired : s.Wired) (at_ : s.reader = .data hd got)
    (fits : got.length + bs.length ≤ hd.length) :
    ((s.took bs).recvData hd got bs).Wired ∧ ((s.took bs).recvData hd got bs).Sound := by
  have framed := sound.framed
  rw [at_] at framed
  rcases framed with ⟨valid, data, -, old⟩
  have received : (s.took bs).received = encodeAll s.processed ++ (hd.bytes ++ (got ++ bs)) := by
    rw [took, wired.received, at_]
    simp [Reader.pending]
  -- the reader goes on inside the frame, or ends there
  have inside : ∀ s₁, ReadsOnly s s₁ → SameKeys s s₁ → s₁.processed = s.processed →
      s₁.received = (s.took bs).received →
      (s₁.reading (.data hd (got ++ bs))).Wired ∧ (s₁.reading (.data hd (got ++ bs))).Sound := by
    intro s₁ only same processed bytes
    refine ⟨ReadsOnly.wired { only with } wired ?_ ?_, { same.keyed sound.keyed with }, ?_, ?_,
      ⟨valid, data, ?_, ?_⟩, by simp [reading]⟩
    · simp [reading, Reader.pending, bytes, received, processed]
    · simpa [reading, processed] using wired.valid
    · simpa [reading, same.high] using sound.odd
    · simpa [reading, only.traffic] using sound.traffic
    · simpa using fits
    · simpa [reading, same.high] using old
  have complete : ∀ s₁, ReadsOnly s s₁ → SameKeys s s₁ → s₁.processed = s.processed →
      s₁.received = (s.took bs).received → (got ++ bs).length = hd.length →
      (s₁.accepted ⟨.data, hd.id, got ++ bs⟩).Wired ∧
        (s₁.accepted ⟨.data, hd.id, got ++ bs⟩).Sound := by
    intro s₁ only same processed bytes size
    have all : s₁.received = encodeAll s₁.processed ++ (hd.bytes ++ (got ++ bs)) := by
      rw [bytes, received, processed]
    have frame := accepted_bytes valid size (by rw [processed]; exact wired.valid) all
    rw [data] at frame
    refine ⟨ReadsOnly.wired { only with } wired frame.1 frame.2, { same.keyed sound.keyed with },
      ?_, ?_, Nat.zero_le _, by simp [accepted]⟩
    · simpa [accepted, same.high] using sound.odd
    · simpa [accepted, only.traffic] using sound.traffic
  have took_ : ReadsOnly s (s.took bs) := { ReadsOnly.refl s with }
  have tookKeys : SameKeys s (s.took bs) := { SameKeys.refl s with }
  unfold recvData
  rcases publish_cases (s.took bs) hd.id bs ((got ++ bs).length == hd.length) with
    ⟨-, outcome⟩ | ⟨st, here, -, ⟨-, outcome⟩ | ⟨c, -, outcome⟩⟩ <;> rw [outcome] <;> simp only
  · split_ifs with size
    · exact complete _ took_ tookKeys rfl rfl size
    · exact inside _ took_ tookKeys rfl rfl
  · have cut := inside _ took_ tookKeys rfl rfl
    have only := ReadsOnly.refl ((s.took bs).reading (.data hd (got ++ bs)))
    exact ⟨ReadsOnly.wired { only with } cut.1 cut.1.received cut.1.valid,
      { cut.2 with keyed := { cut.2.keyed with }, fresh := by simp [finishTask] }⟩
  · have only : ReadsOnly s ((s.took bs).set hd.id
        (st.published c bs ((got ++ bs).length == hd.length))) := { ReadsOnly.refl s with }
    have same := tookKeys.trans (SameKeys.set (s.took bs) here
      (st.published c bs ((got ++ bs).length == hd.length)))
    split_ifs with size
    · exact complete _ only same rfl rfl size
    · exact inside _ only same rfl rfl

theorem recv_wired {s s' : Session} {bs : List Byte} (sound : s.Sound) (wired : s.Wired)
    (taken : s.recv bs = some s') : s'.Wired ∧ s'.Sound := by
  have framed := sound.framed
  unfold recv at taken
  split at taken
  · cases taken
  split at taken
  · next h at_ =>
    split at taken <;> cases taken
    next fits =>
    rw [not_lt] at fits
    refine ⟨ReadsOnly.wired { ReadsOnly.refl s with } wired ?_ wired.valid,
      { sound.keyed with }, sound.odd, sound.traffic, ?_, by simp [reading]⟩
    · simp [reading, took, Reader.pending, wired.received, at_]
    · simpa [Reader.Framed, reading, took] using fits
  · next hd p at_ =>
    split at taken <;> cases taken
    next fits =>
    rw [not_lt] at fits
    rw [at_] at framed
    refine ⟨ReadsOnly.wired { ReadsOnly.refl s with } wired ?_ wired.valid,
      { sound.keyed with }, sound.odd, sound.traffic,
      ⟨framed.1, framed.2.1, ?_, framed.2.2.2.1, framed.2.2.2.2⟩, fun running hd' p' now open_ => ?_⟩
    · simp [reading, took, Reader.pending, wired.received, at_]
    · simpa using fits
    · cases now
      exact sound.fresh running hd p at_ open_
  · next hd got at_ =>
    split at taken <;> cases taken
    next fits => exact recvData_wired sound wired at_ (not_lt.mp fits)

theorem check_wired {s s' : Session} (sound : s.Sound) (wired : s.Wired)
    (taken : s.check = some s') : s'.Wired ∧ s'.Sound := by
  unfold check at taken
  split at taken
  · next h at_ =>
    split at taken
    · cases taken
    next size =>
    rw [not_not] at size
    split at taken
    · cases taken
      exact ⟨ReadsOnly.wired { ReadsOnly.refl s with } wired wired.received wired.valid,
        { sound with keyed := { sound.keyed with }, fresh := by simp [finishTask] }⟩
    · next s₁ checked =>
      cases taken
      rcases Option.bind_eq_some_iff.mp checked with ⟨hd, read, passed⟩
      rcases readHeader_sound size read with ⟨rfl, valid⟩
      have received : s.received = encodeAll s.processed ++ hd.bytes := by
        rw [wired.received, at_]
        rfl
      unfold checkHeader at passed
      split at passed
      · next allowed =>
        split at passed
        · next data =>
          have old := allows_old (by simp [data]) allowed
          have goesOn : ∀ s₁, ReadsOnly s s₁ → SameKeys s s₁ → s₁.processed = s.processed →
              s₁.received = s.received → (s₁.reading (.data hd [])).Wired ∧
                (s₁.reading (.data hd [])).Sound := by
            intro s₁ only same processed bytes
            refine ⟨ReadsOnly.wired { only with } wired ?_ ?_,
              { same.keyed sound.keyed with }, ?_, ?_, ⟨valid, data, Nat.zero_le _, ?_⟩,
              by simp [reading]⟩
            · simp [reading, Reader.pending, bytes, received, processed]
            · simpa [reading, processed] using wired.valid
            · simpa [reading, same.high] using sound.odd
            · simpa [reading, only.traffic] using sound.traffic
            · simpa [reading, same.high] using old
          split at passed
          · next st found =>
            split at passed <;> cases passed
            have here := (Option.filter_eq_some_iff.mp found).1
            exact goesOn _ { ReadsOnly.refl s with } (SameKeys.set s here _) rfl rfl
          · cases passed
            exact goesOn s (.refl s) (.refl s) rfl rfl
        · next other =>
          cases passed
          refine ⟨ReadsOnly.wired { ReadsOnly.refl s with } wired ?_ wired.valid,
            { sound.keyed with }, sound.odd, sound.traffic, ⟨valid, other, Nat.zero_le _,
            fun open_ => (allows_open open_ allowed).1, fun open_ => allows_old open_ allowed⟩,
            fun _ hd' p now open_ => ?_⟩
          · simp [reading, Reader.pending, received]
          · cases now
            exact (allows_open open_ allowed).2
      · cases passed
  · cases taken

theorem dispatch_wired {s s' : Session} {draw : Nat} (sound : s.Sound) (wired : s.Wired)
    (running : s.ended = none) (taken : s.dispatch draw = some s') : s'.Wired ∧ s'.Sound := by
  have framed := sound.framed
  cases at_ : s.reader with
  | header h => simp [dispatch, at_] at taken
  | data hd got => simp [dispatch, at_] at taken
  | payload hd p =>
      rw [at_] at framed
      rcases framed with ⟨valid, -, -, direction, -⟩
      simp only [dispatch, at_] at taken
      split at taken
      · cases taken
      next size =>
      rw [not_not] at size
      have received : s.received = encodeAll s.processed ++ (hd.bytes ++ p) := by
        rw [wired.received, at_]
        rfl
      -- the frame takes effect and is accepted
      have done : ∀ s₁, ReadsOnly s s₁ → s₁.Keyed → (s₁.high = 0 ∨ s₁.high % 2 = 1) →
          s₁.processed = s.processed → s₁.received = s.received →
          (s₁.accepted ⟨hd.kind, hd.id, p⟩).Wired ∧
            (s₁.accepted ⟨hd.kind, hd.id, p⟩).Sound := by
        intro s₁ only keyed odd processed bytes
        have all : s₁.received = encodeAll s₁.processed ++ (hd.bytes ++ p) := by
          rw [bytes, received, processed]
        have frame := accepted_bytes valid size (by rw [processed]; exact wired.valid) all
        refine ⟨ReadsOnly.wired { only with } wired frame.1 frame.2, { keyed with }, odd, ?_,
          Nat.zero_le _, by simp [accepted]⟩
        simpa [accepted, only.traffic] using sound.traffic
      -- the frame is refused, and the reader stays where it is
      have refused : ∀ s₁ e, ReadsOnly s s₁ → s₁.Keyed → (s₁.high = 0 ∨ s₁.high % 2 = 1) →
          s.high ≤ s₁.high → s₁.processed = s.processed → s₁.received = s.received →
          s₁.reader = s.reader → (s₁.finishTask e).Wired ∧ (s₁.finishTask e).Sound := by
        intro s₁ e only keyed odd raised processed bytes reader
        refine ⟨ReadsOnly.wired { only with } wired ?_ ?_, { keyed with }, odd, ?_, ?_,
          by simp [finishTask]⟩
        · simpa [finishTask, bytes, processed, reader] using wired.received
        · simpa [finishTask, processed] using wired.valid
        · simpa [finishTask, only.traffic] using sound.traffic
        · simpa [finishTask, reader, only.server] using framed_raise sound.framed raised
      by_cases open_ : hd.kind = .open
      · have new := sound.fresh running hd p at_ open_
        have odd : (s.raise hd.id).high = 0 ∨ (s.raise hd.id).high % 2 = 1 := .inr valid.1
        have raised : (s.raise hd.id).Keyed :=
          { sound.keyed with below := fun k member => (sound.keyed.below k member).trans new.le }
        have only : ReadsOnly s (s.raise hd.id) := { ReadsOnly.refl s with }
        rcases takeEffect_open s open_ p draw with outcome | outcome | outcome | outcome <;>
          rw [outcome] at taken <;> simp only [Option.some.injEq] at taken <;> subst taken
        · exact refused _ _ { only with } { raised with } odd new.le rfl rfl rfl
        · exact done _ { only with } { raised with } odd rfl rfl
        · exact refused _ _ { only with } (keyed_insert sound.keyed new _) odd new.le rfl rfl rfl
        · have keyed := keyed_insert sound.keyed new
            (Slot.new (s.traffic.creditBlocks.choose draw))
          exact done _ { only with } { keyed with } odd rfl rfl
      · simp only [takeEffect, if_neg open_] at taken
        have only : ReadsOnly s s := .refl s
        cases found : (s.slots hd.id).filter Slot.live with
        | none =>
            rw [found] at taken
            cases taken
            exact done s only sound.keyed sound.odd rfl rfl
        | some st =>
            have here := (Option.filter_eq_some_iff.mp found).1
            rw [found] at taken
            cases delivered : s.deliver st hd.kind p with
            | error e =>
                simp only [delivered] at taken
                cases taken
                exact refused s e only sound.keyed sound.odd le_rfl rfl rfl rfl
            | ok st' =>
                simp only [delivered] at taken
                cases taken
                exact done _ { only with } ((SameKeys.set s here st').keyed sound.keyed)
                  sound.odd rfl rfl

theorem send_wired {s s' : Session} {n : Nat} (sound : s.Sound) (wired : s.Wired)
    (taken : s.send n = some s') : s'.Wired ∧ s'.Sound := by
  unfold send at taken
  split at taken <;> cases taken
  next able =>
  refine ⟨⟨fun idle => ?_, ?_, wired.received, wired.valid⟩, { sound with
    keyed := { sound.keyed with } }⟩
  · cases able.1.symm.trans idle
  · rw [wired.sent, List.append_assoc, List.take_append_drop]

theorem written_wired {s s' : Session} {e : Option ErrorKind} (sound : s.Sound)
    (wired : s.Wired) (taken : s.written e = some s') : s'.Wired ∧ s'.Sound := by
  unfold written at taken
  split at taken
  · split at taken
    · split at taken <;> cases taken
      exact ⟨{ wired with }, { sound with
        keyed := { sound.keyed with }, fresh := by simp [finishTask] }⟩
    · split at taken <;> cases taken
      next flushed =>
      rw [markAll, foldl_mark]
      have same : SameKeys s (s.marking s.touched) :=
        { SameKeys.refl s with keys := by simp [marking] }
      refine ⟨⟨fun _ => ⟨flushed, rfl⟩, wired.sent, wired.received, wired.valid⟩,
        { sound with keyed := { same.keyed sound.keyed with } }⟩
  · cases taken

theorem batch_wired {s s' : Session} {d : Draws} (sound : s.Sound) (wired : s.Wired)
    (running : s.ended = none) (taken : s.batch d = some s') : s'.Wired ∧ s'.Sound := by
  rcases batch_cases taken with ⟨idle, rfl | ⟨e, -, rfl⟩ | ⟨alive, rfl⟩⟩
  · exact ⟨wired, sound⟩
  · exact ⟨{ wired with }, { sound with
      keyed := { sound.keyed with }, fresh := by simp [finishTask] }⟩
  · have writes := (@assembled_moves (fun _ => True) trivial s d alive running).1
    have empty := wired.idle idle
    rcases writes.frames with ⟨frames, touch, emitted, out, touched, untouched⟩
    have same : SameKeys s (s.assembled d) := ⟨writes.ids, writes.high, writes.keys⟩
    constructor
    · refine ⟨fun still => ?_, ?_, ?_, ?_⟩
      · have none_ : (s.assembled d).out = [] := by
          simp only [handOver, decide_eq_false_iff_not, Nat.not_lt, Nat.le_zero_eq] at still
          exact List.eq_nil_of_length_eq_zero (by omega)
        have noFrames : frames = [] := by
          rw [out, List.append_eq_nil_iff] at none_
          cases frames with
          | nil => rfl
          | cons f rest =>
              have size := congrArg List.length none_.2
              simp [encodeAll, headerSize] at size
        refine ⟨none_, ?_⟩
        show (s.assembled d).touched = []
        rw [touched, empty.2, untouched noFrames]
        rfl
      · show encodeAll (s.assembled d).emitted = (s.assembled d).sent ++ (s.assembled d).out
        rw [emitted, out, writes.sent, Mux.encodeAll_append, wired.sent, List.append_assoc]
      · show (s.assembled d).received = _
        rw [writes.received, wired.received]
        show _ = encodeAll (s.assembled d).processed ++ (s.assembled d).reader.pending
        rw [writes.processed, writes.reader]
      · show ∀ f ∈ (s.assembled d).processed, f.Valid
        rw [writes.processed]
        exact wired.valid
    · refine ⟨{ same.keyed sound.keyed with }, ?_, ?_, ?_, ?_⟩
      · simpa [handOver, writes.high] using sound.odd
      · simpa [handOver, writes.traffic] using sound.traffic
      · simpa [handOver, writes.reader, writes.server, writes.high] using sound.framed
      · simpa [handOver, writes.reader, writes.ended, writes.high] using sound.fresh

theorem watchdog_quiet {s s' : Session} {expired : List Nat} {idle : Bool}
    (taken : s.watchdog expired idle = some s') : Quiet s s' ∧ SameKeys s s' := by
  unfold watchdog at taken
  split at taken
  · cases taken
    exact ⟨{ Quiet.refl s with running := by simp [finishTask] }, { SameKeys.refl s with }⟩
  · simp only at taken
    generalize (fun k => s.liveAt k && expired.contains k) = expires at taken
    have same : SameKeys s (s.expire expires) :=
      { SameKeys.refl s with keys := by simp [expire] }
    rcases resetAll_cases (s.ids.filter expires) (s.expire expires) with
      outcome | ⟨early, j, late, -, outcome⟩ <;> rw [outcome] at taken <;> simp only at taken
    · split at taken <;> cases taken
      · exact ⟨{ Quiet.refl s with running := by simp [finishTask] }, { same with }⟩
      · exact ⟨{ Quiet.refl s with }, { same with }⟩
    · cases taken
      exact ⟨{ Quiet.refl s with running := by simp [finishTask] }, { same with }⟩

/-! ## Runs -/

/-- Every step keeps what the refinement needs and the histories of the transport. -/
theorem step_wired {s s' : Session} {action : Action} (sound : s.Sound) (wired : s.Wired)
    (taken : s.step action = some s') : s'.Wired ∧ s'.Sound := by
  have quietly : ∀ s₁, Quiet s s₁ ∧ SameKeys s s₁ → s₁.Wired ∧ s₁.Sound :=
    fun s₁ both => ⟨both.1.wired wired, sound.keep both.1 both.2⟩
  have dropped : ∀ {s₁ : Session} {k : Nat}, s₁.drop k = some s' → Quiet s s₁ ∧ SameKeys s s₁ →
      s'.Wired ∧ s'.Sound := by
    intro s₁ k gone both
    have before := quietly s₁ both
    rcases drop_quiet before.2.keyed gone with ⟨quiet, keyed, high⟩
    refine ⟨quiet.wired before.1, keyed, ?_, ?_, ?_, fun running => ?_⟩
    · rw [high]
      exact before.2.odd
    · rw [quiet.traffic]
      exact before.2.traffic
    · rw [quiet.reader, quiet.server, high]
      exact before.2.framed
    · rw [quiet.reader, high]
      exact before.2.fresh (quiet.running running)
  cases action with
  | reserve target draw =>
      cases taken
      have reserved := reserve_quiet sound target draw
      exact ⟨reserved.1.wired wired, reserved.2⟩
  | accept k =>
      rcases Option.map_eq_some_iff.mp (call_some taken) with ⟨r, accepted, rfl⟩
      exact quietly _ (accept_quiet accepted)
  | reject k code =>
      rcases Option.map_eq_some_iff.mp (call_some taken) with ⟨r, rejected, rfl⟩
      exact quietly _ (reject_quiet rejected)
  | finish k =>
      rcases Option.map_eq_some_iff.mp (call_some taken) with ⟨r, finished, rfl⟩
      exact quietly _ (finish_quiet finished)
  | drop k => exact dropped (call_some taken) ⟨.refl s, .refl s⟩
  | pollRead k n =>
      rcases Option.map_eq_some_iff.mp (call_some taken) with ⟨r, polled, rfl⟩
      exact quietly _ (pollRead_quiet polled)
  | pollWrite k buf =>
      rcases Option.map_eq_some_iff.mp (call_some taken) with ⟨r, polled, rfl⟩
      exact quietly _ (pollWrite_quiet polled)
  | pollShutdown k =>
      rcases Option.map_eq_some_iff.mp (call_some taken) with ⟨r, polled, rfl⟩
      exact quietly _ (pollShutdown_quiet polled)
  | close =>
      cases taken
      exact quietly _ (fail_quiet s _)
  | incoming =>
      simp only [step] at taken
      split at taken <;> cases taken
      exact quietly _ ⟨{ Quiet.refl s with }, { SameKeys.refl s with }⟩
  | hangUp =>
      cases taken
      exact quietly _ ⟨{ Quiet.refl s with }, { SameKeys.refl s with }⟩
  | dropIncoming =>
      simp only [step] at taken
      split at taken
      · exact dropped taken ⟨{ Quiet.refl s with }, { SameKeys.refl s with }⟩
      · cases taken
  | fail i =>
      simp only [step] at taken
      split at taken <;> cases taken
      next e _ =>
      exact quietly _ (failing_quiet s i e)
  | failTask =>
      rcases Option.map_eq_some_iff.mp taken with ⟨e, -, rfl⟩
      exact quietly _ (fail_quiet s e)
  | recv bs => exact recv_wired sound wired (task_some taken).2
  | recvError e =>
      have ended := (task_some taken).2
      unfold recvError at ended
      split at ended <;> cases ended
      exact quietly _ ⟨{ Quiet.refl s with running := by simp [finishTask] },
        { SameKeys.refl s with }⟩
  | check => exact check_wired sound wired (task_some taken).2
  | dispatch draw => exact dispatch_wired sound wired (task_some taken).1 (task_some taken).2
  | batch draws => exact batch_wired sound wired (task_some taken).1 (task_some taken).2
  | send n => exact send_wired sound wired (task_some taken).2
  | written e => exact written_wired sound wired (task_some taken).2
  | watchdog expired idle => exact quietly _ (watchdog_quiet (task_some taken).2)

/-- A step keeps the role, and does with the transport what `onWire` says. -/
structure Carries (s s' : Session) (traffic : Lib.Traffic Byte) : Prop where
  server : s'.server = s.server
  recorded : match traffic with
    | .quiet => s'.received = s.received ∧ s'.sent = s.sent
    | .take items _ => s'.received = s.received ++ items ∧ s'.sent = s.sent
    | .put items => s'.received = s.received ∧ s'.sent = s.sent ++ items

theorem Quiet.carries {s s' : Session} (quiet : Quiet s s') : Carries s s' .quiet :=
  ⟨quiet.server, quiet.received, quiet.sent⟩

theorem recv_carries {s s' : Session} {bs : List Byte} (taken : s.recv bs = some s') :
    Carries s s' (.take bs false) := by
  unfold recv at taken
  split at taken
  · cases taken
  split at taken <;> split at taken <;> cases taken
  · exact ⟨rfl, rfl, rfl⟩
  · exact ⟨rfl, rfl, rfl⟩
  next hd got at_ _ =>
  unfold recvData
  rcases publish_cases (s.took bs) hd.id bs ((got ++ bs).length == hd.length) with
    ⟨-, outcome⟩ | ⟨st, -, -, ⟨-, outcome⟩ | ⟨c, -, outcome⟩⟩ <;> rw [outcome] <;> simp only
  · split_ifs <;> exact ⟨rfl, rfl, rfl⟩
  · exact ⟨rfl, rfl, rfl⟩
  · split_ifs <;> exact ⟨rfl, rfl, rfl⟩

theorem check_carries {s s' : Session} (taken : s.check = some s') : Carries s s' .quiet := by
  unfold check at taken
  split at taken
  · split at taken
    · cases taken
    split at taken
    · cases taken
      exact ⟨rfl, rfl, rfl⟩
    · next checked =>
      cases taken
      rcases Option.bind_eq_some_iff.mp checked with ⟨hd, -, passed⟩
      unfold checkHeader at passed
      split_ifs at passed
      · split at passed
        · split_ifs at passed
          cases passed
          exact ⟨rfl, rfl, rfl⟩
        · cases passed
          exact ⟨rfl, rfl, rfl⟩
      · cases passed
        exact ⟨rfl, rfl, rfl⟩
  · cases taken

theorem dispatch_carries {s s' : Session} {draw : Nat} (taken : s.dispatch draw = some s') :
    Carries s s' .quiet := by
  unfold dispatch at taken
  split at taken
  · next hd p at_ =>
    split at taken
    · cases taken
    by_cases open_ : hd.kind = .open
    · rcases takeEffect_open s open_ p draw with outcome | outcome | outcome | outcome <;>
        rw [outcome] at taken <;> cases taken <;> exact ⟨rfl, rfl, rfl⟩
    · simp only [takeEffect, if_neg open_] at taken
      cases found : (s.slots hd.id).filter Slot.live with
      | none =>
          rw [found] at taken
          cases taken
          exact ⟨rfl, rfl, rfl⟩
      | some st =>
          rw [found] at taken
          cases delivered : s.deliver st hd.kind p with
          | error e =>
              simp only [delivered] at taken
              cases taken
              exact ⟨rfl, rfl, rfl⟩
          | ok st' =>
              simp only [delivered] at taken
              cases taken
              exact ⟨rfl, rfl, rfl⟩
  · cases taken

theorem step_carries {s s' : Session} {action : Action} (keyed : s.Sound)
    (taken : s.step action = some s') : Carries s s' (s.onWire action) := by
  cases action with
  | reserve target draw =>
      cases taken
      exact (reserve_quiet keyed target draw).1.carries
  | accept k =>
      rcases Option.map_eq_some_iff.mp (call_some taken) with ⟨r, accepted, rfl⟩
      exact (accept_quiet accepted).1.carries
  | reject k code =>
      rcases Option.map_eq_some_iff.mp (call_some taken) with ⟨r, rejected, rfl⟩
      exact (reject_quiet rejected).1.carries
  | finish k =>
      rcases Option.map_eq_some_iff.mp (call_some taken) with ⟨r, finished, rfl⟩
      exact (finish_quiet finished).1.carries
  | drop k => exact (drop_quiet keyed.keyed (call_some taken)).1.carries
  | pollRead k n =>
      rcases Option.map_eq_some_iff.mp (call_some taken) with ⟨r, polled, rfl⟩
      exact (pollRead_quiet polled).1.carries
  | pollWrite k buf =>
      rcases Option.map_eq_some_iff.mp (call_some taken) with ⟨r, polled, rfl⟩
      exact (pollWrite_quiet polled).1.carries
  | pollShutdown k =>
      rcases Option.map_eq_some_iff.mp (call_some taken) with ⟨r, polled, rfl⟩
      exact (pollShutdown_quiet polled).1.carries
  | close =>
      cases taken
      exact (fail_quiet s _).1.carries
  | incoming =>
      simp only [step] at taken
      split at taken <;> cases taken
      exact ⟨rfl, rfl, rfl⟩
  | hangUp =>
      cases taken
      exact ⟨rfl, rfl, rfl⟩
  | dropIncoming =>
      simp only [step] at taken
      split at taken
      · next k rest _ _ =>
        have moved : Session.Keyed { s with incoming := rest } := { keyed.keyed with }
        have gone := (drop_quiet moved taken).1.carries
        exact ⟨gone.server, gone.recorded⟩
      · cases taken
  | fail i =>
      simp only [step] at taken
      split at taken <;> cases taken
      exact (failing_quiet s i _).1.carries
  | failTask =>
      rcases Option.map_eq_some_iff.mp taken with ⟨e, -, rfl⟩
      exact (fail_quiet s e).1.carries
  | recv bs => exact recv_carries (task_some taken).2
  | recvError e =>
      have ended := (task_some taken).2
      unfold recvError at ended
      split at ended <;> cases ended
      cases e with
      | none => exact ⟨rfl, (List.append_nil _).symm, rfl⟩
      | some e => exact ⟨rfl, rfl, rfl⟩
  | check => exact check_carries (task_some taken).2
  | dispatch draw => exact dispatch_carries (task_some taken).2
  | batch draws =>
      rcases batch_cases (task_some taken).2 with ⟨-, rfl | ⟨e, -, rfl⟩ | ⟨alive, rfl⟩⟩
      · exact ⟨rfl, rfl, rfl⟩
      · exact ⟨rfl, rfl, rfl⟩
      · have writes := (@assembled_moves (fun _ => True) trivial s draws alive
          (task_some taken).1).1
        exact ⟨writes.server, writes.received, writes.sent⟩
  | send n =>
      have sent := (task_some taken).2
      unfold send at sent
      split at sent <;> cases sent
      exact ⟨rfl, rfl, rfl⟩
  | written e =>
      have ended := (task_some taken).2
      unfold written at ended
      split at ended
      · split at ended
        · split at ended <;> cases ended
          exact ⟨rfl, rfl, rfl⟩
        · split at ended <;> cases ended
          rw [markAll, foldl_mark]
          exact ⟨rfl, rfl, rfl⟩
      · cases ended
  | watchdog expired idle => exact (watchdog_quiet (task_some taken).2).1.carries

section Reached

variable {server : Bool} {ok : Session → Action → Prop} {s : Session}
  (reached : (machine server).ReachableBy ok s)
include reached

theorem reachable_wired : s.Wired ∧ s.Sound := by
  refine reached.invariant (P := fun s => s.Wired ∧ s.Sound) ?_ ?_
  · rintro s ⟨traffic, draw, preamble, valid, rfl⟩
    have keyed : (start server (traffic.narrowed draw) preamble).Keyed :=
      ⟨by simp [start], by simp [start], by simp [start]⟩
    refine ⟨⟨fun _ => ⟨rfl, rfl⟩, rfl, rfl, by simp [start]⟩, keyed, .inl rfl,
      Traffic.narrowed_valid valid draw, Nat.zero_le _, by simp [start]⟩
  · intro s action s' _ held _ taken
    exact step_wired held.2 held.1 taken

theorem reachable_server : s.server = server := by
  refine reached.invariant (P := fun s => s.server = server) ?_ ?_
  · rintro s ⟨traffic, draw, preamble, valid, rfl⟩
    rfl
  · intro s action s' before held _ taken
    exact (step_carries (reachable_wired before).2 taken).server.trans held

end Reached

/-- The histories `received` and `sent` are those of the transport. -/
theorem endpoint_lawful (server : Bool) : (endpoint server).Lawful where
  initially := by
    rintro s ⟨traffic, draw, preamble, valid, rfl⟩
    exact ⟨rfl, rfl⟩
  recorded := by
    intro s action s' reached taken
    have carried := (step_carries (reachable_wired reached).2 taken).recorded
    have same : (endpoint server).traffic s action = s.onWire action := rfl
    rw [same]
    cases traffic : s.onWire action <;> rw [traffic] at carried <;> exact carried

end Session

end Veil.Rust

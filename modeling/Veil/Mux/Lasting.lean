import Veil.Mux.Chunks

/-!
# What a step of a session leaves to the owners of blocks

The owners of a block go by three things that the session changes: whether a
stream is closed, whether its FIN has come, and the header at which the read
loop stands.  No step opens a stream again, takes a FIN back or moves a read
loop that is inside `receive`; a FIN comes only while it is not; and a stream
is closed only by the two steps that run `closeLocked`, which close the stream
they are about.
-/

namespace Veil.Mux

open Veil.Lib

/-- The header that a read loop inside `receive` has checked. -/
def Reader.inReceive : Reader → Option (Header × Bool)
  | .chunk hd live => some (hd, live)
  | _ => none

@[simp]
theorem Reader.inReceive_discardFor (reader : Reader) (k : Nat) :
    (reader.discardFor k).inReceive = reader.inReceive := by
  cases reader <;> rfl

/-- Whether the stream is closed, and whether its FIN has come. -/
def Stream.marks (st : Stream) : Bool × Bool := (st.closed, st.remoteFIN)

namespace Session

def marks (s : Session) (k : Nat) : Option (Bool × Bool) := (s.objs k).map Stream.marks

theorem marks_of_some {s : Session} {k : Nat} {st : Stream} (here : s.objs k = some st) :
    s.marks k = some (st.closed, st.remoteFIN) := by
  simp [marks, here, Stream.marks]

theorem marks_eq_none {s : Session} {k : Nat} : s.marks k = none ↔ s.objs k = none := by
  simp [marks]

/-- What a step may do to the marks of one stream. -/
inductive Marked (shut heard new : Prop) :
    Option (Bool × Bool) → Option (Bool × Bool) → Prop where
  | same (marks : Option (Bool × Bool)) : Marked shut heard new marks marks
  | shut (now : shut) (fin : Bool) :
      Marked shut heard new (some (false, fin)) (some (true, fin))
  | fin (now : heard) (closed : Bool) :
      Marked shut heard new (some (closed, false)) (some (closed, true))
  | make (now : new) : Marked shut heard new none (some (false, false))

namespace Marked

variable {shut heard new : Prop} {after : Option (Bool × Bool)} {closed fin : Bool}

theorem of_none (marked : Marked shut heard new none after) : after = none ∨ new := by
  cases marked with
  | same => exact .inl rfl
  | make now => exact .inr now

theorem of_some {marks : Bool × Bool} (marked : Marked shut heard new (some marks) after) :
    ∃ marks, after = some marks := by
  cases marked <;> exact ⟨_, rfl⟩

/-- A closed stream stays closed. -/
theorem of_closed (marked : Marked shut heard new (some (true, fin)) after) :
    ∃ fin, after = some (true, fin) := by
  cases marked <;> exact ⟨_, rfl⟩

/-- A stream whose FIN has come keeps it. -/
theorem of_ended (marked : Marked shut heard new (some (closed, true)) after) :
    ∃ closed, after = some (closed, true) := by
  cases marked <;> exact ⟨_, rfl⟩

theorem of_unclosed (marked : Marked shut heard new (some (false, fin)) after) :
    (shut ∧ ∃ fin, after = some (true, fin)) ∨ ∃ fin, after = some (false, fin) := by
  cases marked with
  | same | fin => exact .inr ⟨_, rfl⟩
  | shut now => exact .inl ⟨now, _, rfl⟩

theorem of_unended (marked : Marked shut heard new (some (closed, false)) after)
    (unheard : ¬ heard) : ∃ closed, after = some (closed, false) := by
  cases marked with
  | same | shut => exact ⟨_, rfl⟩
  | fin now => exact (unheard now).elim

end Marked

/-- What every step leaves to the owners of blocks; it may close the streams in `shut`. -/
structure Lasts (shut : Nat → Prop) (s s' : Session) : Prop where
  marks : ∀ k, Marked (shut k) (s.reader.inReceive = none) (k ≤ s'.lastID)
    (s.marks k) (s'.marks k)
  lastID : s.lastID ≤ s'.lastID
  reader : s'.reader.inReceive = s.reader.inReceive ∨
    s.reader.inReceive = none ∧ ∀ hd, s'.reader.inReceive = some (hd, true) →
      ∃ closed, s'.marks hd.id = some (closed, false)

section Objects

variable {s s' : Session} {k : Nat} {st st' : Stream}

theorem marks_set (s : Session) (k : Nat) (st : Stream) (j : Nat) :
    (s.set k st).marks j = if j = k then some st.marks else s.marks j := by
  by_cases own : j = k <;> simp [marks, set, own]

theorem marks_congr (objs : s'.objs = s.objs) (j : Nat) : s'.marks j = s.marks j := by
  rw [marks, objs, marks]

/-- A stream replaced by one with the same marks changes no marks. -/
theorem marks_replace (here : s.objs k = some st) (objs : s'.objs = (s.set k st').objs)
    (same : st'.marks = st.marks) (j : Nat) : s'.marks j = s.marks j := by
  rw [marks_congr objs, marks_set]
  split_ifs with own
  · rw [own, marks, here, same]
    rfl
  · rfl

theorem marks_update (here : s.objs k = some st) (st' : Stream) (same : st'.marks = st.marks)
    (j : Nat) : (s.set k st').marks j = s.marks j :=
  marks_replace here rfl same j

end Objects

theorem inReceive_of_kept {s s' : Session} (kept : Kept s s') :
    s'.reader.inReceive = s.reader.inReceive := by
  rcases kept.reader with same | ⟨k, same⟩ <;> simp [same]

namespace Lasts

variable {shut : Nat → Prop} {s s' : Session} {k : Nat} {st st' : Stream}

theorem steady (marks : ∀ j, s'.marks j = s.marks j) (lastID : s.lastID ≤ s'.lastID)
    (reader : s'.reader.inReceive = s.reader.inReceive) : Lasts shut s s' where
  marks j := by
    rw [marks j]
    exact .same _
  lastID := lastID
  reader := .inl reader

theorem refl (s : Session) : Lasts shut s s := steady (fun _ => rfl) le_rfl rfl

/-- A call that replaces one stream by one with the same marks. -/
theorem kept (kept : Kept s s') (here : s.objs k = some st)
    (objs : s'.objs = (s.set k st').objs) (same : st'.marks = st.marks) : Lasts shut s s' := by
  exact steady (marks_replace here objs same) kept.lastID.ge (inReceive_of_kept kept)

/-- The step concerns one stream, whose marks it may change. -/
theorem one (st' : Stream) (marked : Marked (shut k) (s.reader.inReceive = none) (k ≤ s'.lastID)
    (s.marks k) (some st'.marks)) (objs : s'.objs = (s.set k st').objs)
    (lastID : s.lastID ≤ s'.lastID) (reader : s'.reader.inReceive = s.reader.inReceive) :
    Lasts shut s s' where
  marks j := by
    rw [marks_congr objs, marks_set]
    split_ifs with own
    · rwa [own]
    · exact .same _
  lastID := lastID
  reader := .inl reader

end Lasts

variable {shut : Nat → Prop} {s s' : Session}

theorem fail_lasts (e : Err) : Lasts shut s (s.fail e) := by
  unfold fail
  split
  · exact .refl s
  · refine .steady (fun k => ?_) le_rfl rfl
    have flags : ∀ st : Stream, (s.failStream e k st).marks = st.marks := by
      intro st
      unfold failStream
      split_ifs
      · rw [st.stop_eq]
        rcases st.finishRequest_cases (some (streamError e)) with same | ⟨r, -, -, same⟩ <;>
          rw [same] <;> rfl
      · rfl
    simp [marks, Function.comp_def, flags]

theorem open_lasts (new : ∀ k, s.lastID < k → s.objs k = none) (metadata : List Byte)
    (draw : Nat) : Lasts shut s (s.open metadata draw).1 := by
  have raised := s.lastID_lt_nextID
  have missing := marks_eq_none.mpr (new s.nextID raised)
  have made : ∀ s' : Session, s'.lastID = s.nextID → s'.reader = s.reader →
      s'.objs = (s.set s.nextID
        (Stream.fresh metadata (s.shape.credit.choose draw))).objs → Lasts shut s s' := by
    intro s' lastID reader objs
    refine .one _ ?_ objs (lastID ▸ raised.le) (by rw [reader])
    rw [missing]
    exact .make lastID.ge
  rcases s.open_cases metadata draw with
    same | ⟨-, -, -, -, -, -, ⟨-, outcome⟩ | ⟨-, outcome⟩⟩
  · rw [same]
    exact .refl s
  · rw [outcome]
    exact made _ rfl rfl rfl
  · rw [outcome]
    exact made _ rfl rfl rfl

/-! ## Calls on a stream -/

theorem respond_lasts {k : Nat} {code : Byte} {result : Option Err}
    (taken : s.respond k code = some (s', result)) : Lasts shut s s' := by
  have kept := respond_kept taken
  rcases respond_cases taken with
    ⟨st, here, -, ⟨rfl, -⟩ | ⟨-, -, -, -, ⟨-, -, rfl⟩ | ⟨-, -, -, rfl⟩⟩⟩
  · exact .refl _
  all_goals exact .kept kept here rfl rfl

theorem callReturn_lasts {k : Nat} {wake : Wake} {result : Option Err}
    (taken : s.callReturn k wake = some (s', result)) : Lasts shut s s' := by
  have kept := callReturn_kept taken
  rcases callReturn_cases taken with
    ⟨st, here, ⟨-, -, rest, -, rfl⟩ | ⟨-, -, rest, -, rfl⟩ | ⟨-, -, -, -, rfl⟩⟩ <;>
    exact .kept kept here rfl rfl

theorem write_lasts {k : Nat} {p : List Byte} {result : Option (Option Err)}
    (taken : s.write k p = some (s', result)) : Lasts shut s s' := by
  have kept := write_kept taken
  rcases write_cases taken with ⟨st, here, -, ⟨rfl, -⟩ | ⟨-, -, -, -, -, -, rfl⟩⟩
  · exact .refl _
  · exact .kept kept here rfl rfl

theorem writeReturn_lasts {k n : Nat} {e : Option Err}
    (taken : s.writeReturn k = some (s', n, e)) : Lasts shut s s' := by
  have kept := writeReturn_kept taken
  rcases writeReturn_cases taken with ⟨st, r, rest, here, -, -, -, rfl⟩
  exact .kept kept here rfl rfl

theorem closeWrite_lasts {k : Nat} {result : Option (Option Err)}
    (taken : s.closeWrite k = some (s', result)) : Lasts shut s s' := by
  have kept := closeWrite_kept taken
  rcases closeWrite_cases taken with ⟨st, here, -, ⟨rfl, -⟩ | ⟨-, -, -, -, ⟨-, -, -, rfl⟩ |
    ⟨-, ⟨-, -, rfl⟩ | ⟨-, -, rfl⟩⟩⟩⟩
  · exact .refl _
  all_goals exact .kept kept here rfl rfl

theorem withDeferred_objs (s : Session) (k : Nat) (pending : Bool) :
    (s.withDeferred k pending).objs = s.objs := by
  cases pending <;> rfl

theorem finish_lasts {k : Nat} {result : Option Err}
    (taken : s.finish k = some (s', result)) : Lasts shut s s' := by
  have kept := finish_kept taken
  rcases finish_cases taken with ⟨st, here, -, ⟨rfl, -⟩ | ⟨-, -, -, -, -,
    ⟨e, pending, -, -, -, rfl⟩ | ⟨-, -, rfl⟩⟩⟩
  · exact .refl _
  · exact .kept kept here (withDeferred_objs _ _ _) rfl
  · exact .kept kept here (withDeferred_objs _ _ _) rfl

/-- The stream loses its queue and keeps its FIN. -/
theorem shutStream_lasts {k : Nat} {st : Stream} (here : s.objs k = some st)
    (unclosed : st.closed = false) (now : shut k) {reason : Err}
    (objs : s'.objs = (s.shutStream k st reason).objs) (lastID : s.lastID ≤ s'.lastID)
    (reader : s'.reader.inReceive = s.reader.inReceive) : Lasts shut s s' := by
  refine .one (st.shut reason) ?_ objs lastID reader
  rw [marks_of_some here, unclosed]
  have fin : (st.shut reason).marks = (true, st.remoteFIN) := by
    rw [st.shut_eq]
    rcases st.finishRequest_cases (some reason) with same | ⟨r, -, -, same⟩ <;> rw [same] <;> rfl
  rw [fin]
  exact .shut now _

theorem close_lasts {k : Nat} (now : shut k) (taken : s.close k = some s') :
    Lasts shut s s' := by
  rcases close_cases taken with ⟨st, here, ⟨-, rfl⟩ | ⟨unclosed, ⟨-, -, -, -, -, rfl⟩ |
    ⟨-, -, -, -, -, rfl⟩ | ⟨-, e, -, rfl⟩⟩⟩
  · exact .refl _
  all_goals
    refine shutStream_lasts here unclosed now rfl le_rfl ?_
    exact s.reader.inReceive_discardFor k

/-! ## The two loops -/

theorem check_lasts (taken : s.check = some s') : Lasts shut s s' := by
  rcases check_cases taken with ⟨h, position, -, ⟨-, rfl⟩ | ⟨hd, -,
    ⟨-, -, -, rfl⟩ | ⟨-, -, st, found, -, unended, -, rfl⟩ | ⟨-, -, -, rfl⟩⟩⟩
  · exact .steady (fun _ => rfl) le_rfl (by simp [position, stopReader, Reader.inReceive])
  · refine ⟨fun _ => .same _, le_rfl, .inr ⟨by simp [position, Reader.inReceive], ?_⟩⟩
    rintro _ ⟨⟩
  · have here := (lookup_some.mp found).2.1
    have marks := marks_update here { st with recvCredit := st.recvCredit - 1 } rfl
    refine ⟨fun k => ?_, le_rfl, .inr ⟨by simp [position, Reader.inReceive], ?_⟩⟩
    · have same := marks k
      exact same ▸ .same _
    · rintro _ ⟨⟩
      exact ⟨st.closed, (marks hd.id).trans (by rw [marks_of_some here, unended])⟩
  · exact .steady (fun _ => rfl) le_rfl (by simp [position, Reader.inReceive])

theorem published_marks (s : Session) (id : Nat) (bs : List Byte) (discard complete : Bool)
    (k : Nat) : (s.published id bs discard complete).marks k = s.marks k := by
  unfold published
  split
  · next st here => exact marks_update here (st.publish bs complete) rfl k
  · rfl

theorem recv_lasts {bs : List Byte} {e : Option Err} (taken : s.recv bs e = some s') :
    Lasts shut s s' := by
  unfold recv at taken
  split at taken
  · cases taken
  simp only at taken
  split at taken
  · next h position =>
      rcases recvHeader_cases taken with ⟨-, -, ⟨-, rfl⟩ | ⟨-, cause, -, rfl⟩⟩ <;>
        exact .steady (fun _ => rfl) le_rfl (by simp [position, stopReader, Reader.inReceive])
  · next hd live p position =>
      rcases recvPayload_cases taken with ⟨-, -, ⟨-, -, rfl⟩ | ⟨cause, -, rfl⟩⟩ <;>
        exact .steady (fun _ => rfl) le_rfl (by simp [position, stopReader, Reader.inReceive])
  · next hd got discard position =>
      have lastID := fun complete =>
        (published_kept (s.hears bs) hd.id bs discard complete).1.lastID.ge
      rcases recvData_cases taken with ⟨-, ⟨-, -, rfl⟩ | ⟨-, -, rfl⟩ | ⟨cause, -, rfl⟩⟩ <;>
        exact .steady (published_marks (s.hears bs) hd.id bs discard _) (lastID _)
          (by simp [position, stopReader, consumed, Reader.inReceive])
  · cases taken

theorem admission_lasts {id : Nat} (raised : s.lastID < id)
    (new : ∀ k, s.lastID < k → s.objs k = none) (p : List Byte) (draw : Nat)
    (objs : s'.objs = (s.admission id p draw).1.objs) (lastID : s'.lastID = id)
    (reader : s'.reader.inReceive = s.reader.inReceive) : Lasts shut s s' := by
  have missing := marks_eq_none.mpr (new id raised)
  have above : s.lastID ≤ s'.lastID := lastID ▸ raised.le
  rcases admission_cases s id p draw with
    ⟨-, ⟨-, admitted⟩ | ⟨e, -, admitted⟩⟩ | ⟨-, admitted⟩ <;> rw [admitted] at objs
  · exact .steady (marks_congr objs) above reader
  · exact .steady (marks_congr objs) above reader
  · refine .one (Stream.fresh p (s.shape.credit.choose draw)) ?_ objs above reader
    rw [missing]
    exact .make lastID.ge

theorem admission_lastID (s : Session) (id : Nat) (p : List Byte) (draw : Nat) :
    (s.admission id p draw).1.lastID = id := by
  rcases admission_cases s id p draw with
    ⟨-, ⟨-, admitted⟩ | ⟨e, -, admitted⟩⟩ | ⟨-, admitted⟩ <;> rw [admitted] <;> rfl

theorem afterFrame_lasts {k : Nat} {st : Stream} {t : Kind} {p : List Byte}
    (here : s.objs k = some st) (unclosed : st.closed = false) (now : shut k)
    (fine : ¬ Objects s.server st t p) (outside : s.reader.inReceive = none)
    (objs : s'.objs = (s.afterFrame k st t p).objs) (lastID : s'.lastID = s.lastID)
    (reader : s'.reader.inReceive = none) : Lasts shut s s' := by
  have reader := reader.trans outside.symm
  cases t with
  | opened | finished | credit =>
      exact .steady (marks_replace here objs rfl) lastID.ge reader
  | «open» | data => exact .steady (marks_congr objs) lastID.ge reader
  | failed | reset => exact shutStream_lasts here unclosed now objs lastID.ge reader
  | fin =>
      refine .one { st with remoteFIN := true } ?_ objs lastID.ge reader
      simp only [Objects, not_or, Bool.not_eq_true] at fine
      rw [marks_of_some here, fine.2]
      exact .fin outside _

theorem dispatch_lasts {draw : Nat} (sound : s.Sound)
    (new : ∀ k, s.lastID < k → s.objs k = none)
    (now : ∀ hd live p, s.reader = .payload hd live p → shut hd.id)
    (taken : s.dispatch draw = some s') : Lasts shut s s' := by
  rcases dispatch_cases taken with ⟨hd, live, p, position, -, outcome⟩
  have now := now hd live p position
  have outside : s.reader.inReceive = none := by rw [position]; rfl
  have fits := sound.reading
  rw [position] at fits
  rcases outcome with ⟨open_, ⟨-, rfl⟩ | ⟨e, -, rfl⟩⟩ | ⟨-, -, rfl⟩ |
    ⟨-, st, ⟨-, -, here, unclosed⟩, ⟨-, rfl⟩ | ⟨fine, rfl⟩⟩
  · exact admission_lasts (fits.2.2.2 open_).2 new p draw rfl (admission_lastID _ _ _ _)
      outside.symm
  · exact admission_lasts (fits.2.2.2 open_).2 new p draw rfl (admission_lastID _ _ _ _)
      outside.symm
  · exact .steady (fun _ => rfl) le_rfl outside.symm
  · exact .steady (fun _ => rfl) le_rfl outside.symm
  · refine afterFrame_lasts here unclosed now fine outside rfl ?_ rfl
    cases hd.kind <;> rfl

/-- DATA frames for a batch change no marks. -/
theorem Emits.marks {work work' : Session × Assembly} (emits : Emits work work') (k : Nat) :
    work'.1.marks k = work.1.marks k := by
  induction emits with
  | refl => rfl
  | tail _ step before =>
      rcases step with ⟨j, st, r, n, -, here, -, -, -, -, -, -, -, rfl⟩
      refine (marks_update here { st with
        request := some { r with off := r.off + n }
        sendCredit := st.sendCredit - 1
        transferred := st.transferred + n } rfl k).trans before

theorem batch_lasts {d : Draws} (sound : s.Sound) (taken : s.batch d = some s') :
    Lasts shut s s' := by
  rcases batch_cases sound.shape taken with ⟨-, ⟨-, rfl⟩ | ⟨-, -, -, rfl⟩ |
    ⟨-, sentControls, rest, a, work, more, padding, -, -, -, -, emits, rfl⟩⟩
  · exact .steady (fun _ => rfl) le_rfl rfl
  · exact .steady (fun _ => rfl) le_rfl rfl
  · have kept := emits.emitted
    exact .steady emits.marks kept.lastID.ge (congrArg Reader.inReceive kept.reader)

theorem writeEnd_lasts {e : Option Err} (taken : s.writeEnd e = some s') :
    Lasts shut s s' := by
  rcases writeEnd_cases taken with ⟨b, -, outcome⟩
  have marks : ∀ k, (s.reported b e).marks k = s.marks k := by
    intro k
    have flags : ∀ st, (report b e k st).marks = st.marks := by
      intro st
      unfold report
      split_ifs
      · rcases st.finishRequest_cases e with same | ⟨r, -, -, same⟩ <;> rw [same] <;> rfl
      · rfl
    simp [Session.marks, reported, Function.comp_def, flags]
  rcases outcome with ⟨-, -, rfl⟩ | ⟨cause, -, -, -, rfl⟩ <;> exact .steady marks le_rfl rfl

/-! ## Every step -/

/-- A step closes only the stream that it runs `closeLocked` on. -/
theorem step_lasts {a : Action} (sound : s.Sound) (new : ∀ k, s.lastID < k → s.objs k = none)
    (other : (∀ k n draw, a ≠ .read k n draw) ∧ a ≠ .takeChunk)
    (now : ∀ k byReader, Chunks.Local.closes s a = some (k, byReader) → shut k)
    (taken : s.step a = some s') : Lasts shut s s' := by
  cases a with
  | «open» metadata draw =>
      cases taken
      exact open_lasts new metadata draw
  | accept =>
      rcases Option.map_eq_some_iff.mp taken with ⟨⟨_, result⟩, made, rfl⟩
      unfold accept at made
      split at made
      · cases made
      · cases made
        exact .steady (fun _ => rfl) le_rfl rfl
  | respond k code =>
      rcases Option.map_eq_some_iff.mp taken with ⟨⟨_, result⟩, made, rfl⟩
      exact respond_lasts made
  | callReturn k wake =>
      rcases Option.map_eq_some_iff.mp taken with ⟨⟨_, result⟩, made, rfl⟩
      exact callReturn_lasts made
  | read k n draw => exact (other.1 k n draw rfl).elim
  | write k p =>
      rcases Option.map_eq_some_iff.mp taken with ⟨⟨_, result⟩, made, rfl⟩
      exact write_lasts made
  | writeReturn k =>
      rcases Option.map_eq_some_iff.mp taken with ⟨⟨_, n, e⟩, made, rfl⟩
      exact writeReturn_lasts made
  | closeWrite k =>
      rcases Option.map_eq_some_iff.mp taken with ⟨⟨_, result⟩, made, rfl⟩
      exact closeWrite_lasts made
  | finish k =>
      rcases Option.map_eq_some_iff.mp taken with ⟨⟨_, result⟩, made, rfl⟩
      exact finish_lasts made
  | close k => exact close_lasts (now k false rfl) taken
  | closeSession =>
      cases taken
      exact fail_lasts _
  | cancel =>
      simp only [step] at taken
      split at taken
      · cases taken
        exact .steady (fun _ => rfl) le_rfl rfl
      · cases taken
  | fail i =>
      simp only [step] at taken
      split at taken
      · cases taken
      · next e found =>
          cases taken
          have failed : Lasts shut { s with failing := s.failing.eraseIdx i } _ := fail_lasts e
          exact ⟨failed.marks, failed.lastID, failed.reader⟩
  | recv bs e => exact recv_lasts taken
  | check => exact check_lasts taken
  | takeChunk => exact (other.2 rfl).elim
  | dispatch draw =>
      refine dispatch_lasts sound new (fun hd live p position => ?_) taken
      apply now hd.id true
      simp only [Chunks.Local.closes, position]
  | wakeUp =>
      simp only [step, wakeUp] at taken
      split at taken
      · split_ifs at taken <;> cases taken <;> exact .steady (fun _ => rfl) le_rfl rfl
      · cases taken
  | batch draws => exact batch_lasts sound taken
  | send n =>
      simp only [step, send] at taken
      split at taken
      · split_ifs at taken
        cases taken
        exact .steady (fun _ => rfl) le_rfl rfl
      · cases taken
  | writeEnd e => exact writeEnd_lasts taken

end Session

end Veil.Mux

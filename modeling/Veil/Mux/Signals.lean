import Veil.Mux.Credit

/-!
# What the frames of a stream say about it

The frames queued and sent for a stream are valid and belong to the role of the
session, and a flag is set only when the frame that sets it was sent or read.
A stream that still takes frames has acted on every one of them.
-/

namespace Veil.Mux

open Veil.Lib

/-- Some frame of the list is of the kind. -/
def Has (frames : List Frame) (kind : Kind) : Prop := ∃ f ∈ frames, f.kind = kind

@[simp, grind =]
theorem has_nil (kind : Kind) : Has [] kind ↔ False := by
  simp [Has]

@[simp, grind =]
theorem has_append (first second : List Frame) (kind : Kind) :
    Has (first ++ second) kind ↔ Has first kind ∨ Has second kind := by
  simp only [Has, List.mem_append, or_and_right, exists_or]

@[simp, grind =]
theorem has_cons (f : Frame) (rest : List Frame) (kind : Kind) :
    Has (f :: rest) kind ↔ f.kind = kind ∨ Has rest kind := by
  simp [Has, or_and_right, exists_or]

/-- How often a kind occurs in a list of frames. -/
def times (frames : List Frame) (kind : Kind) : Nat := frames.countP (·.kind = kind)

@[simp, grind =]
theorem times_nil (kind : Kind) : times [] kind = 0 := rfl

@[simp, grind =]
theorem times_append (first second : List Frame) (kind : Kind) :
    times (first ++ second) kind = times first kind + times second kind := by
  simp [times]

@[simp, grind =]
theorem times_cons (f : Frame) (rest : List Frame) (kind : Kind) :
    times (f :: rest) kind = times rest kind + if f.kind = kind then 1 else 0 := by
  simp [times, List.countP_cons]

theorem times_pos {frames : List Frame} {kind : Kind} :
    0 < times frames kind ↔ Has frames kind := by
  simp [times, Has, List.countP_pos_iff]

@[grind →]
theorem times_eq_zero {frames : List Frame} {kind : Kind} (absent : ¬ Has frames kind) :
    times frames kind = 0 := by
  have := @times_pos frames kind
  grind -ring -linarith

namespace Track

/-- The frames queued for a stream. -/
def waiting (t : Track) : List Frame := t.queue.map Control.frame

/-- The frames sent for a stream, followed by those still queued. -/
def frames (t : Track) : List Frame := t.out ++ t.waiting

/-- The frames of a stream fit its role and the flags of the stream. -/
structure Roles (t : Track) : Prop where
  opening : Has t.frames .open → t.server = false
  opened : Has t.frames .opened →
    t.server = true ∧ ∃ st, t.st = some st ∧ st.ready = true
  failed : Has t.frames .failed → t.server = true
  finished : Has t.frames .finished →
    t.server = true ∧ ∃ st, t.st = some st ∧ st.applicationDone = true

theorem roles_move {event : Event} {t t' : Track} (move : Move event t t')
    (placed : t.Placed) (held : t.Roles) : t'.Roles := by
  rcases held with ⟨opening, opened, failed, finished⟩
  have new := placed.new
  simp only [frames, waiting] at *
  cases move <;> constructor <;>
    first | assumption | grind -ring -linarith [deferredFin, frames, waiting]

/-- The flags of a stream fit the frames read for it. -/
structure Answers (t : Track) : Prop where
  answered : ∀ st, t.st = some st → t.server = false → st.ready = true → Has t.inn .opened
  confirmed : ∀ st, t.st = some st → st.peerDone = true → Has t.inn .finished
  asked : t.server = true → t.st ≠ none ∨ t.out ≠ [] ∨ t.queue ≠ [] → Has t.inn .open
  silent : t.server = false → ¬ Has t.inn .open

theorem answers_move {event : Event} {t t' : Track} (move : Move event t t')
    (held : t.Answers) : t'.Answers := by
  rcases held with ⟨answered, confirmed, asked, silent⟩
  cases move <;> constructor <;> first | assumption | grind -ring -linarith [deferredFin]

/-- OPENED, FIN and DONE are sent at most once. -/
structure Once (t : Track) : Prop where
  opened : times t.frames .opened ≤ 1
  fin : times t.frames .fin ≤ 1
  finished : times t.frames .finished ≤ 1
  deferred : ∀ st, t.st = some st → st.pendingFIN = true → times t.frames .fin = 0

theorem once_move {event : Event} {t t' : Track} (move : Move event t t')
    (flags : t.FlagsOk) (placed : t.Placed) (sent : t.BytesSent) (roles : t.Roles)
    (held : t.Once) : t'.Once := by
  rcases held with ⟨opened, fin, finished, deferred⟩
  rcases roles with ⟨-, ready, -, complete⟩
  have new := placed.new
  have postponed : ∀ st, t.st = some st → st.pendingFIN = true → st.localFIN = true :=
    fun st here later => ((flags st here).deferred later).2.1
  have marked : ∀ st, t.st = some st → st.localFIN = false → ¬ Has t.frames .fin := by
    intro st here open_ some_
    rcases (has_append _ _ _).mp some_ with ⟨f, member, kind⟩ | ⟨f, member, kind⟩
    · rcases sent.sent f member kind with ⟨st', here', closed⟩
      cases here.symm.trans here'
      cases open_.symm.trans closed
    · rcases List.mem_map.mp member with ⟨c, queued, rfl⟩
      rcases sent.queued c queued kind with ⟨st', here', closed⟩
      cases here.symm.trans here'
      cases open_.symm.trans closed
  simp only [frames, waiting] at *
  cases move <;> constructor <;>
    first | assumption | grind -ring -linarith [deferredFin, frames, waiting]

/-- The stream is in the map, open, and was alive when the current frame began. -/
def Hearing (t : Track) (st : Stream) : Prop :=
  t.listed = true ∧ st.closed = false ∧ (st.err = none ∨ t.progress.intact = true)

/-- A stream that still takes frames has acted on every frame it has read. -/
structure Heeds (t : Track) (st : Stream) : Prop where
  opened : Has t.inn .opened → st.ready = true
  fin : Has t.inn .fin → st.remoteFIN = true
  finished : Has t.inn .finished → st.peerDone = true
  reset : ¬ Has t.inn .reset
  failed : ¬ Has t.inn .failed

def HeardOk (t : Track) : Prop := ∀ st, t.st = some st → t.Hearing st → t.Heeds st

theorem err_of_live {t : Track} {st : Stream} (alive : t.live = true) (here : t.st = some st) :
    st.err = none := by
  simp only [live, here, Option.any_some, Bool.and_eq_true, Option.isNone_iff_eq_none] at alive
  exact alive.2

section Heeds

variable {t t' : Track} {st st' : Stream}

theorem Heeds.keep (held : t.Heeds st) (inn : t'.inn = t.inn) (ready : st'.ready = st.ready)
    (ended : st'.remoteFIN = st.remoteFIN) (confirmed : st'.peerDone = st.peerDone) :
    t'.Heeds st' := by
  rcases held with ⟨opened, fin, finished, reset, failed⟩
  constructor
  · rwa [inn, ready]
  · rwa [inn, ended]
  · rwa [inn, confirmed]
  · rwa [inn]
  · rwa [inn]

/-- A frame has been read that the stream has acted on. -/
theorem Heeds.frame (held : t.Heeds st) {f : Frame} (inn : t'.inn = t.inn ++ [f])
    (ready : st.ready = true ∨ f.kind = .opened → st'.ready = true)
    (ended : st.remoteFIN = true ∨ f.kind = .fin → st'.remoteFIN = true)
    (confirmed : st.peerDone = true ∨ f.kind = .finished → st'.peerDone = true)
    (other : f.kind ≠ .reset ∧ f.kind ≠ .failed) : t'.Heeds st' := by
  rcases held with ⟨opened, fin, finished, reset, failed⟩
  constructor
  · rw [inn, has_append]
    rintro (old | new)
    · exact ready (.inl (opened old))
    · exact ready (.inr (by simpa using new))
  · rw [inn, has_append]
    rintro (old | new)
    · exact ended (.inl (fin old))
    · exact ended (.inr (by simpa using new))
  · rw [inn, has_append]
    rintro (old | new)
    · exact confirmed (.inl (finished old))
    · exact confirmed (.inr (by simpa using new))
  · simp [inn, reset, other.1]
  · simp [inn, failed, other.2]

/-- A stream whose current frame is lost no longer takes frames. -/
theorem not_hearing (placed : t.Placed) (here : t.st = some st)
    (missed : t.progress.missed = true) : ¬ t.Hearing st := by
  rintro ⟨listed, -, alive⟩
  refine placed.missed missed st here ⟨listed, alive.resolve_right ?_⟩
  cases at_ : t.progress <;> simp_all [Progress.missed, Progress.intact]

theorem Hearing.of_away (hearing : t'.Hearing st') (away : t'.progress = .away)
    (listed : t'.listed = t.listed) (unclosed : st'.closed = st.closed)
    (unfailed : st'.err = st.err) : t.Hearing st := by
  rcases hearing with ⟨inMap, open_, alive⟩
  have alive := alive.resolve_right (by simp [away, Progress.intact])
  exact ⟨listed ▸ inMap, unclosed ▸ open_, .inl (unfailed ▸ alive)⟩

end Heeds

theorem heardOk_move {event : Event} {t t' : Track} (move : Move event t t')
    (placed : t.Placed) (held : t.HeardOk) : t'.HeardOk := by
  intro after found hearing
  cases move with
  | failBare _ _ _ missing | reportBare missing => cases missing.symm.trans found
  | fail _ _ _ here =>
      cases found
      have known := held _ here
      split_ifs at hearing ⊢ with stopped
      · rcases hearing with ⟨listed, unclosed, failed | intact⟩
        · exact absurd failed (by simp [Stream.notifyAll, Stream.stop])
        · exact (known ⟨listed, unclosed, .inr intact⟩).keep rfl rfl rfl rfl
      · exact (known hearing).keep rfl rfl rfl rfl
  | report _ here =>
      cases found
      have known := held _ here
      split_ifs at hearing ⊢ <;> exact (known hearing).keep rfl rfl rfl rfl
  | «open» _ _ _ new | openFull _ _ _ new =>
      rcases placed.new new with ⟨-, -, -, -, inn, -⟩
      constructor <;> simp [inn]
  | arrive _ _ _ new =>
      rcases placed.new new with ⟨-, -, -, -, inn, -⟩
      constructor <;> simp [inn]
  | refuse _ _ new => cases (placed.new new).1.symm.trans found
  | sweep | failed | reset | close | closeQuiet | closeFull => cases hearing.1
  | pass | emitControl => exact (held after found hearing).keep rfl rfl rfl rfl
  | halt =>
      have known := held after found (hearing.of_away rfl rfl rfl rfl)
      exact known.keep rfl rfl rfl rfl
  | control =>
      rcases hearing with ⟨listed, unclosed, unfailed | alive⟩
      · exact (held after found ⟨listed, unclosed, .inl unfailed⟩).keep rfl rfl rfl rfl
      · have unfailed := err_of_live alive found
        exact (held after found ⟨listed, unclosed, .inl unfailed⟩).keep rfl rfl rfl rfl
  | checkedDead | dropChunk =>
      rcases hearing with ⟨listed, unclosed, unfailed | alive⟩
      · exact (held after found ⟨listed, unclosed, .inl unfailed⟩).keep rfl rfl rfl rfl
      · cases alive
  | publishDropped bs at_ | cutDropped bs at_ =>
      have before : t.Hearing after :=
        ⟨hearing.1, hearing.2.1, hearing.2.2.imp_right fun intact => by rw [at_]; exact intact⟩
      exact (held after found before).keep rfl rfl rfl rfl
  | completeDropped bs at_ =>
      have known := held after found (hearing.of_away rfl rfl rfl rfl)
      exact known.frame rfl (by simp) (by simp) (by simp) (by simp)
  | ignore f at_ dead =>
      have unfailed := hearing.2.2.resolve_right (by simp [Progress.intact])
      exact (not_attentive placed found at_ dead ⟨hearing.1, unfailed⟩).elim
  | opened f kind at_ listed here unclosed | fin f kind at_ listed here unclosed
  | finished f kind at_ listed here unclosed | credit f kind at_ listed here unclosed =>
      cases found
      have known := held _ here ⟨listed, unclosed, .inr (by rw [at_]; rfl)⟩
      exact known.frame rfl (by simp [kind]) (by simp [kind]) (by simp [kind]) (by simp [kind])
  | checked _ _ listed here unfailed =>
      cases found
      exact (held _ here ⟨listed, hearing.2.1, .inl unfailed⟩).keep rfl rfl rfl rfl
  | keepChunk at_ listed here unclosed =>
      cases found
      have known := held _ here ⟨listed, unclosed, .inr (by rw [at_]; rfl)⟩
      exact known.keep rfl rfl rfl rfl
  | publish bs at_ here | cut bs at_ here =>
      cases found
      have known := held _ here ⟨hearing.1, hearing.2.1, .inr (by rw [at_]; rfl)⟩
      exact known.keep rfl rfl rfl rfl
  | complete bs at_ here =>
      cases found
      have known := held _ here ⟨hearing.1, hearing.2.1, .inr (by rw [at_]; rfl)⟩
      exact known.frame rfl (by simp [Stream.publish]) (by simp [Stream.publish])
        (by simp [Stream.publish]) (by simp)
  | respond _ here _ _ _ waiting | respondFull _ here _ _ _ waiting
  | respondOver _ here _ _ _ waiting =>
      cases found
      have known := held _ here hearing
      exact { known with opened := fun some_ => by cases waiting.symm.trans (known.opened some_) }
  | controlReturn here | finReturn here | giveUp here | abandon here | advance _ here
  | grant _ here | merge _ here | closeWrite here | closeWriteLater here
  | closeWriteFull here | closeWriteOver here | finish here | finishFull _ here
  | write _ here | writeReturn here | emitData _ _ _ here =>
      cases found
      exact (held _ here hearing).keep rfl rfl rfl rfl
  | @pop _ st c rest here =>
      cases found
      rcases st.pop_eq c.rest with ⟨_, _, same⟩
      rw [same] at hearing ⊢
      exact (held _ here hearing).keep rfl rfl rfl rfl

/-! ## Well-formed frames -/

/-- A frame of this stream, with a payload of a length its kind allows. -/
def Wellformed (t : Track) (f : Frame) : Prop :=
  f.id = t.id ∧ f.kind.lengthOk f.payload.length = true ∧ (f.kind = .credit → f.amount ≠ 0)

/-- Every frame of a stream is one the peer's header check accepts. -/
structure Formed (t : Track) : Prop where
  started : t.st ≠ none ∨ t.frames ≠ [] → t.id % 2 = 1 ∧ t.id < 2 ^ 32
  sent : ∀ f ∈ t.frames, t.Wellformed f
  threshold : ∀ st, t.st = some st → 0 < st.refundAt

theorem Formed.valid {t : Track} (held : t.Formed) {f : Frame} (member : f ∈ t.frames) :
    f.Valid := by
  rcases held.sent f member with ⟨id, short, -⟩
  have started := held.started (.inr (List.ne_nil_of_mem member))
  rw [← id] at started
  exact ⟨started.1, started.2, short⟩

/-- Only well-formed frames have been added to those of the stream. -/
theorem Formed.more {t t' : Track} (held : t.Formed) (id : t'.id = t.id)
    (valid : t.id % 2 = 1 ∧ t.id < 2 ^ 32 ∨
      (t'.st ≠ none → t.st ≠ none) ∧ ∀ f ∈ t'.frames, f ∈ t.frames)
    (threshold : ∀ st, t'.st = some st → 0 < st.refundAt)
    (added : ∀ f ∈ t'.frames, f ∈ t.frames ∨ t.Wellformed f) : t'.Formed := by
  refine ⟨fun some_ => ?_, fun f member => ?_, threshold⟩
  · rw [id]
    rcases valid with valid | ⟨stream, subset⟩
    · exact valid
    · refine held.started (some_.imp stream fun nonempty => ?_)
      rcases List.exists_mem_of_ne_nil _ nonempty with ⟨f, member⟩
      exact List.ne_nil_of_mem (subset f member)
  · rw [Wellformed, id]
    rcases added f member with old | new
    · exact held.sent f old
    · exact new

/-- Control frames have been queued. -/
theorem Formed.queued {t t' : Track} (held : t.Formed) {more : List Control}
    (id : t'.id = t.id) (valid : t.id % 2 = 1 ∧ t.id < 2 ^ 32)
    (threshold : ∀ st, t'.st = some st → 0 < st.refundAt)
    (out : t'.out = t.out) (queue : t'.queue = t.queue ++ more)
    (good : ∀ c ∈ more, t.Wellformed c.frame) : t'.Formed := by
  refine held.more id (.inl valid) threshold fun f member => ?_
  rw [frames, waiting, out, queue, List.map_append, ← List.append_assoc] at member
  refine (List.mem_append.mp member).imp_right fun new => ?_
  rcases List.mem_map.mp new with ⟨c, added, rfl⟩
  exact good c added

theorem formed_move {event : Event} {t t' : Track} (move : Move event t t')
    (window : t.WindowOk) (held : t.Formed) : t'.Formed := by
  have threshold := held.threshold
  have old : ∀ {st}, t.st = some st → t.id % 2 = 1 ∧ t.id < 2 ^ 32 :=
    fun here => held.started (.inl (by simp [here]))
  have kept : ∀ {st st' : Stream}, t.st = some st → st'.refundAt = st.refundAt →
      ∀ after, some st' = some after → 0 < after.refundAt := by
    intro st st' here same after found
    cases found
    rw [same]
    exact threshold st here
  cases move with
  | fail e _ _ here =>
      refine held.more rfl (.inl (old here)) (kept here ?_) fun f member => .inl ?_
      · split_ifs <;> rfl
      · simp only [frames, waiting, List.map_nil, List.append_nil] at member
        exact List.mem_append_left _ member
  | failBare =>
      have subset : ∀ f ∈ t.out ++ [], f ∈ t.frames := fun f member =>
        List.mem_append_left _ (by simpa using member)
      exact held.more rfl (.inr ⟨fun some_ => some_, subset⟩) threshold
        fun f member => .inl (subset f member)
  | pass | halt | sweep | control | ignore | checkedDead | dropChunk | publishDropped
  | completeDropped | cutDropped | reportBare => exact { held with }
  | report e here =>
      refine { held with started := fun _ => old here, threshold := kept here ?_ }
      split_ifs <;> rfl
  | «open» metadata refundAt _ _ _ valid short positive =>
      refine held.queued rfl valid ?_ rfl rfl ?_
      · rintro st ⟨⟩
        exact positive
      · simp [Wellformed, Kind.lengthOk, short]
  | openFull _ _ _ _ _ valid positive | arrive _ _ _ _ valid _ positive =>
      refine held.more rfl (.inl valid) ?_ fun f member => .inl member
      rintro st ⟨⟩
      exact positive
  | refuse p _ _ _ valid =>
      refine held.queued rfl valid threshold rfl rfl ?_
      simp [Wellformed, Kind.lengthOk]
  | respond code here =>
      refine held.queued rfl (old here) (kept here rfl) rfl rfl ?_
      intro c member
      cases List.mem_singleton.mp member
      split_ifs <;> simp [Wellformed, Kind.lengthOk]
  | closeWrite here | close here =>
      refine held.queued rfl (old here) (kept here rfl) rfl rfl ?_
      simp [Wellformed, Kind.lengthOk]
  | @finish _ st here =>
      refine held.queued rfl (old here) (kept here rfl) rfl (List.append_assoc _ _ _) ?_
      cases st.pendingFIN <;> simp [deferredFin, Wellformed, Kind.lengthOk]
  | finishFull queued here =>
      refine held.queued rfl (old here) (kept here rfl) rfl rfl ?_
      cases queued <;> simp [deferredFin, Wellformed, Kind.lengthOk]
  | @grant _ st refundAt here due _ unclosed _ _ positive =>
      refine held.queued rfl (old here) ?_ rfl rfl ?_
      · rintro st ⟨⟩
        exact positive
      · intro c member
        cases List.mem_singleton.mp member
        refine ⟨rfl, by simp [Kind.lengthOk], fun _ => ?_⟩
        have shared := window _ here unclosed
        have amount := amount_refund shared.2.2 (refund_le shared)
        have low := threshold _ here
        simp only [Frame.amount]
        omega
  | @merge _ st before later c refundAt here due _ unclosed _ queued kind fits positive =>
      have shared := window _ here unclosed
      have amount := amount_refund shared.2.2 (refund_le shared)
      have low := threshold _ here
      have own := (held.sent c.frame (by simp [frames, waiting, queued])).1
      refine held.more rfl (.inl (old here)) ?_ fun f member => ?_
      · rintro st ⟨⟩
        exact positive
      · simp only [frames, waiting, queued, List.map_append, List.map_cons, List.mem_append,
          List.mem_cons] at member ⊢
        rcases member with sent | first | new | last
        · exact .inl (.inl sent)
        · exact .inl (.inr (.inl first))
        · subst new
          refine .inr ⟨own, by simp [kind, Kind.lengthOk], fun _ => ?_⟩
          have merged := creditSum_merged kind fits
          rw [creditSum_credit (by exact kind), creditSum_credit kind, amount] at merged
          omega
        · exact .inl (.inr (.inr (.inr last)))
  | @emitControl _ c rest _ queue =>
      have same : ∀ f ∈ t.out ++ [c.frame] ++ rest.map Control.frame, f ∈ t.frames := by
        intro f member
        simpa [frames, waiting, queue] using member
      exact held.more rfl (.inr ⟨fun some_ => some_, same⟩) threshold
        fun f member => .inl (same f member)
  | emitData n _ _ here pending _ some_ available small =>
      refine held.more rfl (.inl (old here)) (kept here rfl) fun f member => ?_
      simp only [frames, waiting, List.mem_append, List.mem_singleton] at member ⊢
      rcases member with (sent | new) | queued
      · exact .inl (.inl sent)
      · subst new
        refine .inr ⟨rfl, ?_, by simp⟩
        simp only [Kind.lengthOk, List.length_take, List.length_drop, Bool.and_eq_true,
          decide_eq_true_eq]
        omega
      · exact .inl (.inr queued)
  | opened _ _ _ _ here | failed _ _ _ _ _ here | fin _ _ _ _ here | reset _ _ _ _ here
  | finished _ _ _ _ here | credit _ _ _ _ here
  | checked _ _ _ here | keepChunk _ _ here | publish _ _ here | complete _ _ here
  | cut _ _ here | respondFull _ here | respondOver _ here
  | controlReturn here | finReturn here | giveUp here | abandon here | advance _ here
  | closeWriteLater here | closeWriteFull here | closeWriteOver here
  | write _ here | writeReturn here | closeQuiet here | closeFull here =>
      exact { held with started := fun _ => old here, threshold := kept here rfl }
  | @pop _ st c rest here =>
      rcases st.pop_eq c.rest with ⟨_, _, same⟩
      exact { held with started := fun _ => old here, threshold := kept here (by rw [same]) }

end Track

/-! ## Results of writes and ends of input -/

/-- A `Write` succeeds only when its last bytes have been consumed. -/
structure Stream.Honest (finishing : Bool) (st : Stream) : Prop where
  whole : finishing = true → st.err = none →
    ∃ r, st.request = some r ∧ r.finished = false ∧ r.off = r.p.length
  past : st.err ≠ none → ∀ r, st.request = some r → r.finished = true
  success : ∀ n, (n, none) ∈ st.writeDone → ∃ r, st.request = some r ∧ n = r.p.length

namespace Stream.Honest

variable {finishing server : Bool} {st st' : Stream}

theorem keep (held : st.Honest finishing) (request : st'.request = st.request)
    (result : st'.writeDone = st.writeDone) (err : st'.err = st.err) :
    st'.Honest finishing := by
  rcases held with ⟨whole, past, success⟩
  exact ⟨by rwa [err, request], by rwa [err, request], by rwa [result, request]⟩

/-- The stream ends, and with it the request. -/
theorem stop (held : st.Honest finishing) (e : Err)
    (request : st'.request = (st.finishRequest (some e)).request)
    (result : st'.writeDone = (st.finishRequest (some e)).writeDone)
    (err : st'.err ≠ none) : st'.Honest finishing := by
  refine ⟨fun _ alive => (err alive).elim, ?_, ?_⟩
  · rw [request]
    intro _ r found
    simp only [Stream.finishRequest, Option.map_eq_some_iff] at found
    rcases found with ⟨r', -, rfl⟩
    rfl
  · intro n member
    rw [result] at member
    rw [request]
    rcases st.finishRequest_cases (some e) with same | ⟨r, found, pending, same⟩
    · rw [same] at member ⊢
      exact held.success n member
    · rw [same] at member ⊢
      simp only [List.mem_append, List.mem_singleton, Prod.mk.injEq, reduceCtorEq, and_false,
        or_false] at member
      rcases held.success n member with ⟨r', found', size⟩
      cases found.symm.trans found'
      exact ⟨_, rfl, size⟩

/-- The last batch of a request has been written, or has failed. -/
theorem report (held : st.Honest true) (e : Option Err) :
    (st.finishRequest e).Honest false := by
  refine ⟨by simp, ?_, ?_⟩
  · intro _ r found
    simp only [Stream.finishRequest, Option.map_eq_some_iff] at found
    rcases found with ⟨r', -, rfl⟩
    rfl
  · intro n member
    rcases st.finishRequest_cases e with same | ⟨r, found, pending, same⟩
    · rw [same] at member ⊢
      exact held.success n member
    · rw [same] at member ⊢
      simp only [List.mem_append, List.mem_singleton, Prod.mk.injEq] at member
      rcases member with old | ⟨rfl, -⟩
      · rcases held.success n old with ⟨r', found', size⟩
        cases found.symm.trans found'
        exact ⟨_, rfl, size⟩
      · have alive : st.err = none := by
          by_contra failed
          cases pending.symm.trans (held.past failed r found)
        rcases held.whole rfl alive with ⟨r', found', -, size⟩
        cases found.symm.trans found'
        exact ⟨_, rfl, size⟩

end Stream.Honest

namespace Track

/-- What the writer is about to report fits the requests. -/
def WritesOk (t : Track) : Prop :=
  (t.finishing = true → t.st ≠ none) ∧ ∀ st, t.st = some st → st.Honest t.finishing

theorem writesOk_move {event : Event} {t t' : Track} (move : Move event t t')
    (flags : t.FlagsOk) (placed : t.Placed) (held : t.WritesOk) : t'.WritesOk := by
  rcases held with ⟨present, held⟩
  have fresh : t.above = true → ∀ metadata refundAt,
      (Stream.fresh metadata refundAt).Honest t.finishing := by
    intro new metadata refundAt
    refine ⟨fun finishing => ?_, by simp [Stream.fresh], by simp [Stream.fresh]⟩
    exact (present finishing (placed.new new).1).elim
  refine ⟨?_, fun after found => ?_⟩
  · cases move with
    | report | reportBare => simp
    | failBare | pass | halt | sweep | refuse | control | ignore | checkedDead | dropChunk
    | publishDropped | completeDropped | cutDropped | emitControl => exact present
    | _ => exact fun _ => by simp
  · cases move with
    | failBare _ _ _ missing | reportBare missing => cases missing.symm.trans found
    | pass | halt | sweep | refuse | control | ignore | checkedDead | dropChunk
    | publishDropped | completeDropped | cutDropped | emitControl => exact held after found
    | fail e _ _ here =>
        cases found
        have honest := held _ here
        split_ifs
        · refine honest.stop (Session.streamError e) rfl rfl ?_
          simp [Stream.notifyAll, Stream.stop]
        · exact honest.keep rfl rfl rfl
    | report e here =>
        cases found
        have honest := held _ here
        split_ifs with finishing
        · rw [finishing] at honest
          exact (honest.report e).keep rfl rfl rfl
        · simp only [Bool.not_eq_true] at finishing
          rw [finishing] at honest
          exact honest.keep rfl rfl rfl
    | «open» _ _ _ new | openFull _ _ _ new | arrive _ _ _ new =>
        cases found
        exact fresh new _ _
    | failed _ _ e _ _ here =>
        cases found
        exact (held _ here).stop e rfl rfl (by simp [Stream.shut, Stream.stop])
    | reset _ _ _ _ here =>
        cases found
        exact (held _ here).stop .reset rfl rfl (by simp [Stream.shut, Stream.stop])
    | close here | closeQuiet here | closeFull here =>
        cases found
        exact (held _ here).stop .closed rfl rfl (by simp [Stream.shut, Stream.stop])
    | opened _ _ _ _ here | fin _ _ _ _ here | finished _ _ _ _ here | credit _ _ _ _ here
    | checked _ _ _ here | keepChunk _ _ here | publish _ _ here | complete _ _ here
    | cut _ _ here | respond _ here | respondFull _ here | respondOver _ here
    | controlReturn here | finReturn here | giveUp here | abandon here | advance _ here
    | grant _ here | merge _ here | closeWrite here | closeWriteLater here
    | closeWriteFull here | closeWriteOver here | finish here | finishFull _ here =>
        cases found
        exact (held _ here).keep rfl rfl rfl
    | @pop _ st c rest here =>
        cases found
        rcases st.pop_eq c.rest with ⟨_, _, same⟩
        rw [same]
        exact (held _ here).keep rfl rfl rfl
    | write p here free unfailed =>
        cases found
        have idle := (flags _ here).idle (by simp [free])
        refine ⟨fun finishing alive => ?_, fun failed => (failed unfailed).elim, ?_⟩
        · rcases (held _ here).whole finishing unfailed with ⟨r, found, -⟩
          cases idle.1.symm.trans found
        · simp [idle.2]
    | @writeReturn _ st r n e rest here waiting reported pending =>
        cases found
        have result := (flags _ here).result pending reported
        refine ⟨fun finishing alive => ?_, by simp, by simp [result.2]⟩
        rcases (held _ here).whole finishing alive with ⟨r', found, unfinished, -⟩
        rw [(flags _ here).unreported r' found unfinished] at reported
        cases reported
    | @emitData _ st r n _ _ here pending unfinished some_ available _ _ unfailed =>
        cases found
        have none_ := (flags _ here).unreported r pending unfinished
        refine ⟨fun finishing _ => ⟨_, rfl, unfinished, ?_⟩, fun failed => ?_, by simp [none_]⟩
        · rcases Bool.or_eq_true_iff.mp finishing with before | last
          · rcases (held _ here).whole before unfailed with ⟨r', found, -, size⟩
            cases pending.symm.trans found
            omega
          · exact of_decide_eq_true last
        · exact (failed unfailed).elim

/-- When the input of a session has ended, only streams that saw FIN are left unharmed. -/
structure Ended (t : Track) : Prop where
  halted : t.err = some .eof → t.halted = true
  fin : t.err = some .eof → ∀ st, t.st = some st → st.err = none → st.remoteFIN = true

theorem ended_move {event : Event} {t t' : Track} (move : Move event t t')
    (flags : t.FlagsOk) (placed : t.Placed) (held : t.Ended) : t'.Ended := by
  rcases held with ⟨halted, fin⟩
  have unlisted := placed.unlisted
  have shut := fun st here => (flags st here).shut
  have complete := fun st here => (flags st here).complete
  have confirmed := fun st here => (flags st here).confirmed
  clear flags placed
  cases move <;> constructor <;> first | assumption | grind -ring -linarith

/-! ## All of it -/

/-- Everything that holds of every stream of every session. -/
structure Inv (t : Track) : Prop where
  flags : t.FlagsOk
  placed : t.Placed
  chunks : t.ChunksOk
  received : t.BytesReceived
  sent : t.BytesSent
  window : t.WindowOk
  send : t.SendOk
  grant : t.GrantOk
  roles : t.Roles
  answers : t.Answers
  once : t.Once
  heard : t.HeardOk
  formed : t.Formed
  writes : t.WritesOk
  ended : t.Ended

theorem inv_move {event : Event} {t t' : Track} (move : Move event t t') (held : t.Inv) :
    t'.Inv where
  flags := flagsOk_move move held.flags
  placed := placed_move move held.placed
  chunks := chunksOk_move move held.flags held.placed held.chunks
  received := bytesReceived_move move held.flags held.placed held.chunks held.received
  sent := bytesSent_move move held.flags held.placed held.sent
  window := windowOk_move move held.flags held.placed held.chunks held.window
  send := sendOk_move move held.placed held.sent held.send
  grant := grantOk_move move held.flags held.placed held.chunks held.window held.grant
  roles := roles_move move held.placed held.roles
  answers := answers_move move held.answers
  once := once_move move held.flags held.placed held.sent held.roles held.once
  heard := heardOk_move move held.placed held.heard
  formed := formed_move move held.window held.formed
  writes := writesOk_move move held.flags held.placed held.writes
  ended := ended_move move held.flags held.placed held.ended

theorem inv_initial (server : Bool) (k : Nat) : (Session.initialTrack server k).Inv := by
  constructor
  case placed => constructor <;> simp [Session.initialTrack, Progress.missed, Progress.taking]
  case sent => constructor <;> simp [Session.initialTrack]
  case send => simp [SendOk, Session.initialTrack]
  case grant => simp [GrantOk, granted, Session.initialTrack]
  case roles => constructor <;> simp [Session.initialTrack, frames, waiting]
  case answers => constructor <;> simp [Session.initialTrack]
  case once => constructor <;> simp [Session.initialTrack, frames, waiting]
  case formed => constructor <;> simp [Session.initialTrack, frames, waiting]
  case writes => simp [WritesOk, Session.initialTrack]
  case ended => constructor <;> simp [Session.initialTrack]
  all_goals
    intro st found
    cases found

end Track

/-- The invariants of streams hold in every run. -/
theorem Session.reachable_inv {server : Bool} {ok : Session → Session.Action → Prop}
    {s : Session} (reached : (Session.machine server).ReachableBy ok s) (k : Nat) :
    (s.track k).Inv :=
  reachable_track (A := fun _ => True) (fun _ _ _ _ _ _ => trivial)
    (Track.inv_initial server) (fun _ _ _ _ move => Track.inv_move move) reached k

end Veil.Mux

import Veil.Mux.Invariant

/-!
# The bytes of a stream

What a stream delivers are the payloads of the DATA frames read for it, in
order: always an initial part of them, and all of them up to FIN when nothing
was lost.  What it sends are the bytes its `Write` calls consumed, with FIN
behind the last of them.
-/

namespace Veil.Mux

open Veil.Lib

/-- The payload bytes of the DATA frames in a list, in order. -/
def payloads (frames : List Frame) : List Byte :=
  (frames.filter (·.kind = .data)).flatMap Frame.payload

@[simp]
theorem payloads_nil : payloads [] = [] := rfl

@[simp]
theorem payloads_append (first second : List Frame) :
    payloads (first ++ second) = payloads first ++ payloads second := by
  simp [payloads]

theorem payloads_data {f : Frame} (data : f.kind = .data) : payloads [f] = f.payload := by
  simp [payloads, data]

theorem payloads_other {f : Frame} (other : f.kind ≠ .data) : payloads [f] = [] := by
  simp [payloads, other]

/-- The bytes a stream has published and not yet returned. -/
def Stream.waiting (st : Stream) : List Byte := st.unread.flatMap Chunk.rest

/-- The bytes read so far of an unfinished DATA frame. -/
def Progress.got : Progress → List Byte
  | .receiving got _ => got
  | .stuck got _ => got
  | _ => []

/-- The frame being read belongs to a stream that was alive at its header. -/
def Progress.intact : Progress → Bool
  | .control live => live
  | .checked live => live
  | .receiving _ discard => !discard
  | .stuck _ discard => !discard
  | .away => false

namespace Track

/-- Nothing addressed to the stream has been lost so far. -/
def Following (t : Track) (st : Stream) : Prop :=
  st.closed = false ∧ st.remoteFIN = false ∧ (st.err = none ∨ t.progress.intact = true)

/-- The bytes of a stream are those of the DATA frames read for it. -/
structure Received (t : Track) (st : Stream) : Prop where
  bound : st.delivered ++ st.waiting <+: payloads t.inn ++ t.progress.got
  whole : t.Following st →
    st.delivered ++ st.waiting = payloads t.inn ++ t.progress.got ∧
      ∀ f ∈ t.inn, f.kind ≠ .fin
  final : st.closed = false → st.remoteFIN = true →
    st.delivered ++ st.waiting = payloads (t.inn.takeWhile (·.kind ≠ .fin))
  heard : st.remoteFIN = true → ∃ f ∈ t.inn, f.kind = .fin

namespace Received

variable {t t' : Track} {st st' : Stream}

/-- Nothing that concerns the bytes received has changed. -/
theorem keep (held : t.Received st)
    (bytes : st'.delivered ++ st'.waiting = st.delivered ++ st.waiting)
    (inn : t'.inn = t.inn) (got : t'.progress.got = t.progress.got)
    (closed : st'.closed = st.closed) (ended : st'.remoteFIN = st.remoteFIN)
    (follows : t'.Following st' → t.Following st) : t'.Received st' := by
  refine ⟨?_, ?_, ?_, ?_⟩
  · rw [bytes, inn, got]
    exact held.bound
  · intro following
    rw [bytes, inn, got]
    exact held.whole (follows following)
  · rw [bytes, inn, closed, ended]
    exact held.final
  · rw [ended, inn]
    exact held.heard

theorem takeWhile_heard {frames more : List Frame} (heard : ∃ f ∈ frames, f.kind = .fin) :
    (frames ++ more).takeWhile (·.kind ≠ .fin) = frames.takeWhile (·.kind ≠ .fin) := by
  induction frames with
  | nil => simp at heard
  | cons f rest induction =>
      by_cases fin : f.kind = .fin
      · simp [fin]
      · have later : ∃ f ∈ rest, f.kind = .fin := by
          rcases heard with ⟨g, member, kind⟩
          rcases List.mem_cons.mp member with rfl | old
          · exact (fin kind).elim
          · exact ⟨g, old, kind⟩
        simpa [fin] using induction later

theorem takeWhile_unheard {frames : List Frame} {f : Frame} (kind : f.kind = .fin)
    (unheard : ∀ f ∈ frames, f.kind ≠ .fin) :
    (frames ++ [f]).takeWhile (·.kind ≠ .fin) = frames := by
  induction frames with
  | nil => simp [kind]
  | cons g rest induction =>
      have first := unheard g (by simp)
      have others := induction fun h member => unheard h (by simp [member])
      simpa [first] using others

/-- A control frame has been read that does not concern the bytes received. -/
theorem frame (held : t.Received st) {f : Frame}
    (bytes : st'.delivered ++ st'.waiting = st.delivered ++ st.waiting)
    (inn : t'.inn = t.inn ++ [f]) (control : f.kind ≠ .data)
    (before : t.progress.got = []) (after : t'.progress.got = [])
    (closed : st'.closed = st.closed) (ended : st'.remoteFIN = st.remoteFIN)
    (follows : t'.Following st' → t.Following st ∧ f.kind ≠ .fin) : t'.Received st' := by
  refine ⟨?_, ?_, ?_, ?_⟩
  · rw [bytes, inn, after, payloads_append, payloads_other control, List.append_nil]
    simpa [before] using held.bound
  · intro following
    rcases follows following with ⟨following, other⟩
    rcases held.whole following with ⟨same, unheard⟩
    rw [bytes, inn, after, same, before, payloads_append, payloads_other control]
    refine ⟨by simp, fun g member => ?_⟩
    rcases List.mem_append.mp member with old | new
    · exact unheard g old
    · rw [List.mem_singleton.mp new]
      exact other
  · intro unclosed fin
    rw [ended] at fin
    rw [bytes, inn, takeWhile_heard (held.heard fin)]
    exact held.final (closed ▸ unclosed) fin
  · intro fin
    rcases held.heard (ended ▸ fin) with ⟨g, member, kind⟩
    exact ⟨g, by simp [inn, member], kind⟩

/-- The stream was closed: what it had published is lost. -/
theorem shut (held : t.Received st) (e : Err) {more : List Frame}
    (inn : t'.inn = t.inn ++ more) (got : t'.progress.got = t.progress.got)
    (plain : t.progress.got = [] ∨ more = []) : t'.Received (st.shut e) := by
  refine ⟨?_, ?_, ?_, ?_⟩
  · have empty : (st.shut e).waiting = [] := rfl
    have delivered : (st.shut e).delivered = st.delivered := rfl
    rw [empty, delivered, List.append_nil, inn, got, payloads_append]
    refine ((List.prefix_append _ _).trans held.bound).trans ?_
    rcases plain with nothing | none_
    · rw [nothing]
      simp
    · rw [none_]
      simp
  · rintro ⟨closed, -⟩
    cases closed
  · intro closed
    cases closed
  · intro fin
    rcases held.heard fin with ⟨g, member, kind⟩
    exact ⟨g, by simp [inn, member], kind⟩

/-- A stream that has just been made. -/
theorem fresh (metadata : List Byte) (refundAt : Nat)
    (inn : payloads t'.inn = [] ∧ ∀ f ∈ t'.inn, f.kind ≠ .fin)
    (got : t'.progress.got = []) : t'.Received (Stream.fresh metadata refundAt) := by
  have none_ : (Stream.fresh metadata refundAt).delivered ++
      (Stream.fresh metadata refundAt).waiting = [] := rfl
  refine ⟨?_, ?_, ?_, ?_⟩
  · rw [none_]
    exact List.nil_prefix
  · intro _
    rw [none_, inn.1, got]
    exact ⟨rfl, inn.2⟩
  · intro _ fin
    cases fin
  · intro fin
    cases fin

/-- Bytes arrive for a stream that follows its frames. -/
theorem data (held : t.Received st) (following : t.Following st) {w : List Byte}
    (bytes : st'.delivered ++ st'.waiting = st.delivered ++ st.waiting ++ w)
    (inn : payloads t'.inn ++ t'.progress.got = payloads t.inn ++ t.progress.got ++ w)
    (unheard : (∀ f ∈ t.inn, f.kind ≠ .fin) → ∀ f ∈ t'.inn, f.kind ≠ .fin)
    (ended : st'.remoteFIN = st.remoteFIN) : t'.Received st' := by
  have unended : st'.remoteFIN = false := ended.trans following.2.1
  have same := (held.whole following).1
  have both : st'.delivered ++ st'.waiting = payloads t'.inn ++ t'.progress.got := by
    rw [bytes, inn, same]
  refine ⟨?_, ?_, ?_, ?_⟩
  · rw [both]
  · exact fun _ => ⟨both, unheard (held.whole following).2⟩
  · intro _ fin
    cases unended.symm.trans fin
  · intro fin
    cases unended.symm.trans fin

/-- Bytes arrive that are dropped. -/
theorem drop (held : t.Received st) {more : List Frame} (inn : t'.inn = t.inn ++ more)
    (grows : payloads t.inn ++ t.progress.got <+: payloads t'.inn ++ t'.progress.got)
    (lost : ¬ t'.Following st) : t'.Received st := by
  refine ⟨held.bound.trans grows, fun following => (lost following).elim, ?_, ?_⟩
  · intro unclosed fin
    rw [inn, takeWhile_heard (held.heard fin)]
    exact held.final unclosed fin
  · intro fin
    rcases held.heard fin with ⟨g, member, kind⟩
    exact ⟨g, by simp [inn, member], kind⟩

/-- FIN ends the bytes of a stream. -/
theorem finish (held : t.Received st) (following : t.Following st) {f : Frame}
    (kind : f.kind = .fin) (got : t.progress.got = []) (inn : t'.inn = t.inn ++ [f])
    (after : t'.progress.got = []) :
    t'.Received { st with remoteFIN := true } := by
  rcases held.whole following with ⟨same, unheard⟩
  rw [got, List.append_nil] at same
  refine ⟨?_, ?_, ?_, ?_⟩
  · rw [inn, after, payloads_append, List.append_nil]
    show st.delivered ++ st.waiting <+: _
    rw [same]
    exact List.prefix_append _ _
  · rintro ⟨-, unended, -⟩
    cases unended
  · intro _ _
    rw [inn, takeWhile_unheard kind unheard]
    exact same
  · exact fun _ => ⟨f, by simp [inn], kind⟩

end Received

/-- Every stream's bytes are those of the DATA frames read for it. -/
def BytesReceived (t : Track) : Prop := ∀ st, t.st = some st → t.Received st

/-- A stream that is open and still waits for FIN is in the map. -/
theorem listed_of_unended {t : Track} {st : Stream} (flags : t.FlagsOk) (placed : t.Placed)
    (here : t.st = some st) (unclosed : st.closed = false) (unended : st.remoteFIN = false) :
    t.listed = true := by
  by_contra unlisted
  rcases placed.unlisted st here (by simpa using unlisted) with closed | complete
  · cases unclosed.symm.trans closed
  · cases unended.symm.trans ((flags st here).complete complete).2.2

/-- A stream whose current frame is dropped has lost something. -/
theorem not_following {t : Track} {st : Stream} (flags : t.FlagsOk) (placed : t.Placed)
    (here : t.st = some st) (missed : t.progress.missed = true) : ¬ t.Following st := by
  rintro ⟨unclosed, unended, alive⟩
  have unfailed : st.err = none := by
    rcases alive with unfailed | intact
    · exact unfailed
    · exfalso
      revert missed intact
      cases t.progress <;> simp [Progress.missed, Progress.intact]
  exact placed.missed missed st here
    ⟨listed_of_unended flags placed here unclosed unended, unfailed⟩

theorem waiting_publish {st : Stream} {before : List Chunk} {c : Chunk}
    (front : st.unread = before ++ [c]) (start : c.start ≤ c.b.length) (bs : List Byte)
    (complete : Bool) : (st.publish bs complete).waiting = st.waiting ++ bs := by
  rw [Stream.waiting, Stream.unread_publish front, Stream.waiting, front]
  simp [Chunk.rest, List.drop_append_of_le_length start]

/-- The rest of a block after some of it has been read. -/
theorem rest_advance {c : Chunk} {bytes rest : List Byte} (split_ : bytes ++ rest = c.rest) :
    ({ c with start := c.start + bytes.length } : Chunk).rest = rest := by
  rw [Chunk.rest] at split_ ⊢
  rw [← List.drop_drop, ← split_, List.drop_left]

/-- A stream whose block is being filled follows its frames. -/
theorem follows_receiving {t : Track} {st : Stream} {got : List Byte} (placed : t.Placed)
    (chunks : t.ChunksOk) (here : t.st = some st)
    (at_ : t.progress = .receiving got false) :
    t.Following st ∧ ∃ before c, st.unread = before ++ [c] ∧ c.start ≤ c.b.length := by
  rcases placed.taking (by rw [at_]; rfl) with ⟨st', here', -, unended⟩
  cases here.symm.trans here'
  rcases placed.holding got at_ with ⟨st', here', unclosed⟩
  cases here.symm.trans here'
  have blocks := chunks _ here
  rw [at_] at blocks
  rcases blocks.last with ⟨before, c, front, bytes, -, start, -⟩
  exact ⟨⟨unclosed, unended, .inr (by rw [at_]; rfl)⟩, before, c, front, bytes ▸ start⟩

theorem bytesReceived_move {event : Event} {t t' : Track} (move : Move event t t')
    (flags : t.FlagsOk) (placed : t.Placed) (chunks : t.ChunksOk) (held : t.BytesReceived) :
    t'.BytesReceived := by
  intro after found
  cases move with
  | failBare _ _ _ missing | reportBare missing => cases missing.symm.trans found
  | fail e _ _ here =>
      cases found
      have received := held _ here
      split_ifs
      · refine received.keep rfl rfl rfl rfl rfl fun following => ⟨following.1, following.2.1, ?_⟩
        rcases following.2.2 with unfailed | intact
        · exact absurd unfailed (by simp [Stream.notifyAll, Stream.stop])
        · exact .inr intact
      · exact received.keep rfl rfl rfl rfl rfl fun following => following
  | report _ here =>
      cases found
      split_ifs <;> exact (held _ here).keep rfl rfl rfl rfl rfl fun following => following
  | «open» _ _ _ new | openFull _ _ _ new =>
      cases found
      rcases placed.new new with ⟨-, -, -, -, inn, away⟩
      exact .fresh _ _ (by simp [inn]) (by simp [away, Progress.got])
  | arrive _ _ _ new =>
      cases found
      rcases placed.new new with ⟨-, -, -, -, inn, away⟩
      exact .fresh _ _ (by simp [inn, payloads]) (by simp [away, Progress.got])
  | refuse _ _ new => cases (placed.new new).1.symm.trans found
  | pass | sweep | emitControl => exact (held after found).keep rfl rfl rfl rfl rfl fun following => following
  | halt outside =>
      have nothing : t.progress.got = [] := by
        rcases outside with away | ⟨live, at_⟩
        · rw [away]; rfl
        · rw [at_]; rfl
      refine (held after found).keep rfl rfl nothing.symm rfl rfl fun following => ?_
      exact ⟨following.1, following.2.1, .inl (following.2.2.resolve_right (by simp [Progress.intact]))⟩
  | control away old =>
      refine (held after found).keep rfl rfl (by rw [away]; rfl) rfl rfl fun following => ?_
      refine ⟨following.1, following.2.1, .inl ?_⟩
      rcases following.2.2 with unfailed | intact
      · exact unfailed
      · have alive : t.live = true := intact
        have here : t.st = some after := found
        simp only [live, here, Option.any_some, Bool.and_eq_true,
          Option.isNone_iff_eq_none] at alive
        exact alive.2
  | checkedDead away =>
      refine (held after found).keep rfl rfl (by rw [away]; rfl) rfl rfl fun following => ?_
      exact ⟨following.1, following.2.1, .inl (following.2.2.resolve_right (by simp [Progress.intact]))⟩
  | dropChunk at_ =>
      refine (held after found).keep rfl rfl (by rw [at_]; rfl) rfl rfl fun following => ?_
      exact ⟨following.1, following.2.1, .inl (following.2.2.resolve_right (by simp [Progress.intact]))⟩
  | checked away _ _ here unfailed =>
      cases found
      exact (held _ here).keep rfl rfl (by rw [away]; rfl) rfl rfl fun following =>
        ⟨following.1, following.2.1, .inl unfailed⟩
  | keepChunk at_ _ here unclosed =>
      cases found
      have inside := (flags _ here).inside
      refine (held _ here).keep ?_ rfl (by rw [at_]; rfl) rfl rfl fun following => ?_
      · simp [Stream.waiting, Stream.unread, List.drop_append_of_le_length inside, Chunk.rest]
      · exact ⟨following.1, following.2.1, .inr (by rw [at_]; rfl)⟩
  | ignore f at_ dead other =>
      refine (held after found).frame rfl rfl other.2 (by rw [at_]; rfl) rfl rfl rfl ?_
      intro following
      have unfailed := following.2.2.resolve_right (by simp [Progress.intact])
      have before : t.Following after := ⟨following.1, following.2.1, .inl unfailed⟩
      rename_i live
      cases live with
      | false => exact (not_following flags placed found (by rw [at_]; rfl) before).elim
      | true =>
          have listed := listed_of_unended flags placed found following.1 following.2.1
          exact (dead ⟨rfl, listed, after, found, following.1⟩).elim
  | opened f kind at_ _ here | finished f kind at_ _ here | credit f kind at_ _ here =>
      cases found
      refine (held _ here).frame rfl rfl (by simp [kind]) (by rw [at_]; rfl) rfl rfl rfl ?_
      exact fun following => ⟨⟨following.1, following.2.1, .inr (by rw [at_]; rfl)⟩, by simp [kind]⟩
  | fin f kind at_ listed here unclosed opened first =>
      cases found
      exact (held _ here).finish ⟨unclosed, first, .inr (by rw [at_]; rfl)⟩ kind
        (by rw [at_]; rfl) rfl rfl
  | failed f kind e at_ _ here | reset f kind at_ _ here =>
      cases found
      exact (held _ here).shut _ rfl (by rw [at_]; rfl) (.inl (by rw [at_]; rfl))
  | close here | closeQuiet here | closeFull here =>
      cases found
      refine (held _ here).shut _ (List.append_nil _).symm ?_ (.inr rfl)
      cases t.progress <;> rfl
  | respond _ here | respondFull _ here | respondOver _ here | controlReturn here
  | finReturn here | giveUp here | abandon here | write _ here | writeReturn here
  | closeWrite here | closeWriteLater here | closeWriteFull here | closeWriteOver here
  | finish here | finishFull _ here | emitData _ _ _ here | grant _ here | merge _ here =>
      cases found
      exact (held _ here).keep rfl rfl rfl rfl rfl fun following => following
  | publish bs at_ here =>
      cases found
      rcases follows_receiving placed chunks here at_ with
        ⟨following, before, c, front, start⟩
      refine (held _ here).data following (w := bs) ?_ ?_ (fun unheard => unheard) rfl
      · rw [waiting_publish front start, ← List.append_assoc]
        rfl
      · rw [at_]
        simp [Progress.got]
  | complete bs at_ here more =>
      cases found
      rcases follows_receiving placed chunks here at_ with
        ⟨following, before, c, front, start⟩
      refine (held _ here).data following (w := bs) ?_ ?_ ?_ rfl
      · rw [waiting_publish front start, ← List.append_assoc]
        rfl
      · rw [at_]
        simp [Progress.got, payloads_data]
      · intro unheard f member
        rcases List.mem_append.mp member with old | new
        · exact unheard f old
        · rw [List.mem_singleton.mp new]
          simp
  | cut bs at_ here =>
      cases found
      rcases follows_receiving placed chunks here at_ with
        ⟨following, before, c, front, start⟩
      refine (held _ here).data following (w := bs) ?_ ?_ (fun unheard => unheard) rfl
      · rw [waiting_publish front start, ← List.append_assoc]
        rfl
      · rw [at_]
        simp [Progress.got]
  | publishDropped bs at_ dropped =>
      rcases dropped with rfl | missing
      · refine (held after found).drop (List.append_nil _).symm ?_ ?_
        · rw [at_]
          simp [Progress.got]
        · intro following
          refine not_following flags placed found (by rw [at_]; rfl)
            ⟨following.1, following.2.1, .inl ?_⟩
          exact following.2.2.resolve_right (by simp [Progress.intact])
      · cases missing.symm.trans found
  | completeDropped bs at_ dropped =>
      rcases dropped with rfl | missing
      · refine (held after found).drop rfl ?_ ?_
        · rw [at_]
          simp [Progress.got, payloads_data]
        · intro following
          refine not_following flags placed found (by rw [at_]; rfl)
            ⟨following.1, following.2.1, .inl ?_⟩
          exact following.2.2.resolve_right (by simp [Progress.intact])
      · cases missing.symm.trans found
  | cutDropped bs at_ dropped =>
      rcases dropped with rfl | missing
      · refine (held after found).drop (List.append_nil _).symm ?_ ?_
        · rw [at_]
          simp [Progress.got]
        · intro following
          refine not_following flags placed found (by rw [at_]; rfl)
            ⟨following.1, following.2.1, .inl ?_⟩
          exact following.2.2.resolve_right (by simp [Progress.intact])
      · cases missing.symm.trans found
  | advance bytes here front copied unfinished =>
      cases found
      refine (held _ here).keep ?_ rfl rfl rfl rfl fun following => following
      rw [Stream.waiting, Stream.unread_advance bytes front, Stream.waiting, front]
      rcases copied with ⟨rest, split_⟩
      simp only [List.flatMap_cons, rest_advance split_, ← split_, Stream.advance,
        List.append_assoc]
  | pop here front complete inside =>
      cases found
      refine (held _ here).keep ?_ rfl rfl ?_ ?_ ?_
      · rw [Stream.waiting, Stream.unread_pop _ front, Stream.waiting, front]
        simp
      · simp
      · simp
      · intro following
        simpa [Following] using following

end Track

/-! ## Sending -/

/-- The bytes that `Write` calls have consumed, the pending one included. -/
def Stream.consumed (st : Stream) : List Byte :=
  st.wrote ++ (st.request.map fun r => r.p.take r.off).getD []

namespace Track

/-- The bytes sent for a stream are those its `Write` calls consumed. -/
structure BytesSent (t : Track) : Prop where
  bytes : payloads t.out = (t.st.map Stream.consumed).getD []
  plain : ∀ c ∈ t.queue, c.frame.kind ≠ .data
  queued : ∀ c ∈ t.queue, c.frame.kind = .fin → ∃ st, t.st = some st ∧ st.localFIN = true
  sent : ∀ f ∈ t.out, f.kind = .fin → ∃ st, t.st = some st ∧ st.localFIN = true
  last : ∀ f ∈ t.out.dropWhile (·.kind ≠ .fin), f.kind ≠ .data

/-- No DATA and no FIN is queued or sent unless the stream's flags say so. -/
theorem finSent_move {event : Event} {t t' : Track} (move : Move event t t')
    (placed : t.Placed) (held : t.BytesSent) :
    (∀ c ∈ t'.queue, c.frame.kind ≠ .data) ∧
      (∀ c ∈ t'.queue, c.frame.kind = .fin → ∃ st, t'.st = some st ∧ st.localFIN = true) ∧
      ∀ f ∈ t'.out, f.kind = .fin → ∃ st, t'.st = some st ∧ st.localFIN = true := by
  rcases held with ⟨-, plain, queued, sent, -⟩
  have new := placed.new
  cases move <;> refine ⟨?_, ?_, ?_⟩ <;> first | assumption | grind -ring -linarith [deferredFin]

theorem dropWhile_append {frames : List Frame} {f : Frame}
    (last : ∀ f ∈ frames.dropWhile (·.kind ≠ .fin), f.kind ≠ .data)
    (fits : f.kind ≠ .data ∨ ∀ g ∈ frames, g.kind ≠ .fin) :
    ∀ g ∈ (frames ++ [f]).dropWhile (·.kind ≠ .fin), g.kind ≠ .data := by
  induction frames with
  | nil =>
      intro g member
      by_cases fin : f.kind = .fin
      · simp only [List.nil_append, fin, ne_eq, not_true_eq_false, decide_false,
          List.dropWhile_cons, Bool.false_eq_true, if_false, List.mem_singleton] at member
        rw [member, fin]
        simp
      · simp [fin] at member
  | cons head rest induction =>
      by_cases fin : head.kind = .fin
      · have plain : f.kind ≠ .data :=
          fits.resolve_right fun unheard => unheard head (by simp) fin
        simp only [List.cons_append, List.dropWhile_cons, fin, ne_eq, not_true_eq_false,
          decide_false, Bool.false_eq_true, if_false] at last ⊢
        intro g member
        rw [← List.cons_append] at member
        rcases List.mem_append.mp member with old | new
        · exact last g old
        · rw [List.mem_singleton.mp new]
          exact plain
      · simp only [List.cons_append, List.dropWhile_cons, fin, ne_eq, not_false_eq_true,
          decide_true, if_true] at last ⊢
        refine induction last ?_
        rcases fits with plain | unheard
        · exact .inl plain
        · exact .inr fun g member => unheard g (by simp [member])

theorem consumed_keep {st st' : Stream} (wrote : st'.wrote = st.wrote)
    (request : st'.request.map (fun r => r.p.take r.off) =
      st.request.map fun r => r.p.take r.off) : st'.consumed = st.consumed := by
  simp only [Stream.consumed, wrote, request]

theorem consumed_finishRequest (st : Stream) (e : Option Err) :
    (st.finishRequest e).consumed = st.consumed := by
  refine consumed_keep rfl ?_
  cases request : st.request <;> simp [Stream.finishRequest, request]

theorem bytesSent_move {event : Event} {t t' : Track} (move : Move event t t')
    (flags : t.FlagsOk) (placed : t.Placed) (held : t.BytesSent) : t'.BytesSent := by
  rcases finSent_move move placed held with ⟨plain, queued, sent⟩
  suffices rest : payloads t'.out = (t'.st.map Stream.consumed).getD [] ∧
      ∀ f ∈ t'.out.dropWhile (·.kind ≠ .fin), f.kind ≠ .data from
    ⟨rest.1, plain, queued, sent, rest.2⟩
  have bytes := held.bytes
  cases move with
  | fail e _ _ here =>
      rw [here] at bytes
      refine ⟨bytes.trans ?_, held.last⟩
      split_ifs
      · exact (consumed_finishRequest _ (some (Session.streamError e))).symm
      · rfl
  | report e here =>
      rw [here] at bytes
      refine ⟨bytes.trans ?_, held.last⟩
      split_ifs
      · exact (consumed_finishRequest _ e).symm
      · rfl
  | «open» _ _ _ new | openFull _ _ _ new | arrive _ _ _ new =>
      have out := (placed.new new).2.2.2.1
      simp only [out]
      exact ⟨rfl, by simp⟩
  | failBare | reportBare | halt | pass | sweep | refuse | control | ignore | checkedDead
  | dropChunk | publishDropped | completeDropped | cutDropped => exact ⟨bytes, held.last⟩
  | opened _ _ _ _ here | fin _ _ _ _ here | finished _ _ _ _ here | credit _ _ _ _ here
  | checked _ _ _ here | keepChunk _ _ here | publish _ _ here | complete _ _ here
  | cut _ _ here | respond _ here | respondFull _ here | respondOver _ here
  | controlReturn here | finReturn here | giveUp here | abandon here | advance _ here
  | grant _ here | merge _ here | closeWrite here | closeWriteLater here
  | closeWriteFull here | closeWriteOver here | finish here | finishFull _ here =>
      rw [here] at bytes
      exact ⟨bytes, held.last⟩
  | failed _ _ e _ _ here =>
      rw [here] at bytes
      exact ⟨bytes.trans (consumed_finishRequest _ (some e)).symm, held.last⟩
  | reset _ _ _ _ here =>
      rw [here] at bytes
      exact ⟨bytes.trans (consumed_finishRequest _ (some .reset)).symm, held.last⟩
  | close here | closeQuiet here | closeFull here =>
      rw [here] at bytes
      exact ⟨bytes.trans (consumed_finishRequest _ (some .closed)).symm, held.last⟩
  | @pop _ st c rest here =>
      rw [here] at bytes
      refine ⟨bytes.trans ?_, held.last⟩
      rcases st.pop_eq c.rest with ⟨_, _, same⟩
      rw [same]
      rfl
  | write p here free =>
      rw [here] at bytes
      refine ⟨bytes.trans ?_, held.last⟩
      have none_ := ((flags _ here).idle (by simp [free])).1
      simp [Stream.consumed, none_]
  | writeReturn here waiting reported pending =>
      rw [here] at bytes
      refine ⟨bytes.trans ?_, held.last⟩
      have count := (flags _ here).result pending reported
      simp [Stream.consumed, pending, count]
  | @emitControl _ c rest alive queue =>
      have control : c.frame.kind ≠ .data := held.plain c (by rw [queue]; simp)
      refine ⟨?_, dropWhile_append held.last (.inl control)⟩
      rw [payloads_append, payloads_other control, List.append_nil]
      exact bytes
  | emitData n alive listed here pending unfinished some_ available small window unfailed =>
      rw [here] at bytes
      have ok := flags _ here
      have writing := ok.writing (ok.pending.mp (by simp [pending]))
      refine ⟨?_, dropWhile_append held.last (.inr fun g member fin => ?_)⟩
      · rw [payloads_append, payloads_data rfl, bytes]
        simp [Stream.consumed, pending, List.take_add]
      · rcases held.sent g member fin with ⟨st, here', marked⟩
        cases here.symm.trans here'
        cases marked.symm.trans writing.2

end Track

end Veil.Mux

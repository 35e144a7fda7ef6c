import Veil.Mux.Legal

/-!
# The words of a server

The frames a server sends for one stream form a word: a refusal, or OPENED with DATA
and CREDIT behind it, one FIN and one DONE, and at any point before DONE a last RESET.
The control queue and the DATA of the batches are two ways out, so the word is that of
the frames sent followed by those that are queued.
-/

namespace Veil.Mux

open Veil.Lib

/-- What a server has said on a stream. -/
inductive Said where
  | nothing
  | refused
  | opened
  | ended
  | finished
  | left
  deriving DecidableEq, Repr

/-- What a server may say next. -/
def Said.next : Said → Kind → Option Said
  | .nothing, .opened => some .opened
  | .nothing, .failed => some .refused
  | .opened, .data | .opened, .credit => some .opened
  | .opened, .fin => some .ended
  | .ended, .credit => some .ended
  | .ended, .finished => some .finished
  | .finished, .credit => some .finished
  | .nothing, .reset | .refused, .reset | .opened, .reset | .ended, .reset => some .left
  | _, _ => none

/-- What has been said with these frames. -/
def Said.spell : Said → List Frame → Option Said
  | said, [] => some said
  | said, f :: rest => (said.next f.kind).bind fun after => after.spell rest

namespace Said

variable {said after : Said} {first second : List Frame}

theorem spell_append : said.spell (first ++ second) =
    (said.spell first).bind fun after => after.spell second := by
  induction first generalizing said with
  | nil => rfl
  | cons f rest induction =>
      rw [List.cons_append, spell, spell, Option.bind_assoc]
      congr 1
      funext next
      exact induction

theorem spell_push (whole : said.spell first = some after) (f : Frame) :
    said.spell (first ++ [f]) = after.next f.kind := by
  rw [spell_append, whole, Option.bind_some, spell]
  cases after.next f.kind <;> rfl

/-- A part of a word from its beginning on is a word. -/
theorem spell_prefix (whole : said.spell (first ++ second) = some after) :
    ∃ between, said.spell first = some between ∧ between.spell second = some after := by
  rw [spell_append, Option.bind_eq_some_iff] at whole
  exact whole

/-- Whoever has said OPENED and nothing final had said that or nothing before. -/
theorem of_spell_opened (whole : said.spell first = some .opened) :
    said = .opened ∨ said = .nothing := by
  induction first generalizing said with
  | nil => exact .inl (Option.some.inj whole)
  | cons f rest induction =>
      rw [spell, Option.bind_eq_some_iff] at whole
      obtain ⟨between, next, later⟩ := whole
      cases said <;> cases kind : f.kind <;> rw [kind] at next <;> cases next <;>
        first | exact .inl rfl | exact .inr rfl | (rcases induction later with h | h <;> cases h)

/-- Only FAILED makes a refusal. -/
theorem failed_of_spell (whole : said.spell first = some .refused) (other : said ≠ .refused) :
    Has first .failed := by
  induction first generalizing said with
  | nil => exact absurd (Option.some.inj whole) other
  | cons f rest induction =>
      rw [spell, Option.bind_eq_some_iff] at whole
      obtain ⟨between, next, later⟩ := whole
      by_cases refused : between = .refused
      · subst refused
        refine ⟨f, List.mem_cons_self, ?_⟩
        cases said <;> cases kind : f.kind <;> rw [kind] at next <;> cases next
      · exact (has_cons f rest .failed).mpr (.inr (induction later refused))

/-- Nothing leads back to silence. -/
theorem eq_nil_of_spell_nothing (whole : said.spell first = some .nothing) : first = [] := by
  induction first generalizing said with
  | nil => rfl
  | cons f rest induction =>
      rw [spell, Option.bind_eq_some_iff] at whole
      obtain ⟨between, next, later⟩ := whole
      obtain rfl := induction later
      obtain rfl := Option.some.inj later
      cases said <;> cases kind : f.kind <;> rw [kind] at next <;> cases next

/-- A frame of another content but the same kind changes nothing. -/
theorem spell_congr (same : first.map Frame.kind = second.map Frame.kind) :
    said.spell first = said.spell second := by
  induction first generalizing said second with
  | nil =>
      rw [List.map_nil, eq_comm, List.map_eq_nil_iff] at same
      rw [same]
  | cons f rest induction =>
      obtain ⟨g, later, rfl, kind, rests⟩ := List.map_eq_cons_iff.mp same.symm
      rw [spell, spell, kind]
      congr 1
      funext next
      exact induction rests.symm

end Said

namespace Track

/-- What a server has said fits the flags of its stream. -/
structure Says (t : Track) (said : Said) : Prop where
  bare : t.st = none → said = .nothing ∨ said = .refused
  unanswered : ∀ st, t.st = some st → st.closed = false → st.ready = false →
    said = .nothing ∨ said = .refused
  opened : ∀ st, t.st = some st → st.closed = false → st.ready = true →
    st.localFIN = false ∨ st.pendingFIN = true → said = .opened
  ended : ∀ st, t.st = some st → st.closed = false → st.localFIN = true →
    st.pendingFIN = false → st.applicationDone = false → said = .ended
  finished : ∀ st, t.st = some st → st.closed = false → st.applicationDone = true →
    said = .opened ∨ said = .ended ∨ said = .finished

/-- The frames of a stream are a word, and while the session is up it fits the stream. -/
def Worded (t : Track) : Prop :=
  ∃ said, Said.nothing.spell t.frames = some said ∧ (t.err = none → t.Says said)

variable {t t' : Track}

/-- Nothing is said, and the stream is as far as it was. -/
theorem Worded.keep (held : t.Worded)
    (frames : t'.frames.map Frame.kind = t.frames.map Frame.kind)
    (fitting : t'.err = none → t.err = none ∧ ∀ said, t.Says said → t'.Says said) :
    t'.Worded := by
  obtain ⟨said, whole, fits⟩ := held
  refine ⟨said, (Said.spell_congr frames).trans whole, fun alive => ?_⟩
  exact (fitting alive).2 said (fits (fitting alive).1)

theorem Says.keep {said : Said} (held : t.Says said) {st st' : Stream} (here : t.st = some st)
    (after : t'.st = some st') (closed : st'.closed = false → st.closed = false)
    (ready : st'.ready = st.ready) (localFIN : st'.localFIN = st.localFIN)
    (pendingFIN : st'.pendingFIN = st.pendingFIN)
    (applicationDone : st'.applicationDone = st.applicationDone) : t'.Says said := by
  obtain ⟨-, unanswered, opened, ended, finished⟩ := held
  constructor
  · simp [after]
  all_goals
    intro final found unclosed
    obtain rfl := Option.some.inj (after.symm.trans found)
    have before := closed unclosed
  · rw [ready]
    exact unanswered st here before
  · rw [ready, localFIN, pendingFIN]
    exact opened st here before
  · rw [localFIN, pendingFIN, applicationDone]
    exact ended st here before
  · rw [applicationDone]
    exact finished st here before

/-- A stream that is closed says nothing any more. -/
theorem Says.of_closed {said : Said} {st : Stream} (here : t.st = some st)
    (closed : st.closed = true) : t.Says said := by
  have shut : ∀ st', t.st = some st' → ¬ st'.closed = false := by
    intro st' found open_
    obtain rfl := Option.some.inj (here.symm.trans found)
    cases closed.symm.trans open_
  exact ⟨by simp [here], fun st' found open_ => (shut st' found open_).elim,
    fun st' found open_ => (shut st' found open_).elim,
    fun st' found open_ => (shut st' found open_).elim,
    fun st' found open_ => (shut st' found open_).elim⟩

/-- One more frame is said. -/
theorem Worded.push (held : t.Worded) {f : Frame} (frames : t'.frames = t.frames ++ [f])
    (alive : t.err = none)
    (next : ∀ said, t.Says said → ∃ after, said.next f.kind = some after ∧ t'.Says after) :
    t'.Worded := by
  obtain ⟨said, whole, fits⟩ := held
  obtain ⟨after, spoken, same⟩ := next said (fits alive)
  exact ⟨after, by rw [frames, Said.spell_push whole, spoken], fun _ => same⟩

/-- A session that has failed drops what is queued. -/
theorem Worded.cut (held : t.Worded) (rest : List Frame) (frames : t.frames = t'.frames ++ rest)
    (failed : t'.err ≠ none) : t'.Worded := by
  obtain ⟨said, whole, -⟩ := held
  rw [frames] at whole
  obtain ⟨between, first, -⟩ := Said.spell_prefix whole
  exact ⟨between, first, fun alive => (failed alive).elim⟩

/-- Before a server has opened a stream nothing is read from it. -/
def Quiet (t : Track) : Prop :=
  ∀ st, t.st = some st → st.ready = false → st.unread = [] ∧ st.refund = 0

theorem Quiet.keep (held : t.Quiet) {st st' : Stream} (here : t.st = some st)
    (after : t'.st = some st') (ready : st'.ready = false → st.ready = false)
    (unread : st'.unread = st.unread) (refund : st'.refund = st.refund) : t'.Quiet := by
  intro final found unready
  obtain rfl := Option.some.inj (after.symm.trans found)
  rw [unread, refund]
  exact held st here (ready unready)

/-- The stream of a track is open. -/
theorem Quiet.of_ready {st : Stream} (here : t.st = some st) (ready : st.ready = true) :
    t.Quiet := by
  intro final found unready
  obtain rfl := Option.some.inj (here.symm.trans found)
  cases ready.symm.trans unready

theorem quiet_move {event : Event} (move : Move event t t') (placed : t.Placed)
    (formed : t.Formed) (held : t.Quiet) : t'.Quiet := by
  have inside : t.progress.taking = true → ∀ {st : Stream}, t.st = some st → st.ready = true := by
    intro taking st here
    obtain ⟨st', found, ready, -⟩ := placed.taking taking
    obtain rfl := Option.some.inj (here.symm.trans found)
    exact ready
  -- only the blocks of an open stream are unread
  have filled : ∀ {st : Stream}, t.st = some st → st.unread ≠ [] → st.ready = true := by
    intro st here unread
    by_contra unready
    exact unread (held st here (by simpa using unready)).1
  have same : ∀ {st st' : Stream}, t.st = some st → t'.st = some st' →
      (st'.ready = false → st.ready = false) → st'.unread = st.unread →
      st'.refund = st.refund → t'.Quiet :=
    fun here after ready unread refund => held.keep here after ready unread refund
  cases move with
  | failBare | halt | pass | sweep | refuse | control | ignore | checkedDead | dropChunk
  | publishDropped | completeDropped | cutDropped | emitControl | reportBare => exact held
  | «open» | openFull | arrive =>
      intro st found _
      obtain rfl := Option.some.inj found
      exact ⟨rfl, rfl⟩
  | opened => exact .of_ready rfl rfl
  | failed _ _ _ _ _ here | reset _ _ _ _ here | close here | closeQuiet here
  | closeFull here =>
      intro st found unready
      obtain rfl := Option.some.inj found
      exact ⟨rfl, (held _ here unready).2⟩
  | fail _ _ _ here | report _ here =>
      refine same here rfl ?_ ?_ ?_ <;> split_ifs <;> first | rfl | exact fun unready => unready
  | fin _ _ _ _ here | finished _ _ _ _ here | credit _ _ _ _ here | checked _ _ _ here
  | controlReturn here | finReturn here | giveUp here | abandon here | write _ here
  | writeReturn here | closeWrite here | closeWriteLater here | closeWriteFull here
  | closeWriteOver here | finish here | finishFull _ here | emitData _ _ _ here =>
      exact same here rfl (fun unready => unready) rfl rfl
  | keepChunk at_ _ here | publish _ at_ here | complete _ at_ here | cut _ at_ here =>
      have ready := inside (by rw [at_]; rfl) here
      exact .of_ready rfl ready
  | respond _ here _ _ _ unready | respondFull _ here _ _ _ unready
  | respondOver _ here _ _ _ unready => exact same here rfl (fun _ => unready) rfl rfl
  | advance _ here front =>
      have ready := filled here (by simp [front])
      exact .of_ready rfl ready
  | @pop _ st c rest here front =>
      have ready := filled here (by simp [front])
      obtain ⟨_, _, popped⟩ := st.pop_eq c.rest
      exact .of_ready rfl (by rw [popped]; exact ready)
  | grant _ here due | merge _ here due =>
      refine .of_ready rfl ?_
      by_contra unready
      have owed := (held _ here (by simpa [Stream.granted] using unready)).2
      have positive := formed.threshold _ here
      omega

/-- Before DONE a stream that is open has at most ended its direction. -/
theorem Says.open_ {said : Said} (held : t.Says said) {st : Stream} (here : t.st = some st)
    (unclosed : st.closed = false) (ready : st.ready = true)
    (incomplete : st.applicationDone = false) : said = .opened ∨ said = .ended := by
  cases localFIN : st.localFIN with
  | false => exact .inl (held.opened st here unclosed ready (.inl localFIN))
  | true =>
      cases pendingFIN : st.pendingFIN with
      | true => exact .inl (held.opened st here unclosed ready (.inr pendingFIN))
      | false => exact .inr (held.ended st here unclosed localFIN pendingFIN incomplete)

/-- A stream is marked as open before anything but an answer is said. -/
theorem Says.ready {said : Said} (held : t.Says said) {st : Stream} (here : t.st = some st)
    (unclosed : st.closed = false) (ready : st.ready = true) :
    said = .opened ∨ said = .ended ∨ said = .finished := by
  cases complete : st.applicationDone with
  | false => exact (held.open_ here unclosed ready complete).imp_right .inl
  | true => exact held.finished st here unclosed complete

theorem worded_move {event : Event} (move : Move event t t') (tidy : event.Tidy)
    (once : ∀ code, event = .respond code → ¬ Has t.frames .failed) (server : t.server = true)
    (flags : t.FlagsOk) (placed : t.Placed) (formed : t.Formed) (answered : t.Answered)
    (quiet : t.Quiet) (held : t.Worded) : t'.Worded := by
  have same : ∀ {st st' : Stream}, t.st = some st → t'.st = some st' →
      (st'.closed = false → st.closed = false) → st'.ready = st.ready →
      st'.localFIN = st.localFIN → st'.pendingFIN = st.pendingFIN →
      st'.applicationDone = st.applicationDone →
      t'.frames.map Frame.kind = t.frames.map Frame.kind → t'.err = t.err → t'.Worded := by
    intro st st' here after closed ready localFIN pendingFIN complete frames err
    refine held.keep frames fun alive => ⟨err ▸ alive, fun said fits => ?_⟩
    exact fits.keep here after closed ready localFIN pendingFIN complete
  have shut : ∀ {st : Stream}, t'.st = some st → st.closed = true → t'.frames = t.frames →
      t'.err = t.err → t'.Worded := by
    intro st after closed frames err
    refine held.keep (congrArg _ frames) fun alive => ⟨err ▸ alive, fun said _ => ?_⟩
    exact .of_closed after closed
  have unclosed : ∀ {st : Stream}, t.st = some st → st.err = none → st.closed = false := by
    intro st here unfailed
    by_contra closed
    exact ((flags st here).shut (by simpa using closed)).1 unfailed
  cases move with
  | fail _ _ _ here | failBare =>
      exact held.cut t.waiting (by simp [frames, waiting]) (by simp)
  | halt | pass | sweep | control | ignore | checkedDead | dropChunk | publishDropped
  | completeDropped | cutDropped | reportBare =>
      exact held.keep rfl fun alive => ⟨alive, fun said fits => { fits with }⟩
  | «open» _ _ client | openFull _ _ client => cases server.symm.trans client
  | opened _ _ _ _ _ _ client | failed _ _ _ _ _ _ _ client
  | finished _ _ _ _ _ _ client => cases server.symm.trans client
  | arrive p refundAt _ new =>
      obtain ⟨-, -, queue, out, -⟩ := placed.new new
      refine ⟨.nothing, by simp [frames, waiting, queue, out, Said.spell], fun _ => ?_⟩
      constructor <;> simp [Stream.fresh]
  | refuse p _ new alive =>
      obtain ⟨missing, -, queue, out, -⟩ := placed.new new
      refine ⟨.refused, by simp [frames, waiting, queue, out, Said.spell, Said.next], fun _ => ?_⟩
      constructor <;> simp [missing]
  | fin _ _ _ _ here | credit _ _ _ _ here | checked _ _ _ here | keepChunk _ _ here
  | publish _ _ here | complete _ _ here | cut _ _ here | controlReturn here | finReturn here
  | giveUp here | abandon here | advance _ here | write _ here | writeReturn here =>
      exact same here rfl (fun open_ => open_) rfl rfl rfl rfl rfl rfl
  | report e here =>
      refine same here rfl ?_ ?_ ?_ ?_ ?_ rfl rfl <;> split_ifs <;>
        first | rfl | exact fun open_ => open_
  | reset _ _ _ _ here => exact shut rfl rfl rfl rfl
  | closeQuiet | closeFull => exact shut rfl rfl rfl rfl
  | @pop _ st c rest here =>
      rcases st.pop_eq c.rest with ⟨_, _, popped⟩
      refine same here rfl ?_ ?_ ?_ ?_ ?_ rfl rfl <;> simp [popped]
  | @respond _ st code here _ _ _ unready open_ alive =>
      obtain ⟨said, whole, fits⟩ := held
      have silent : said = .nothing := by
        refine ((fits alive).unanswered st here open_ unready).resolve_right ?_
        rintro rfl
        exact once code rfl (Said.failed_of_spell whole (by simp))
      subst silent
      have later := mt ((flags _ here).sent ·) (by simp [unready])
      have complete := mt ((flags _ here).complete · |>.2.1) later
      cases answer : code == 0 with
      | true =>
          refine ⟨.opened, ?_, fun _ => ?_⟩
          · have more : Said.nothing.spell (t.frames ++ [⟨.opened, t.id, []⟩]) = some .opened :=
              Said.spell_push whole _
            simpa [frames, waiting, answer] using more
          · constructor <;> simp_all
      | false =>
          refine ⟨.refused, ?_, fun _ => ?_⟩
          · have more : Said.nothing.spell (t.frames ++ [⟨.failed, t.id, [code]⟩]) =
                some .refused := Said.spell_push whole _
            simpa [frames, waiting, answer] using more
          · constructor <;> simp_all
  | respondFull code here _ _ _ unready =>
      have refusal : (code == 0) = false := by
        by_contra zero
        obtain rfl : code = 0 := by simpa using zero
        exact tidy.2.1 rfl
      exact same here rfl (fun open_ => open_) (refusal.trans unready.symm) rfl rfl rfl rfl rfl
  | respondOver _ _ _ _ _ _ _ past | closeWriteOver _ _ _ _ _ _ past =>
      exact held.keep rfl fun alive => (past alive).elim
  | closeWriteFull => exact (tidy.2.2.1 rfl).elim
  | @grant _ st refundAt here due _ open_ alive =>
      have ready : st.ready = true := by
        by_contra unready
        have owed := (quiet st here (by simpa using unready)).2
        have positive := formed.threshold st here
        omega
      refine held.push (f := ⟨.credit, t.id, bigEndian 2 st.refund.toNat⟩)
        (by simp [frames, waiting]) alive fun said fits => ⟨said, ?_, ?_⟩
      · rcases fits.ready here open_ ready with rfl | rfl | rfl <;> rfl
      · exact fits.keep here rfl (fun open_ => open_) rfl rfl rfl rfl
  | merge refundAt here _ _ _ alive queued kind =>
      refine same here rfl (fun open_ => open_) rfl rfl rfl rfl ?_ rfl
      simp [frames, waiting, queued]
  | closeWrite here _ _ open_ unended ready alive =>
      refine held.push (f := ⟨.fin, t.id, []⟩) (by simp [frames, waiting]) alive
        fun said fits => ⟨.ended, ?_, ?_⟩
      · rw [fits.opened _ here open_ ready (.inl unended)]
        rfl
      · have later := mt ((flags _ here).deferred · |>.2.1) (by simp [unended])
        have complete := mt ((flags _ here).complete · |>.2.1) (by simp [unended])
        constructor <;> simp [ready, later, complete]
  | closeWriteLater here _ _ open_ unended ready =>
      refine held.keep rfl fun alive => ⟨alive, fun said fits => ?_⟩
      have known := fits.opened _ here open_ ready (.inl unended)
      constructor <;> simp [ready, known]
  | @finish _ st here _ unfailed _ sent _ first alive =>
      have open_ := unclosed here unfailed
      have ready := (flags st here).sent sent
      obtain ⟨said, whole, fits⟩ := held
      -- a deferred FIN goes directly before DONE
      have ended : Said.nothing.spell (t.frames ++ (t.deferredFin st.pendingFIN).map Control.frame) =
          some .ended := by
        cases pendingFIN : st.pendingFIN with
        | true =>
            obtain rfl := (fits alive).opened st here open_ ready (.inr pendingFIN)
            exact Said.spell_push whole ⟨.fin, t.id, []⟩
        | false =>
            obtain rfl := (fits alive).ended st here open_ sent pendingFIN first
            simpa [deferredFin] using whole
      refine ⟨.finished, ?_, fun _ => ?_⟩
      · have more : Said.nothing.spell (t.frames ++ (t.deferredFin st.pendingFIN).map
            Control.frame ++ [⟨.finished, t.id, []⟩]) = some .finished := Said.spell_push ended _
        simpa [frames, waiting] using more
      · constructor <;> simp [ready, sent]
  | @finishFull _ st queued here _ unfailed _ sent _ first deferred =>
      have open_ := unclosed here unfailed
      have ready := (flags st here).sent sent
      obtain ⟨said, whole, fits⟩ := held
      cases queued with
      | true =>
          obtain ⟨pendingFIN, alive⟩ := deferred rfl
          obtain rfl := (fits alive).opened st here open_ ready (.inr pendingFIN)
          refine ⟨.ended, ?_, fun _ => ?_⟩
          · have more : Said.nothing.spell (t.frames ++ [⟨.fin, t.id, []⟩]) = some .ended :=
              Said.spell_push whole _
            simpa [frames, waiting, deferredFin] using more
          · constructor <;> simp [ready, sent]
      | false =>
          refine ⟨said, ?_, fun alive => ?_⟩
          · simpa [frames, waiting, deferredFin] using whole
          · have known := (fits alive).ready here open_ ready
            constructor <;> simp [ready, sent, known]
  | @close _ st here open_ unfinished _ alive =>
      refine held.push (f := ⟨.reset, t.id, []⟩) (by simp [frames, waiting]) alive
        fun said fits => ⟨.left, ?_, ?_⟩
      · cases ready : st.ready with
        | false => rcases fits.unanswered st here open_ ready with rfl | rfl <;> rfl
        | true =>
            rcases fits.open_ here open_ ready unfinished.1 with rfl | rfl <;> rfl
      · have closed : (st.shut .closed).closed = true := rfl
        exact .of_closed rfl closed
  | emitControl alive queue =>
      exact held.keep (by simp [frames, waiting, queue])
        fun alive => ⟨alive, fun said fits => { fits with }⟩
  | @emitData _ st r n alive listed here pending unfinished _ _ _ _ unfailed =>
      have open_ := unclosed here unfailed
      have calls := (flags st here).pending.mp (by simp [pending])
      obtain ⟨ready, unended⟩ := (flags st here).writing calls
      obtain ⟨said, whole, fits⟩ := held
      have known := (fits alive).opened st here open_ ready (.inl unended)
      subst known
      obtain ⟨between, first, later⟩ := Said.spell_prefix whole
      have said : between = .opened := by
        refine (Said.of_spell_opened later).resolve_right ?_
        rintro rfl
        have silent := Said.eq_nil_of_spell_nothing first
        obtain ⟨f, member, -⟩ := answered.sent st here alive unfailed ready (by simp [calls])
        rw [silent] at member
        cases member
      subst said
      refine ⟨.opened, ?_, fun _ => ?_⟩
      · have more : Said.nothing.spell (t.out ++ [⟨.data, t.id, (r.p.drop r.off).take n⟩]) =
            some .opened := Said.spell_push first _
        show Said.nothing.spell (t.out ++ [_] ++ t.waiting) = _
        rw [Said.spell_append, more]
        exact later
      · exact (fits alive).keep here rfl (fun open_ => open_) rfl rfl rfl rfl

/-- A call of `Respond` that can still begin finds no refusal. -/
def Unanswered (t : Track) : Prop :=
  ∀ st, t.st = some st → st.call = .idle → ¬ Has t.frames .failed

theorem unanswered_move {event : Event} {code : Byte} (move : Move event t t')
    (respond : event = .respond code ∨ event = .respondFull code) (held : t.Unanswered) :
    t'.Unanswered := by
  intro st found idle
  cases move with
  | respond =>
      obtain rfl := Option.some.inj found
      cases idle
  | respondFull _ here free | respondOver _ here free => exact held _ here free
  | _ => rcases respond with other | other <;> cases other

theorem idle_of_respond {code : Byte} (move : Move (.respond code) t t') :
    ∃ st, t.st = some st ∧ st.call = .idle := by
  cases move with
  | respond _ here free | respondOver _ here free => exact ⟨_, here, free⟩

end Track

/-! ## Runs of a server -/

namespace Session

/-- `Respond` is not called again for a stream that was refused. -/
def AnswersOnce (s : Session) : Action → Prop
  | .respond k _ => ¬ Has (s.track k).frames .failed
  | _ => True

/-- The steps of a server whose frames are not refused and that answers each stream once. -/
def Regular (s : Session) (action : Action) : Prop :=
  s.Unrefused action ∧ s.AnswersOnce action

theorem respond_of_occurs {s : Session} {action : Action} {k : Nat} {code : Byte}
    (occurs : s.Occurs action k (.respond code)) : action = .respond k code := by
  cases action with
  | respond j code' =>
      obtain ⟨rfl, same | ⟨other, -⟩⟩ := occurs
      · rw [Event.respond.inj same]
      · cases other
  | _ => simp [Occurs] at occurs

/-- What a track of a server keeps in a step that its callers may take. -/
structure Spoken (s : Session) (action : Action) (k : Nat) (t : Track) : Prop where
  server : t.server = true
  inv : t.Inv
  answered : t.Answered
  quiet : t.Quiet
  worded : t.Worded
  once : ∀ code, action = .respond k code → t.Unanswered

theorem spoken_move {s : Session} {action : Action} {k : Nat} (isServer : s.server = true)
    (fine : s.Unrefused action) {event : Event} {t t' : Track}
    (occurs : s.Occurs action k event) (move : Track.Move event t t')
    (held : s.Spoken action k t) : s.Spoken action k t' := by
  have tidy := (fits_of_occurs fine occurs).2 isServer
  have inv := held.inv
  refine ⟨(Track.server_move move).trans held.server, Track.inv_move move inv,
    Track.answered_move move tidy held.server inv.flags inv.placed held.answered,
    Track.quiet_move move inv.placed inv.formed held.quiet, ?_, ?_⟩
  · refine Track.worded_move move tidy ?_ held.server inv.flags inv.placed inv.formed
      held.answered held.quiet held.worded
    rintro code rfl
    obtain ⟨st, here, idle⟩ := Track.idle_of_respond move
    exact held.once code (respond_of_occurs occurs) st here idle
  · rintro code rfl
    exact @Track.unanswered_move t t' event code move (occurs.2.imp_right And.left)
      (held.once code rfl)

theorem reachable_worded {s : Session} (reached : (machine true).ReachableBy Regular s) (k : Nat) :
    (s.track k).Worded := by
  have all : ∀ k, (s.track k).Quiet ∧ (s.track k).Worded := by
    refine reached.invariant (P := fun s => ∀ k, (s.track k).Quiet ∧ (s.track k).Worded) ?_ ?_
    · rintro s ⟨shape, -, rfl⟩ k
      constructor
      · intro st found
        cases found
      · refine ⟨.nothing, rfl, fun _ => ?_⟩
        constructor <;> simp [Session.track, Session.trackWith, Session.new]
    · intro s action s' before held fine taken k
      have unrefused : (machine true).ReachableBy Unrefused s :=
        before.mono fun _ _ fine => fine.1
      have answers := reachable_answered unrefused k
      have spoken : s.Spoken action k (s.track k) := by
        refine ⟨answers.1, reachable_inv before k, answers.2.1, (held k).1, (held k).2, ?_⟩
        rintro code rfl st - -
        exact fine.2
      have moves := step_moves (reachable_sound before) taken k
      have after := moves.invariant (P := s.Spoken action k)
        (fun _ _ _ occurs move => spoken_move answers.1 fine.1 occurs move) spoken
      exact ⟨after.quiet, after.worded⟩
  exact (all k).2

/--
In every run of a server with any peer in which no OPENED or FIN was refused by a full
control queue and no stream is answered again after a refusal, the frames sent for each
stream form a word: FAILED, or OPENED with DATA and CREDIT, one FIN and one DONE behind
it, and a last RESET unless DONE was sent.
-/
theorem frames_worded {s : Session} (reached : (machine true).ReachableBy Regular s) (k : Nat) :
    ∃ said, Said.nothing.spell (s.emitted.filter (·.id = k)) = some said := by
  obtain ⟨said, whole, -⟩ := reachable_worded reached k
  obtain ⟨between, sent, -⟩ := Said.spell_prefix whole
  exact ⟨between, sent⟩

/-! ## A concrete run -/

instance (s : Session) (action : Action) : Decidable (s.AnswersOnce action) :=
  match action with
  | .respond k _ => inferInstanceAs (Decidable (¬ ∃ f ∈ (s.track k).frames, f.kind = .failed))
  | .open _ _ | .accept | .callReturn _ _ | .read _ _ _ | .write _ _ | .writeReturn _
  | .closeWrite _ | .finish _ | .close _ | .closeSession | .cancel | .fail _ | .recv _ _
  | .check | .takeChunk | .dispatch _ | .wakeUp | .batch _ | .send _ | .writeEnd _ =>
      inferInstanceAs (Decidable True)

instance (s : Session) (action : Action) : Decidable (s.Regular action) :=
  inferInstanceAs (Decidable (_ ∧ _))

/-- A stream is opened, written to, and reset. -/
def speaking : List Action :=
  readsIn ⟨.open, 1, [7]⟩ ++ [.accept, .respond 1 0] ++ writesOut 8 ++
    [.callReturn 1 .token, .write 1 [5]] ++ writesOut 9 ++ [.writeReturn 1, .close 1] ++
    (writesOut 8).tail

theorem frames_worded_speaking : ∃ s,
    (machine true).runBy Regular (Session.new true (newShape .default fun _ => 0)) speaking =
        some s ∧
      s.emitted.map Frame.kind = [.opened, .data, .reset] ∧
      ∃ said, Said.nothing.spell (s.emitted.filter (·.id = 1)) = some said := by
  have both : ((machine true).runBy Regular
      (Session.new true (newShape .default fun _ => 0)) speaking).map
        (fun s => s.emitted.map Frame.kind) = some [.opened, .data, .reset] := by
    decide +kernel
  rcases Option.map_eq_some_iff.mp both with ⟨s, ran, same⟩
  refine ⟨s, ran, same, frames_worded (Machine.runBy_reachableBy (.start ?_) ran) 1⟩
  exact ⟨_, newShape_valid Profile.validate_default _, rfl⟩

end Session

end Veil.Mux

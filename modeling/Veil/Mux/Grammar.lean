import Veil.Mux.Signals

/-!
# The order of a stream's frames

A server answers a stream before it sends anything else on it, and sends FIN
before DONE; a client sends OPEN first.  Both hold as long as no call is refused
by a full control queue in the middle and no `Respond` is abandoned while its
OPENED is queued.
-/

namespace Veil.Mux

open Veil.Lib

/-- Every frame of the kind `later` comes behind a frame that `earlier` accepts. -/
def Prior (earlier : Kind → Bool) (later : Kind) (frames : List Frame) : Prop :=
  ∀ f ∈ frames.takeWhile (fun f => !earlier f.kind), f.kind ≠ later

/-- Some frame of the list is of an accepted kind. -/
def Among (accepted : Kind → Bool) (frames : List Frame) : Prop :=
  ∃ f ∈ frames, accepted f.kind = true

section Prior

variable {earlier : Kind → Bool} {later : Kind} {first second : List Frame}

@[simp, grind =]
theorem among_nil : Among earlier [] ↔ False := by
  simp [Among]

@[simp, grind =]
theorem among_append : Among earlier (first ++ second) ↔
    Among earlier first ∨ Among earlier second := by
  simp only [Among, List.mem_append, or_and_right, exists_or]

@[simp, grind =]
theorem among_cons {f : Frame} :
    Among earlier (f :: second) ↔ earlier f.kind = true ∨ Among earlier second := by
  simp [Among, or_and_right, exists_or]

theorem takeWhile_among (some_ : Among earlier first) :
    (first ++ second).takeWhile (fun f => !earlier f.kind) =
      first.takeWhile (fun f => !earlier f.kind) := by
  induction first with
  | nil => simp at some_
  | cons f rest induction =>
      by_cases here : earlier f.kind = true
      · simp [here]
      · rw [among_cons] at some_
        simp [here, induction (some_.resolve_left here)]

theorem takeWhile_not_among (none_ : ¬ Among earlier first) :
    first.takeWhile (fun f => !earlier f.kind) = first := by
  induction first with
  | nil => rfl
  | cons f rest induction =>
      rw [among_cons, not_or] at none_
      simp [none_.1, induction none_.2]

@[simp, grind =]
theorem prior_nil : Prior earlier later [] ↔ True := by
  simp [Prior]

@[simp, grind =]
theorem prior_append : Prior earlier later (first ++ second) ↔
    Prior earlier later first ∧ (Among earlier first ∨ Prior earlier later second) := by
  by_cases some_ : Among earlier first
  · simp only [Prior, takeWhile_among some_, some_, true_or, and_true]
  · have whole : (first ++ second).takeWhile (fun f => !earlier f.kind) =
        first ++ second.takeWhile (fun f => !earlier f.kind) := by
      rw [List.takeWhile_append_of_pos]
      intro f member
      by_contra accepted
      exact some_ ⟨f, member, by simpa using accepted⟩
    simp only [Prior, whole, takeWhile_not_among some_, some_, false_or, List.mem_append,
      or_imp, forall_and]

@[simp, grind =]
theorem prior_cons {f : Frame} : Prior earlier later (f :: second) ↔
    earlier f.kind = true ∨ f.kind ≠ later ∧ Prior earlier later second := by
  cases here : earlier f.kind <;> simp [Prior, here]

/-- What a frame in the list has before it. -/
theorem Prior.before {f : Frame} {rest : List Frame}
    (prior : Prior earlier later (first ++ f :: rest)) (kind : f.kind = later)
    (other : earlier later = false) : Among earlier first := by
  rcases (prior_append.mp prior).2 with some_ | behind
  · exact some_
  · rcases prior_cons.mp behind with accepted | ⟨different, -⟩
    · rw [kind, other] at accepted
      cases accepted
    · exact (different kind).elim

theorem Prior.of_append (prior : Prior earlier later (first ++ second)) :
    Prior earlier later first :=
  (prior_append.mp prior).1

end Prior

/-- The answers of a server to an OPEN. -/
@[grind =]
def Kind.isAnswer : Kind → Bool
  | .opened | .failed => true
  | _ => false

/-- The one kind. -/
@[grind =]
def Kind.is (kind other : Kind) : Bool := other == kind

@[simp, grind =]
theorem among_is {kind : Kind} {frames : List Frame} :
    Among kind.is frames ↔ Has frames kind := by
  simp [Among, Has, Kind.is]

theorem prior_of_absent {earlier : Kind → Bool} {later : Kind} {frames : List Frame}
    (absent : ¬ Has frames later) : Prior earlier later frames := by
  intro f member kind
  exact absent ⟨f, List.takeWhile_subset _ member, kind⟩

@[grind →]
theorem among_of_opened {frames : List Frame} (some_ : Has frames .opened) :
    Among Kind.isAnswer frames := by
  rcases some_ with ⟨f, member, kind⟩
  exact ⟨f, member, by simp [kind, Kind.isAnswer]⟩

@[grind →]
theorem among_of_failed {frames : List Frame} (some_ : Has frames .failed) :
    Among Kind.isAnswer frames := by
  rcases some_ with ⟨f, member, kind⟩
  exact ⟨f, member, by simp [kind, Kind.isAnswer]⟩

/-- The calls that find room in the control queue and are not abandoned. -/
def Event.Tidy (event : Event) : Prop :=
  event ≠ .openFull ∧ event ≠ .respondFull 0 ∧ event ≠ .closeWriteFull ∧ event ≠ .abandoned

namespace Track

/-- Where the answer of a server stands: in the queue only while `Respond` waits. -/
structure Answered (t : Track) : Prop where
  opened : ∀ st, t.st = some st → t.err = none → st.ready = true → Has t.frames .opened
  sent : ∀ st, t.st = some st → t.err = none → st.err = none → st.ready = true →
    st.call ≠ .respond → Among Kind.isAnswer t.out
  waiters : ∀ c ∈ t.queue ++ t.sending, c.done = .controlDone →
    Kind.isAnswer c.frame.kind = true ∨ c.frame.kind = .finished
  tokens : t.err = none → (∃ st, t.st = some st ∧ st.controlDone ≠ []) ∨
    (∃ c ∈ t.sending, c.done = .controlDone) → Among Kind.isAnswer t.out
  data : Prior Kind.isAnswer .data t.frames
  fin : Prior Kind.isAnswer .fin t.frames
  finished : Prior Kind.isAnswer .finished t.frames

/-- FAILED comes before OPENED, FIN before DONE, and a FIN only ever finds room. -/
structure Refused (t : Track) : Prop where
  failed : Has t.frames .failed → Prior (Kind.is .failed) .opened t.frames
  closing : ∀ st, t.st = some st → t.err = none → st.localFIN = true →
    st.pendingFIN = false → st.applicationDone = false → Has t.frames .fin
  ending : Prior (Kind.is .fin) .finished t.frames

theorem refused_move {event : Event} {t t' : Track} (move : Move event t t')
    (tidy : event.Tidy) (server : t.server = true) (placed : t.Placed)
    (roles : t.Roles) (held : t.Refused) : t'.Refused := by
  rcases held with ⟨failed, closing, ending⟩
  have opened := roles.opened
  have new := placed.new
  clear placed roles
  simp only [frames, waiting] at *
  cases move <;> constructor <;>
    first | assumption | grind -ring -linarith [frames, waiting, Event.Tidy, deferredFin, prior_of_absent]

theorem has_waiting {t : Track} {kind : Kind} :
    Has t.waiting kind ↔ ∃ c ∈ t.queue, c.frame.kind = kind := by
  simp [Has, waiting]

/-- The frames are the same, and the stream is as far as it was with its answer. -/
theorem Answered.keep {t t' : Track} (held : t.Answered) (err : t'.err = t.err)
    (out : t'.out = t.out) (queue : t'.queue = t.queue) (sending : t'.sending = t.sending)
    (stream : ∀ st', t'.st = some st' → ∃ st, t.st = some st ∧ st'.ready = st.ready ∧
      (st'.err = none → st.err = none) ∧ (st.call = .respond → st'.call = .respond) ∧
      st'.controlDone = st.controlDone) : t'.Answered := by
  have frames : t'.frames = t.frames := by simp only [Track.frames, waiting, out, queue]
  refine ⟨?_, ?_, ?_, ?_, frames ▸ held.data, frames ▸ held.fin, frames ▸ held.finished⟩
  · intro st' here alive ready
    rcases stream st' here with ⟨st, before, same, -, -, -⟩
    rw [frames]
    exact held.opened st before (err ▸ alive) (same ▸ ready)
  · intro st' here alive unfailed ready moved
    rcases stream st' here with ⟨st, before, same, fine, call, -⟩
    rw [out]
    exact held.sent st before (err ▸ alive) (fine unfailed) (same ▸ ready)
      fun waiting => moved (call waiting)
  · rw [queue, sending]
    exact held.waiters
  · rw [err, out, sending]
    intro alive some_
    refine held.tokens alive (some_.imp_left ?_)
    rintro ⟨st', here, token⟩
    rcases stream st' here with ⟨st, before, -, -, -, same⟩
    exact ⟨st, before, same ▸ token⟩

theorem answered_move {event : Event} {t t' : Track} (move : Move event t t')
    (tidy : event.Tidy) (server : t.server = true) (flags : t.FlagsOk) (placed : t.Placed)
    (held : t.Answered) : t'.Answered := by
  have same : ∀ {st st' : Stream}, t.st = some st → st'.ready = st.ready →
      (st'.err = none → st.err = none) → (st.call = .respond → st'.call = .respond) →
      st'.controlDone = st.controlDone → ∀ after, some st' = some after → ∃ st,
        t.st = some st ∧ after.ready = st.ready ∧ (after.err = none → st.err = none) ∧
        (st.call = .respond → after.call = .respond) ∧ after.controlDone = st.controlDone := by
    rintro st st' here ready fine call token after ⟨⟩
    exact ⟨st, here, ready, fine, call, token⟩
  have bare : ∀ after, t.st = some after → ∃ st, t.st = some st ∧ after.ready = st.ready ∧
      (after.err = none → st.err = none) ∧ (st.call = .respond → after.call = .respond) ∧
      after.controlDone = st.controlDone :=
    fun after here => ⟨after, here, rfl, fun x => x, fun x => x, rfl⟩
  cases move with
  | halt | pass | sweep | control | ignore | checkedDead | dropChunk | publishDropped
  | completeDropped | cutDropped => exact held.keep rfl rfl rfl rfl bare
  | opened _ _ _ _ _ _ client | failed _ _ _ _ _ _ _ client => cases server.symm.trans client
  | «open» _ _ client | openFull _ _ client => cases server.symm.trans client
  | fin _ _ _ _ here | finished _ _ _ _ here | credit _ _ _ _ here | checked _ _ _ here
  | keepChunk _ _ here | publish _ _ here | complete _ _ here | cut _ _ here
  | advance _ here | closeWriteLater here | closeWriteOver here =>
      exact held.keep rfl rfl rfl rfl (same here rfl (fun x => x) (fun x => x) rfl)
  | @pop _ st c rest here =>
      rcases st.pop_eq c.rest with ⟨_, _, popped⟩
      rw [popped]
      exact held.keep rfl rfl rfl rfl (same here rfl (fun x => x) (fun x => x) rfl)
  | write _ here free =>
      exact held.keep rfl rfl rfl rfl (same here rfl (fun x => x) (by simp [free]) rfl)
  | writeReturn here waiting | finReturn here waiting =>
      exact held.keep rfl rfl rfl rfl (same here rfl (fun x => x) (by simp [waiting]) rfl)
  | reset _ _ _ _ here | closeQuiet here | closeFull here =>
      refine held.keep rfl rfl rfl rfl (same here rfl ?_ (fun x => x) rfl)
      intro unfailed
      simp [Stream.shut, Stream.stop] at unfailed
  | closeWriteFull => exact (tidy.2.2.1 rfl).elim
  | abandon => exact (tidy.2.2.2 rfl).elim
  | fail | failBare =>
      refine ⟨by simp, by simp, ?_, by simp, ?_, ?_, ?_⟩
      · exact fun c member => held.waiters c (List.mem_append_right _ (by simpa using member))
      · simpa [frames, waiting] using held.data.of_append
      · simpa [frames, waiting] using held.fin.of_append
      · simpa [frames, waiting] using held.finished.of_append
  | reportBare missing =>
      refine { held with waiters := ?_, tokens := ?_ }
      · exact fun c member => held.waiters c (List.mem_append_left _ (by simpa using member))
      · simp [missing]
  | report e here =>
      refine { held with opened := ?_, sent := ?_, waiters := ?_, tokens := ?_ }
      · rintro st' ⟨⟩
        have before := held.opened _ here
        split_ifs <;> exact before
      · rintro st' ⟨⟩
        have before := held.sent _ here
        split_ifs <;> exact before
      · exact fun c member => held.waiters c (List.mem_append_left _ (by simpa using member))
      · intro alive some_
        refine held.tokens alive ?_
        rcases some_ with ⟨st', ⟨⟩, token⟩ | ⟨c, none_, -⟩
        · by_contra neither
          rw [not_or] at neither
          have empty : t.sending.filter (·.done = .controlDone) = [] := by
            rw [List.filter_eq_nil_iff]
            exact fun c member waits => neither.2 ⟨c, member, by simpa using waits⟩
          have before : _ = [] := by_contra fun some_ => neither.1 ⟨_, here, some_⟩
          split_ifs at token <;>
            simp [Stream.notifyAll, Stream.finishRequest, before, empty] at token
        · cases none_
  | giveUp here waiting past =>
      have ready := held.opened _ here
      refine { held with opened := ?_, sent := ?_, tokens := ?_ }
      · rintro st' ⟨⟩
        exact ready
      · rintro st' ⟨⟩ alive unfailed opened -
        rcases past with failed | failed | moved
        · exact (failed unfailed).elim
        · exact (failed alive).elim
        · rcases (has_append _ _ _).mp (ready alive opened) with sent | queued
          · exact among_of_opened sent
          · rcases has_waiting.mp queued with ⟨c, member, kind⟩
            exact (moved c member kind).elim
      · intro alive some_
        refine held.tokens alive (some_.imp_left ?_)
        rintro ⟨st', ⟨⟩, token⟩
        exact ⟨_, here, token⟩
  | controlReturn here waiting reported =>
      have tokens := held.tokens
      have ready := held.opened _ here
      refine { held with opened := ?_, sent := ?_, tokens := ?_ }
      · rintro st' ⟨⟩
        exact ready
      · rintro st' ⟨⟩ alive - - -
        exact tokens alive (.inl ⟨_, here, by simp [reported]⟩)
      · intro alive _
        exact tokens alive (.inl ⟨_, here, by simp [reported]⟩)
  | arrive _ _ _ new | refuse _ _ new =>
      rcases held with ⟨opened, sent, waiters, tokens, data, fin, finished⟩
      rcases placed.new new with ⟨missing, -, queue, out, -⟩
      constructor <;> grind -ring -linarith [frames, waiting]
  | respond code here free unfailed _ waiting_ =>
      rcases held with ⟨opened, sent, waiters, tokens, data, fin, finished⟩
      constructor <;> grind -ring -linarith [frames, waiting]
  | respondFull code here free unfailed _ waiting_ =>
      rcases held with ⟨opened, sent, waiters, tokens, data, fin, finished⟩
      constructor <;> grind -ring -linarith [frames, waiting, Event.Tidy]
  | respondOver code here free unfailed _ waiting_ =>
      rcases held with ⟨opened, sent, waiters, tokens, data, fin, finished⟩
      constructor <;> grind -ring -linarith [frames, waiting]
  | closeWrite here | finish here | finishFull _ here =>
      rcases held with ⟨opened, sent, waiters, tokens, data, fin, finished⟩
      have localFIN := (flags _ here).sent
      constructor <;> grind -ring -linarith [frames, waiting, deferredFin]
  | grant _ here | close here | merge _ here  =>
      rcases held with ⟨opened, sent, waiters, tokens, data, fin, finished⟩
      constructor <;> grind -ring -linarith [frames, waiting]
  | emitControl alive queue =>
      rcases held with ⟨opened, sent, waiters, tokens, data, fin, finished⟩
      constructor <;> grind -ring -linarith [frames, waiting]
  | emitData n alive listed here pending =>
      rcases held with ⟨opened, sent, waiters, tokens, data, fin, finished⟩
      have writing := (flags _ here).writing
      have waits := (flags _ here).pending
      constructor <;> grind -ring -linarith [frames, waiting]

end Track

end Veil.Mux

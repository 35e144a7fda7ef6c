import Veil.Mux.Signals
import Veil.Mux.Failures

/-!
# The writer never misses work

`writeLoop` sleeps on a channel that holds one token.  Whatever adds work to a
session, a queued control frame or a stream that becomes ready to send, leaves
a token there, and the writer goes to sleep only after it has looked.  The one
addition without a token joins a CREDIT that is already queued.

A pass of the inner loop that finds work emits a frame.  The caller's prefix
may fill a whole batch, but it goes out with the first batch, and then a
control frame is always queued.
-/

namespace Veil.Mux

open Veil.Lib

namespace Session

/-! ## Work for the writer -/

/-- `writeLoop` would send DATA for stream `k`. -/
def Wants (s : Session) (k : Nat) : Prop :=
  k ∈ s.streams ∧ ∃ st, s.objs k = some st ∧ st.wantsToSend = true

theorem mem_ready {s : Session} {k : Nat} : k ∈ s.ready ↔ s.Wants k := by
  rw [ready, List.mem_filter, Wants]
  cases s.objs k <;> simp

theorem ready_eq_nil {s : Session} : s.ready = [] ↔ ∀ k, ¬ s.Wants k := by
  simp only [List.eq_nil_iff_forall_not_mem, mem_ready]

/-- A stream of the session could have been sent for: a client's, or an answered one. -/
def Talks (s : Session) : Prop :=
  ∃ k st, s.objs k = some st ∧ (s.server = false ∨ st.ready = true)

/-- A step of anyone but the writer leaves a token for the work it adds. -/
structure Rouses (s s' : Session) : Prop where
  writer : s'.writer = s.writer
  preamble : s'.preamble = s.preamble
  token : s.wake = true → s'.wake = true
  queue : s.controls ≠ [] → s'.controls ≠ []
  work : s'.wake = true ∨
    (s'.controls ≠ [] → s.controls ≠ []) ∧ ∀ k, s'.Wants k → s.Wants k
  talks : s'.Talks → s.Talks ∨ s'.controls ≠ []

namespace Rouses

variable {s s' s'' : Session}

theorem refl (s : Session) : Rouses s s where
  writer := rfl
  preamble := rfl
  token := fun same => same
  queue := fun same => same
  work := .inr ⟨fun same => same, fun _ same => same⟩
  talks := .inl

theorem trans (first : Rouses s s') (second : Rouses s' s'') : Rouses s s'' where
  writer := second.writer.trans first.writer
  preamble := second.preamble.trans first.preamble
  token := second.token ∘ first.token
  queue := second.queue ∘ first.queue
  work := by
    rcases second.work with woken | ⟨queue, wants⟩
    · exact .inl woken
    · rcases first.work with woken | ⟨queue', wants'⟩
      · exact .inl (second.token woken)
      · exact .inr ⟨queue' ∘ queue, fun k => wants' k ∘ wants k⟩
  talks talk := by
    rcases second.talks talk with before | queued
    · exact (first.talks before).imp_right second.queue
    · exact .inr queued

/-- Nothing the writer looks at has changed, except that streams may have left the map. -/
theorem quiet (writer : s'.writer = s.writer) (preamble : s'.preamble = s.preamble)
    (wake : s'.wake = s.wake) (controls : s'.controls = s.controls)
    (server : s'.server = s.server) (objs : s'.objs = s.objs)
    (streams : ∀ k ∈ s'.streams, k ∈ s.streams) : Rouses s s' where
  writer := writer
  preamble := preamble
  token := by
    rw [wake]
    exact fun same => same
  queue := by
    rw [controls]
    exact fun same => same
  work := by
    right
    rw [controls]
    refine ⟨fun same => same, ?_⟩
    rintro k ⟨listed, st, here, wants⟩
    exact ⟨streams k listed, st, objs ▸ here, wants⟩
  talks := by
    rintro ⟨k, st, here, talk⟩
    exact .inl ⟨k, st, objs ▸ here, server ▸ talk⟩

/-- A stream changes without becoming ready to send. -/
theorem set {k : Nat} {st st' : Stream} (here : s.objs k = some st)
    (wants : st'.wantsToSend = true → st.wantsToSend = true)
    (ready : st'.ready = true → st.ready = true) : Rouses s (s.set k st') where
  writer := rfl
  preamble := rfl
  token := fun same => same
  queue := fun same => same
  work := by
    refine .inr ⟨fun same => same, ?_⟩
    rintro j ⟨listed, other, found, busy⟩
    simp only [Session.set] at found
    split at found
    · next own =>
        cases found
        subst own
        exact ⟨listed, st, here, wants busy⟩
    · exact ⟨listed, other, found, busy⟩
  talks := by
    rintro ⟨j, other, found, talk⟩
    simp only [Session.set] at found
    split at found
    · next own =>
        cases found
        exact .inl ⟨k, st, here, talk.imp_right ready⟩
    · exact .inl ⟨j, other, found, talk⟩

/-- A queued control frame comes with a token. -/
theorem queued (s : Session) (f : Frame) (done : Waiter) : Rouses s (s.queued f done) where
  writer := rfl
  preamble := rfl
  token := fun _ => rfl
  queue := fun _ => by simp [Session.queued]
  work := .inl rfl
  talks := fun _ => .inr (by simp [Session.queued])

theorem willFail (rouses : Rouses s s') (e : Option Err) : Rouses s (s'.willFail e) :=
  ⟨rouses.writer, rouses.preamble, rouses.token, rouses.queue, rouses.work, rouses.talks⟩

theorem shutStream {k : Nat} {st : Stream} (here : s.objs k = some st) (reason : Err) :
    Rouses s (s.shutStream k st reason) := by
  have stopped : (st.shut reason).wantsToSend = true → st.wantsToSend = true := by
    cases request : st.request <;>
      simp [Stream.shut, Stream.stop, Stream.wantsToSend, request]
  refine (Rouses.set here stopped fun opened => opened).trans ?_
  exact quiet rfl rfl rfl rfl rfl rfl fun j listed => List.mem_of_mem_filter listed

theorem withDeferred (s : Session) (k : Nat) (pending : Bool) :
    Rouses s (s.withDeferred k pending) := by
  cases pending with
  | false => exact .refl s
  | true => exact .queued s _ _

/-- `controlLocked` leaves a token, unless it finds a CREDIT to join. -/
theorem controlLocked (s : Session) (t : Kind) (id : Nat) (p : List Byte) (done : Waiter) :
    Rouses s (s.controlLocked t id p done).1 := by
  by_cases credit : t = .credit
  · subst credit
    rcases controlLocked_credit s id p done with ⟨e, -, outcome⟩ | ⟨-, -, outcome⟩ |
      ⟨-, -, outcome⟩ | ⟨before, c, after, -, queue, -, -, ⟨-, outcome⟩ | ⟨-, outcome⟩⟩ <;>
      rw [outcome]
    · exact .refl s
    · exact .refl s
    · exact .queued s _ _
    · exact .refl s
    · refine ⟨rfl, rfl, fun same => same, fun _ => by simp, .inr ⟨?_, fun _ same => same⟩,
        .inl⟩
      simp [queue]
  · rcases controlLocked_plain s credit id p done with
      ⟨e, -, outcome⟩ | ⟨-, -, outcome⟩ | ⟨-, -, outcome⟩ <;> rw [outcome]
    · exact .refl s
    · exact .refl s
    · exact .queued s _ _

end Rouses

/-! ## Application calls -/

section Calls

variable {s s' : Session} {k : Nat}

theorem open_rouses (s : Session) (metadata : List Byte) (draw : Nat) :
    Rouses s (s.open metadata draw).1 := by
  have made : Rouses s (s.allocated metadata draw) ∨ s.controls = [] := by
    by_cases empty : s.controls = []
    · exact .inr empty
    refine .inl ⟨rfl, rfl, fun same => same, fun same => same, ?_, fun _ => .inr empty⟩
    refine .inr ⟨fun same => same, ?_⟩
    rintro j ⟨listed, st, here, wants⟩
    simp only [allocated, newStreamLocked, Session.set, List.mem_append,
      List.mem_singleton] at listed here
    split at here
    · cases here
      simp [Stream.fresh, Stream.wantsToSend] at wants
    · next other => exact ⟨listed.resolve_right other, st, here, wants⟩
  rcases s.open_cases metadata draw with
    same | ⟨-, -, -, -, -, -, ⟨full, outcome⟩ | ⟨-, outcome⟩⟩
  · rw [same]
    exact .refl s
  · rw [outcome]
    refine made.resolve_right fun empty => ?_
    simp [queueFull, empty, maxControls, maxStreams] at full
  · rw [outcome]
    exact ⟨rfl, rfl, fun _ => rfl, fun _ => by simp [Session.queued], .inl rfl,
      fun _ => .inr (by simp [Session.queued])⟩

theorem respond_rouses {code : Byte} {result : Option Err} (alive : s.err = none)
    (taken : s.respond k code = some (s', result)) : Rouses s s' := by
  rcases respond_cases taken with
    ⟨st, here, free, ⟨rfl, -⟩ | ⟨-, -, -, -, ⟨full, -, rfl⟩ | ⟨-, -, -, rfl⟩⟩⟩
  · exact .refl _
  · have some_ : s.controls ≠ [] := by
      intro empty
      have past := full.resolve_right (not_not.mpr alive)
      simp [queueFull, empty, maxControls, maxStreams] at past
    have quiet := @Rouses.set _ _ _ { st with ready := st.ready } here
      (fun wants => wants) fun opened => opened
    refine ⟨rfl, rfl, fun same => same, fun same => same, ?_, fun _ => .inr some_⟩
    refine .inr ⟨fun same => same, ?_⟩
    rintro j ⟨listed, other, found, wants⟩
    simp only [Session.set] at found
    split at found
    · next own =>
        cases found
        exact ⟨listed, st, own ▸ here, wants⟩
    · exact ⟨listed, other, found, wants⟩
  · exact ⟨rfl, rfl, fun _ => rfl, fun _ => by simp [Session.queued], .inl rfl,
      fun _ => .inr (by simp [Session.queued])⟩

theorem callReturn_rouses {wake : Wake} {result : Option Err}
    (taken : s.callReturn k wake = some (s', result)) : Rouses s s' := by
  rcases callReturn_cases taken with
    ⟨st, here, ⟨-, -, rest, -, rfl⟩ | ⟨-, -, rest, -, rfl⟩ | ⟨-, -, -, -, rfl⟩⟩ <;>
    exact .set here (fun wants => wants) fun opened => opened

theorem write_rouses {p : List Byte} {result : Option (Option Err)}
    (taken : s.write k p = some (s', result)) : Rouses s s' := by
  rcases write_cases taken with ⟨st, here, -, ⟨rfl, -⟩ | ⟨-, -, -, ready, -, -, rfl⟩⟩
  · exact .refl _
  · refine ⟨rfl, rfl, fun _ => rfl, fun same => same, .inl rfl, ?_⟩
    rintro ⟨j, other, found, talk⟩
    simp only [Session.set] at found
    split at found
    · exact .inl ⟨k, st, here, .inr ready⟩
    · exact .inl ⟨j, other, found, talk⟩

theorem writeReturn_rouses {n : Nat} {e : Option Err}
    (taken : s.writeReturn k = some (s', n, e)) : Rouses s s' := by
  rcases writeReturn_cases taken with ⟨st, r, rest, here, -, -, -, rfl⟩
  exact .set here (by simp [Stream.wantsToSend]) fun opened => opened

theorem closeWrite_rouses {result : Option (Option Err)}
    (taken : s.closeWrite k = some (s', result)) : Rouses s s' := by
  rcases closeWrite_cases taken with ⟨st, here, -, ⟨rfl, -⟩ | ⟨-, -, -, -, ⟨-, -, -, rfl⟩ |
    ⟨-, ⟨-, -, rfl⟩ | ⟨-, -, rfl⟩⟩⟩⟩
  · exact .refl _
  · exact .set here (fun wants => wants) fun opened => opened
  · exact .set here (fun wants => wants) fun opened => opened
  · refine Rouses.trans (Rouses.set here ?_ ?_) (.queued _ _ _)
    · exact fun wants => wants
    · exact fun opened => opened

theorem finish_rouses {result : Option Err}
    (taken : s.finish k = some (s', result)) : Rouses s s' := by
  rcases finish_cases taken with ⟨st, here, -, ⟨rfl, -⟩ | ⟨-, -, -, -, -,
    ⟨e, pending, -, -, -, rfl⟩ | ⟨-, -, rfl⟩⟩⟩
  · exact .refl _
  · refine ((Rouses.set here ?_ ?_).trans (.withDeferred _ _ _)).willFail _
    · exact fun wants => wants
    · exact fun opened => opened
  · refine ((Rouses.set here ?_ ?_).trans (.withDeferred _ _ _)).trans (.queued _ _ _)
    · exact fun wants => wants
    · exact fun opened => opened

theorem close_rouses (taken : s.close k = some s') : Rouses s s' := by
  rcases close_cases taken with ⟨st, here, ⟨-, rfl⟩ | ⟨-, ⟨-, -, -, -, -, rfl⟩ |
    ⟨-, -, -, -, -, rfl⟩ | ⟨-, e, -, rfl⟩⟩⟩
  · exact .refl _
  · exact (Rouses.shutStream here _).willFail _
  · exact (Rouses.shutStream here _).trans (.queued _ _ _)
  · exact (Rouses.shutStream here _).willFail _

theorem drain_rouses (k : Nat) (draw : Nat → Nat) (fuel room : Nat) (got : List Byte)
    (s : Session) : Rouses s (drain k draw fuel room got s).1 := by
  induction fuel generalizing room got s with
  | zero => exact .refl s
  | succ fuel induction =>
      rw [drain]
      split
      · exact .refl s
      next st here =>
      split
      · exact .refl s
      next c rest front =>
      split
      · exact .refl s
      simp only
      split
      · exact .set here (fun wants => wants) fun opened => opened
      have popped : Rouses s (s.set k (st.pop (c.rest.take room))) := by
        rcases st.pop_eq (c.rest.take room) with ⟨_, _, same⟩
        rw [same]
        exact .set here (fun wants => wants) fun opened => opened
      split
      · have refunded := popped.trans (.controlLocked _ .credit k
          (bigEndian 2 (st.pop (c.rest.take room)).refund.toNat) .nobody)
        have same := controlLocked_objs (s.set k (st.pop (c.rest.take room))) .credit k
          (bigEndian 2 (st.pop (c.rest.take room)).refund.toNat) .nobody
        split
        · next refused =>
            rw [refused] at refunded
            exact refunded
        · next granted =>
            rw [granted] at refunded same
            have held : _ = some (st.pop (c.rest.take room)) :=
              (congrFun same k).trans (by simp [Session.set])
            refine (refunded.trans (.set held ?_ ?_)).trans (induction _ _ _)
            · exact fun wants => wants
            · exact fun opened => opened
      · exact popped.trans (induction _ _ _)

theorem read_rouses {n : Nat} {draw : Nat → Nat} {result : ReadResult}
    (taken : s.read k n draw = some (s', result)) : Rouses s s' := by
  unfold read at taken
  split at taken
  · cases taken
  next st here =>
  split at taken
  · cases taken
    exact .refl _
  · cases taken
    exact (drain_rouses k draw st.unread.length n [] s).willFail _

end Calls

/-! ## The read loop -/

section ReadLoop

variable {s s' : Session}

theorem stopReader_rouses (s : Session) (cause : Err) (last : Reader) :
    Rouses s (s.stopReader cause last) :=
  .quiet rfl rfl rfl rfl rfl rfl fun _ listed => listed

theorem consumed_rouses (s : Session) (f : Frame) : Rouses s (s.consumed f) :=
  .quiet rfl rfl rfl rfl rfl rfl fun _ listed => listed

theorem published_rouses (s : Session) (id : Nat) (bs : List Byte) (discard complete : Bool) :
    Rouses s (s.published id bs discard complete) := by
  unfold published
  split
  · next st here => exact .set here (fun wants => wants) fun opened => opened
  · exact .refl s

theorem check_rouses (taken : s.check = some s') : Rouses s s' := by
  rcases check_cases taken with ⟨h, -, -, ⟨-, rfl⟩ | ⟨hd, -,
    ⟨-, -, -, rfl⟩ | ⟨-, -, st, found, -, -, -, rfl⟩ | ⟨-, -, -, rfl⟩⟩⟩
  · exact stopReader_rouses s _ _
  · exact .quiet rfl rfl rfl rfl rfl rfl fun _ listed => listed
  · have here := (lookup_some.mp found).2.1
    refine (@Rouses.set _ _ _ { st with recvCredit := st.recvCredit - 1 } here ?_ ?_).trans ?_
    · exact fun wants => wants
    · exact fun opened => opened
    · exact .quiet rfl rfl rfl rfl rfl rfl fun _ listed => listed
  · exact .quiet rfl rfl rfl rfl rfl rfl fun _ listed => listed

theorem takeChunk_rouses (taken : s.takeChunk = some s') : Rouses s s' := by
  rcases takeChunk_cases taken with ⟨hd, live, -, ⟨st, here, -, -, -, rfl⟩ | ⟨-, rfl⟩⟩
  · refine (@Rouses.set _ _ _ { st with queue := st.queue ++ [⟨[], 0, false⟩] }
      here ?_ ?_).trans ?_
    · exact fun wants => wants
    · exact fun opened => opened
    · exact .quiet rfl rfl rfl rfl rfl rfl fun _ listed => listed
  · exact .quiet rfl rfl rfl rfl rfl rfl fun _ listed => listed

theorem recv_rouses {bs : List Byte} {e : Option Err} (taken : s.recv bs e = some s') :
    Rouses s s' := by
  have heard : Rouses s (s.hears bs) :=
    .quiet rfl rfl rfl rfl rfl rfl fun _ listed => listed
  have moved : ∀ {u : Session} (reader : Reader), Rouses u { u with reader := reader } :=
    fun reader => .quiet rfl rfl rfl rfl rfl rfl fun _ listed => listed
  unfold recv at taken
  split at taken
  · cases taken
  simp only at taken
  split at taken
  · next h position =>
      rcases recvHeader_cases taken with ⟨-, -, ⟨-, rfl⟩ | ⟨-, cause, -, rfl⟩⟩
      · exact heard.trans (moved _)
      · exact heard.trans (stopReader_rouses _ _ _)
  · next hd live p position =>
      rcases recvPayload_cases taken with ⟨-, -, ⟨-, -, rfl⟩ | ⟨cause, -, rfl⟩⟩
      · exact heard.trans (moved _)
      · exact heard.trans (stopReader_rouses _ _ _)
  · next hd got discard position =>
      have told := fun complete =>
        heard.trans (published_rouses (s.hears bs) hd.id bs discard complete)
      rcases recvData_cases (s := s.hears bs) taken with
        ⟨-, ⟨-, -, rfl⟩ | ⟨-, -, rfl⟩ | ⟨cause, -, rfl⟩⟩
      · exact (told true).trans (consumed_rouses _ _)
      · exact (told false).trans (moved _)
      · exact (told true).trans (stopReader_rouses _ _ _)
  · cases taken

theorem admission_rouses (server : s.server = true) (id : Nat) (p : List Byte) (draw : Nat) :
    Rouses s (s.admission id p draw).1 := by
  have swept : Rouses s (s.swept id) :=
    .quiet rfl rfl rfl rfl rfl rfl fun _ listed => List.mem_of_mem_filter listed
  rcases admission_cases s id p draw with
    ⟨-, ⟨-, outcome⟩ | ⟨e, -, outcome⟩⟩ | ⟨-, outcome⟩ <;> rw [outcome]
  · exact swept.trans (.queued _ _ _)
  · exact swept
  · refine swept.trans ⟨rfl, rfl, fun same => same, fun same => same, ?_, ?_⟩
    · refine .inr ⟨fun same => same, ?_⟩
      rintro j ⟨listed, st, here, wants⟩
      simp only [newStreamLocked, Session.set, List.mem_append, List.mem_singleton]
        at listed here
      split at here
      · cases here
        simp [Stream.fresh, Stream.wantsToSend] at wants
      · next other => exact ⟨listed.resolve_right other, st, here, wants⟩
    · rintro ⟨j, st, here, talk⟩
      have isServer : (s.swept id).server = true := server
      have opened := talk.resolve_left fun client => by cases isServer.symm.trans client
      simp only [newStreamLocked, Session.set] at here
      split at here
      · cases here
        simp [Stream.fresh] at opened
      · exact .inl ⟨j, st, here, .inr opened⟩

theorem afterFrame_rouses {k : Nat} {st : Stream} (here : s.objs k = some st) {t : Kind}
    {p : List Byte} (fine : ¬ Objects s.server st t p) : Rouses s (s.afterFrame k st t p) := by
  have quiet : ∀ st', (st'.wantsToSend = true → st.wantsToSend = true) →
      (st'.ready = true → st.ready = true) → Rouses s (s.set k st') :=
    fun st' => .set here
  cases t with
  | opened =>
      refine ⟨rfl, rfl, fun same => same, fun same => same, .inr ⟨fun same => same, ?_⟩, ?_⟩
      · rintro j ⟨listed, other, found, wants⟩
        simp only [afterFrame, Session.set] at found
        split at found
        · next own =>
            cases found
            exact ⟨listed, st, own ▸ here, wants⟩
        · exact ⟨listed, other, found, wants⟩
      · intro _
        have client : s.server = false := by
          simp only [Objects, not_or, Bool.not_eq_true] at fine
          exact fine.1
        exact .inl ⟨k, st, here, .inl client⟩
  | failed => exact .shutStream here _
  | fin => exact quiet _ (fun wants => wants) fun opened => opened
  | reset => exact .shutStream here _
  | finished => exact quiet _ (fun wants => wants) fun opened => opened
  | credit =>
      refine ⟨rfl, rfl, fun _ => rfl, fun same => same, .inl rfl, ?_⟩
      rintro ⟨j, other, found, talk⟩
      simp only [afterFrame, Session.set] at found
      split at found
      · cases found
        exact .inl ⟨k, st, here, talk⟩
      · exact .inl ⟨j, other, found, talk⟩
  | «open» | data => exact .refl s

theorem dispatch_rouses {draw : Nat} (sound : s.Sound) (taken : s.dispatch draw = some s') :
    Rouses s s' := by
  rcases dispatch_cases taken with ⟨hd, live, p, position, -, outcome⟩
  have fits := sound.reading
  rw [position] at fits
  rcases outcome with ⟨open_, ⟨-, rfl⟩ | ⟨e, -, rfl⟩⟩ | ⟨-, -, rfl⟩ |
    ⟨-, st, finds, ⟨-, rfl⟩ | ⟨fine, rfl⟩⟩
  · exact (admission_rouses (fits.2.2.2 open_).1 _ _ _).trans (consumed_rouses _ _)
  · exact (admission_rouses (fits.2.2.2 open_).1 _ _ _).trans (stopReader_rouses _ _ _)
  · exact consumed_rouses s _
  · exact stopReader_rouses s _ _
  · exact (afterFrame_rouses finds.2.2.1 fine).trans (consumed_rouses _ _)

end ReadLoop

/-! ## The write loop -/

/-- What the writer relies on when it goes to sleep, and for its first batch. -/
structure Attentive (s : Session) : Prop where
  asleep : s.err = none → s.wake = false → s.writer = .parked →
    s.controls = [] ∧ s.ready = []
  leaving : ∀ b, s.err = none → s.wake = false → s.writer = .writing b → b.more = false →
    s.controls = [] ∧ s.ready = []
  first : s.err = none → s.preamble ≠ [] → s.Talks → s.controls ≠ []

/-- A step that rouses the writer keeps it attentive. -/
theorem Rouses.attentive {s s' : Session} (rouses : Rouses s s') (err : s'.err = s.err)
    (held : s.Attentive) : s'.Attentive := by
  have idle : s.err = none → s'.wake = false →
      (s.err = none → s.wake = false → s.controls = [] ∧ s.ready = []) →
      s'.controls = [] ∧ s'.ready = [] := by
    intro alive asleep rest
    have before : s.wake = false := by
      by_contra token
      have kept := rouses.token (by simpa using token)
      cases kept.symm.trans asleep
    rcases rest alive before with ⟨controls, ready⟩
    rcases rouses.work with woken | ⟨queue, wants⟩
    · cases woken.symm.trans asleep
    · rw [ready_eq_nil] at ready ⊢
      exact ⟨by_contra fun some_ => queue some_ controls, fun k busy => ready k (wants k busy)⟩
  constructor
  · intro alive asleep parked
    rw [err] at alive
    rw [rouses.writer] at parked
    exact idle alive asleep fun alive asleep => held.asleep alive asleep parked
  · intro b alive asleep writing last
    rw [err] at alive
    rw [rouses.writer] at writing
    exact idle alive asleep fun alive asleep => held.leaving b alive asleep writing last
  · intro alive unsent talk
    rw [err] at alive
    rw [rouses.preamble] at unsent
    rcases rouses.talks talk with before | queued
    · exact rouses.queue (held.first alive unsent before)
    · exact queued

/-- The data loop makes no stream ready. -/
theorem Emits.wants {work work' : Session × Assembly} (emits : Emits work work') {k : Nat}
    (wants : work'.1.Wants k) : work.1.Wants k := by
  induction emits with
  | refl => exact wants
  | tail _ step before =>
      apply before
      rcases step with ⟨j, st, r, n, listed, here, request, unfinished, some_, room, -,
        window, alive, rfl⟩
      rcases wants with ⟨still, other, found, busy⟩
      simp only [emitData, Session.set] at found
      split at found
      · next own =>
          subst own
          refine ⟨listed, st, here, ?_⟩
          simp [Stream.wantsToSend, request, unfinished, window, alive]
          omega
      · exact ⟨still, other, found, busy⟩

theorem dataLoop_nil (limit : Nat) (share : Nat → Nat) (fuel : Nat)
    (work : Session × Assembly) : dataLoop limit share [] fuel work = work := by
  cases fuel <;> simp [dataLoop]

/-- The writer sleeps after a batch only when the batch took all the work there was. -/
theorem batch_last {s s' : Session} {d : Draws} {b : Batch} (taken : s.batch d = some s')
    (writing : s'.writer = .writing b) (last : b.more = false) :
    s'.controls = [] ∧ s'.ready = [] := by
  unfold batch at taken
  split at taken
  · cases taken
    cases writing
  · simp only at taken
    split at taken
    · cases taken
      cases writing
    · have order : s.ready = [] → s.sendingOrder d.rotation s.ready = [] := by
        intro nothing
        simp [sendingOrder, nothing]
      cases taken
      cases writing
      simp only [Bool.not_eq_false', Bool.and_eq_true, List.isEmpty_iff] at last
      rcases last with ⟨nothing, sent⟩
      rw [order nothing, dataLoop_nil]
      exact ⟨sent, nothing⟩
  · cases taken

theorem batch_preamble {s s' : Session} {d : Draws} {b : Batch} (sound : s.Sound)
    (taken : s.batch d = some s') (writing : s'.writer = .writing b) : s'.preamble = [] := by
  rcases batch_cases sound.shape taken with ⟨-, ⟨-, rfl⟩ | ⟨-, -, -, rfl⟩ |
    ⟨-, sentControls, rest, a, work, more, padding, -, -, -, -, emits, rfl⟩⟩
  · cases writing
  · cases writing
  · exact emits.emitted.preamble

theorem batch_attentive {s s' : Session} {d : Draws} (sound : s.Sound) (held : s.Attentive)
    (taken : s.batch d = some s') : s'.Attentive := by
  have cases_ := batch_cases sound.shape taken
  constructor
  · intro alive asleep parked
    rcases cases_ with ⟨-, ⟨-, rfl⟩ | ⟨-, ready, controls, rfl⟩ |
      ⟨-, sentControls, rest, a, work, more, padding, -, -, -, -, emits, rfl⟩⟩
    · cases parked
    · exact ⟨controls, ready⟩
    · cases parked
  · intro b alive asleep writing last
    exact batch_last taken writing last
  · intro alive unsent talk
    rcases cases_ with ⟨-, ⟨-, rfl⟩ | ⟨-, -, -, rfl⟩ |
      ⟨-, sentControls, rest, a, work, more, padding, -, -, -, -, emits, rfl⟩⟩
    · exact held.first alive unsent talk
    · exact held.first alive unsent talk
    · exact (unsent (batch_preamble sound taken rfl)).elim

/-- Reporting a batch makes no stream ready. -/
theorem reported_wants {s : Session} {b : Batch} {e : Option Err} {k : Nat}
    (wants : (s.reported b e).Wants k) : s.Wants k := by
  rcases wants with ⟨listed, st', found, busy⟩
  rcases Option.map_eq_some_iff.mp found with ⟨st, here, rfl⟩
  refine ⟨listed, st, here, ?_⟩
  unfold report at busy
  split at busy
  · cases request : st.request <;>
      simp [Stream.finishRequest, Stream.notifyAll, Stream.wantsToSend, request] at busy
  · exact busy

theorem reported_talks {s : Session} {b : Batch} {e : Option Err}
    (talk : (s.reported b e).Talks) : s.Talks := by
  rcases talk with ⟨k, st', found, talk⟩
  rcases Option.map_eq_some_iff.mp found with ⟨st, here, rfl⟩
  refine ⟨k, st, here, talk.imp_right fun opened => ?_⟩
  unfold report at opened
  split at opened <;> exact opened

theorem writeEnd_attentive {s s' : Session} {e : Option Err} (held : s.Attentive)
    (taken : s.writeEnd e = some s') : s'.Attentive := by
  rcases writeEnd_cases taken with ⟨b, writing, ⟨-, -, rfl⟩ | ⟨cause, -, -, -, rfl⟩⟩
  · have idle : s.err = none → s.wake = false → b.more = false →
        s.controls = [] ∧ (s.reported b e).ready = [] := by
      intro alive asleep last
      rcases held.leaving b alive asleep writing last with ⟨controls, ready⟩
      rw [ready_eq_nil] at ready ⊢
      exact ⟨controls, fun k busy => ready k (reported_wants busy)⟩
    constructor
    · intro alive asleep parked
      apply idle alive asleep
      cases more : b.more with
      | false => rfl
      | true => simp [more] at parked
    · intro b' alive asleep still
      simp only at still
      split_ifs at still
    · intro alive unsent talk
      exact held.first alive unsent (reported_talks talk)
  · constructor
    · intro _ _ parked
      cases parked
    · intro b' _ _ still
      cases still
    · intro alive unsent talk
      exact held.first alive unsent (reported_talks talk)

theorem fail_attentive {s : Session} (held : s.Attentive) (e : Err) : (s.fail e).Attentive := by
  unfold fail
  split
  · exact held
  · constructor <;> intros <;> contradiction

theorem send_attentive {s s' : Session} {n : Nat} (held : s.Attentive)
    (taken : s.send n = some s') : s'.Attentive := by
  unfold send at taken
  split at taken
  · next b writing =>
      split at taken
      · cases taken
      · cases taken
        constructor
        · intro _ _ parked
          cases parked
        · intro b' alive asleep still last
          cases still
          exact held.leaving b alive asleep writing last
        · exact held.first
  · cases taken

theorem wakeUp_attentive {s s' : Session} (held : s.Attentive)
    (taken : s.wakeUp = some s') : s'.Attentive := by
  unfold wakeUp at taken
  split at taken
  · split at taken
    · cases taken
      exact ⟨fun _ _ => nofun, fun _ _ _ => nofun, held.first⟩
    · split at taken
      · cases taken
        exact ⟨fun _ _ => nofun, fun _ _ _ => nofun, held.first⟩
      · cases taken
  · cases taken

/-- Every step keeps the writer attentive. -/
theorem step_attentive {s s' : Session} {action : Action} (sound : s.Sound)
    (held : s.Attentive) (taken : s.step action = some s') : s'.Attentive := by
  by_cases alive : s.err = none
  case neg =>
    have failed : s'.err ≠ none := by
      rcases step_err sound taken with same | ⟨none_, -⟩
      · rwa [same]
      · exact (alive none_).elim
    constructor <;> intros <;> contradiction
  have quiet : Rouses s s' → s'.Attentive := by
    intro rouses
    rcases step_err sound taken with same | ⟨-, e, failed, -⟩
    · exact rouses.attentive same held
    · constructor <;> intro <;> simp_all
  cases action with
  | «open» metadata draw =>
      cases taken
      exact quiet (open_rouses s metadata draw)
  | accept =>
      apply quiet
      rcases Option.map_eq_some_iff.mp taken with ⟨⟨_, result⟩, made, rfl⟩
      unfold accept at made
      split at made
      · cases made
      · cases made
        exact .quiet rfl rfl rfl rfl rfl rfl fun _ listed => listed
  | respond k code =>
      apply quiet
      rcases Option.map_eq_some_iff.mp taken with ⟨⟨_, result⟩, made, rfl⟩
      exact respond_rouses alive made
  | callReturn k wake =>
      apply quiet
      rcases Option.map_eq_some_iff.mp taken with ⟨⟨_, result⟩, made, rfl⟩
      exact callReturn_rouses made
  | read k n draw =>
      apply quiet
      rcases Option.map_eq_some_iff.mp taken with ⟨⟨_, result⟩, made, rfl⟩
      exact read_rouses made
  | write k p =>
      apply quiet
      rcases Option.map_eq_some_iff.mp taken with ⟨⟨_, result⟩, made, rfl⟩
      exact write_rouses made
  | writeReturn k =>
      apply quiet
      rcases Option.map_eq_some_iff.mp taken with ⟨⟨_, n, e⟩, made, rfl⟩
      exact writeReturn_rouses made
  | closeWrite k =>
      apply quiet
      rcases Option.map_eq_some_iff.mp taken with ⟨⟨_, result⟩, made, rfl⟩
      exact closeWrite_rouses made
  | finish k =>
      apply quiet
      rcases Option.map_eq_some_iff.mp taken with ⟨⟨_, result⟩, made, rfl⟩
      exact finish_rouses made
  | close k => exact quiet (close_rouses taken)
  | closeSession =>
      cases taken
      exact fail_attentive held _
  | cancel =>
      apply quiet
      simp only [step] at taken
      split at taken
      · cases taken
        exact .quiet rfl rfl rfl rfl rfl rfl fun _ listed => listed
      · cases taken
  | fail i =>
      simp only [step] at taken
      split at taken
      · cases taken
      · cases taken
        have before : { s with failing := s.failing.eraseIdx i }.Attentive :=
          ⟨held.asleep, held.leaving, held.first⟩
        exact fail_attentive before _
  | recv bs e => exact quiet (recv_rouses taken)
  | check => exact quiet (check_rouses taken)
  | takeChunk => exact quiet (takeChunk_rouses taken)
  | dispatch draw => exact quiet (dispatch_rouses sound taken)
  | wakeUp => exact wakeUp_attentive held taken
  | batch draws => exact batch_attentive sound held taken
  | send n => exact send_attentive held taken
  | writeEnd e => exact writeEnd_attentive held taken

/-! ## Sessions that begin with a prefix -/

/-- `New` with a validated profile, the numbers it draws and the caller's prefix. -/
def made (server : Bool) (profile : Profile) (draw : Nat → Nat) (preamble : List Byte) :
    Session :=
  { Session.new server (newShape profile draw) with preamble := preamble }

/-- A session of either role, as `New` makes it. -/
def anyMachine : Machine Session Action where
  start s := ∃ server profile draw preamble,
    profile.validate = true ∧ s = made server profile draw preamble
  step := step

theorem any_sound {ok : Session → Action → Prop} {s : Session}
    (reached : anyMachine.ReachableBy ok s) : s.Sound := by
  refine reached.invariant (P := Sound) ?_
    fun _ _ _ _ sound _ taken => step_sound sound taken
  rintro s ⟨server, profile, draw, preamble, valid, rfl⟩
  exact ⟨newShape_valid valid draw, fun _ => .inl rfl, Nat.zero_le _,
    by simp [made, Session.new], by simp [made, Session.new]⟩

theorem any_inv {ok : Session → Action → Prop} {s : Session}
    (reached : anyMachine.ReachableBy ok s) (k : Nat) : (s.track k).Inv := by
  revert k
  refine reached.invariant (P := fun s => ∀ k, (s.track k).Inv) ?_ ?_
  · rintro s ⟨server, profile, draw, preamble, -, rfl⟩ k
    exact Track.inv_initial server k
  · intro s action s' before held _ taken k
    have moves := step_moves (any_sound before) taken k
    exact moves.invariant (fun _ _ _ _ move => Track.inv_move move) (held k)

theorem any_attentive {ok : Session → Action → Prop} {s : Session}
    (reached : anyMachine.ReachableBy ok s) : s.Attentive := by
  refine reached.invariant (P := Attentive) ?_
    fun _ _ _ before held _ taken => step_attentive (any_sound before) held taken
  rintro s ⟨server, profile, draw, preamble, -, rfl⟩
  refine ⟨fun _ _ _ => ⟨rfl, rfl⟩, fun _ _ _ => nofun, ?_⟩
  rintro - - ⟨k, st, here, -⟩
  cases here

/-! ## A batch makes progress -/

/-- The control loop takes a frame when there is one, whatever the prefix has filled. -/
theorem takeControls_progress {limit size : Nat} {controls : List Control}
    (some_ : controls ≠ []) : (takeControls limit controls ⟨[], size, [], []⟩).1.frames ≠ [] := by
  cases controls with
  | nil => exact (some_ rfl).elim
  | cons c rest =>
      rw [takeControls, if_neg (by simp)]
      simp only
      split
      · simp [Assembly.add]
      · rcases takeControls_spec limit rest
          { Assembly.add ⟨[], size, [], []⟩ c.frame with sentControls := [c] } with
          ⟨taken, -, frames, -, -⟩
        intro none_
        rw [List.nil_append, frames] at none_
        simp [Assembly.add] at none_

/-- The data loop sends for a ready stream when the batch has room for a byte. -/
theorem dataLoop_progress {limit fuel : Nat} {share : Nat → Nat} {order : List Nat}
    {work : Session × Assembly} (positive : ∀ size, 0 < share size)
    (small : ∀ size, share size ≤ blockSize)
    (room : work.2.size + headerSize < limit) (some_ : order ≠ [])
    (wants : ∀ k ∈ order, work.1.Wants k) :
    ∃ new ≠ [], (dataLoop limit share order (fuel + 1) work).1.emitted =
      work.1.emitted ++ new := by
  cases order with
  | nil => exact (some_ rfl).elim
  | cons k rest =>
      rcases wants k (by simp) with ⟨-, st, here, wants_⟩
      have able : Sendable work.1 (k :: rest) := by
        intro j member
        rcases wants j member with ⟨listed, other, found, busy⟩
        refine ⟨listed, fun st' found' => ?_⟩
        cases found.symm.trans found'
        unfold Stream.wantsToSend at busy
        split at busy
        · cases busy
        · simp only [Bool.and_eq_true, decide_eq_true_eq, Option.isNone_iff_eq_none] at busy
          exact ⟨busy.2, busy.1.2.le⟩
      unfold Stream.wantsToSend at wants_
      split at wants_
      · cases wants_
      next r request =>
      simp only [Bool.and_eq_true, Bool.not_eq_true', decide_eq_true_eq] at wants_
      have served : (work.1.objs k).bind (fun st => st.request.map fun r => (st, r)) =
          some (st, r) := by
        simp [here, request]
      have unsent : ¬ (r.finished = true ∨ r.off = r.p.length ∨ st.sendCredit = 0) := by
        have window := wants_.1.2
        have left := wants_.1.1.2
        simp only [wants_.1.1.1, Bool.false_eq_true, false_or, not_or]
        omega
      have size : min (share work.2.size) (min (r.p.length - r.off)
          (limit - work.2.size - headerSize)) ≠ 0 := by
        have some_ := positive work.2.size
        have left := wants_.1.1.2
        omega
      rw [dataLoop, if_pos ⟨room, some_⟩, dataRound, served]
      simp only [unsent, if_false, size]
      generalize min (share work.2.size) (min (r.p.length - r.off)
        (limit - work.2.size - headerSize)) = n
      have able' := emitData_sendable (k := k) (r := r) (n := n)
        able (Option.isNone_iff_eq_none.mp wants_.2) wants_.1.2
      rcases dataRound_emits (l := limit) small rest _ able'
        (fun j member => List.mem_cons_of_mem k member) with ⟨round, able''⟩
      have later : Emits _ _ := round.trans (dataLoop_emits (l := limit) small fuel _ able'')
      rcases later.emitted.frames with ⟨new, -, emitted, -⟩
      refine ⟨⟨.data, k, (r.p.drop r.off).take n⟩ :: new, List.cons_ne_nil _ _, ?_⟩
      exact emitted.trans (List.append_cons _ _ _).symm

/-- Every batch has room for a header and some data behind an empty prefix. -/
theorem limit_low {s : Session} (valid : s.shape.Valid) (d : Draws) : 128 ≤ s.limit d := by
  rw [limit]
  split_ifs
  · exact valid.startup_low.trans (Range.choose_mem valid.startup_ordered _).1
  · decide

/-- A stream that is ready to send has been answered. -/
theorem Wants.talks {s : Session} {k : Nat} (inv : (s.track k).Inv) (wants : s.Wants k) :
    s.Talks := by
  rcases wants with ⟨-, st, here, busy⟩
  have flags := inv.flags st here
  refine ⟨k, st, here, .inr (flags.writing (flags.pending.mp ?_)).1⟩
  cases request : st.request with
  | none => simp [Stream.wantsToSend, request] at busy
  | some r => rfl

theorem sendingOrder_ne_nil {s : Session} {rotation : Nat} {ready : List Nat}
    (some_ : ready ≠ []) : s.sendingOrder rotation ready ≠ [] := by
  unfold sendingOrder
  split
  · exact some_
  · intro empty
    have length := congrArg List.length empty
    simp only [List.length_rotate, List.length_insertionSort, List.length_nil] at length
    exact some_ (List.length_eq_zero_iff.mp length)

/-- A batch that finds work puts at least one frame out. -/
theorem batch_progress {s s' : Session} {d : Draws} (sound : s.Sound) (held : s.Attentive)
    (inv : ∀ k, (s.track k).Inv) (alive : s.err = none)
    (busy : ¬ (s.controls = [] ∧ s.ready = [])) (taken : s.batch d = some s') :
    ∃ new ≠ [], s'.emitted = s.emitted ++ new := by
  have valid := sound.shape
  have positive := share_pos valid d
  have small := share_small valid d
  unfold batch at taken
  split at taken
  · next failed => cases alive.symm.trans failed
  · simp only at taken
    split at taken
    · next idle => exact (busy ⟨idle.2, idle.1⟩).elim
    cases taken
    by_cases empty : s.controls = []
    · have ready : s.ready ≠ [] := fun nothing => busy ⟨empty, nothing⟩
      have unsent : s.preamble = [] := by
        by_contra some_
        rcases List.exists_mem_of_ne_nil _ ready with ⟨k, member⟩
        exact held.first alive some_ (Wants.talks (inv k) (mem_ready.mp member)) empty
      have low := limit_low valid d
      rcases Nat.exists_eq_succ_of_ne_zero (show s.limit d ≠ 0 by omega) with ⟨fuel, fueled⟩
      simp only [empty, unsent, takeControls, List.length_nil, List.append_nil]
      nth_rewrite 2 [fueled]
      refine dataLoop_progress positive small ?_ (sendingOrder_ne_nil ready) ?_
      · simp only [headerSize]
        omega
      · exact fun k member => mem_ready.mp (mem_sendingOrder member)
    · have sent := @takeControls_progress (s.limit d) s.preamble.length _ empty
      have able : Sendable s (s.sendingOrder d.rotation s.ready) := ready_sendable s d.rotation
      rcases (dataLoop_emits (l := s.limit d) small (s.limit d) ({ s with
          controls := (takeControls (s.limit d) s.controls
            ⟨[], s.preamble.length, [], []⟩).2
          preamble := []
          emitted := s.emitted ++ (takeControls (s.limit d) s.controls
            ⟨[], s.preamble.length, [], []⟩).1.frames
          shape := { s.shape with remaining := s.startup d - 1 } }, (takeControls (s.limit d)
            s.controls ⟨[], s.preamble.length, [], []⟩).1) able).emitted.frames with
        ⟨new, -, emitted, -⟩
      refine ⟨_ ++ new, ?_, emitted.trans (List.append_assoc _ _ _)⟩
      exact fun none_ => sent (List.append_eq_nil_iff.mp none_).1
  · cases taken

theorem batch_idle {s s' : Session} {d : Draws} (alive : s.err = none)
    (controls : s.controls = []) (ready : s.ready = []) (taken : s.batch d = some s') :
    s'.writer = .parked := by
  unfold batch at taken
  split at taken
  · next failed => cases alive.symm.trans failed
  · rw [if_pos ⟨ready, controls⟩] at taken
    cases taken
    rfl
  · cases taken

/--
In every run of a session that has not failed, the writer sleeps without a
token only when nothing is queued and no stream is ready to send; and a pass
of its inner loop that finds work puts a frame into its batch.
-/
theorem writer_misses_nothing {s : Session} (reached : anyMachine.Reachable s)
    (alive : s.err = none) :
    (s.writer = .parked → s.wake = false → s.controls = [] ∧ s.ready = []) ∧
      ∀ d s', s.batch d = some s' → s'.writer ≠ .parked →
        ∃ new ≠ [], s'.emitted = s.emitted ++ new := by
  have sound := any_sound reached
  have held := any_attentive reached
  refine ⟨fun parked asleep => held.asleep alive asleep parked, ?_⟩
  intro d s' taken awake
  refine batch_progress sound held (any_inv reached) alive ?_ taken
  rintro ⟨controls, ready⟩
  exact awake (batch_idle alive controls ready taken)

/-- A client with a prefix whose writer has just been woken for its first OPEN. -/
theorem writer_misses_nothing_opening : ∃ s,
    anyMachine.run (made false Profile.default (fun _ => 0) [7]) [.open [1] 0, .wakeUp] =
        some s ∧
      s.preamble = [7] ∧ s.writer = .running ∧
      (s.writer = .parked → s.wake = false → s.controls = [] ∧ s.ready = []) ∧
      ∀ d s', s.batch d = some s' → s'.writer ≠ .parked →
        ∃ new ≠ [], s'.emitted = s.emitted ++ new := by
  have both : (anyMachine.run (made false Profile.default (fun _ => 0) [7])
      [.open [1] 0, .wakeUp]).map (fun s => (s.preamble, s.writer, s.err)) =
      some ([7], .running, none) := by
    decide +kernel
  rcases Option.map_eq_some_iff.mp both with ⟨s, ran, same⟩
  have initial : anyMachine.start (made false Profile.default (fun _ => 0) [7]) :=
    ⟨false, Profile.default, fun _ => 0, [7], Profile.validate_default, rfl⟩
  have reached := Machine.run_reachable (.start initial) ran
  have alive : s.err = none := congrArg (·.2.2) same
  exact ⟨s, ran, congrArg Prod.fst same, congrArg (·.2.1) same,
    writer_misses_nothing reached alive⟩

end Session

end Veil.Mux

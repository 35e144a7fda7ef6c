import Veil.Mux.Pair
import Veil.Mux.Wakeup

/-!
# The channels that end an operation

`Respond`, `CloseWrite`, `Finish` and `Write` wait for a result on a channel
with one slot.  The writer and `fail` put results into it under the session
lock, so that a result that finds no room would stop every stream.

`CloseWrite` makes a channel of its own and a stream takes it once.  `Respond`
and `Finish` share one channel for the life of the stream, and a call that is
cut short leaves its result there or on the way.  As long as no such call is
followed by another one that queues a frame, every result finds room and is
the result of the call that takes it.
-/

namespace Veil.Mux

open Veil.Lib

/-- How many control frames report to a channel. -/
def reports (done : Waiter) (controls : List Control) : Nat :=
  controls.countP (·.done = done)

section Reports

variable {done : Waiter}

@[simp, grind =]
theorem reports_nil : reports done [] = 0 := rfl

@[simp, grind =]
theorem reports_append (first second : List Control) :
    reports done (first ++ second) = reports done first + reports done second := by
  simp [reports]

@[simp, grind =]
theorem reports_cons (c : Control) (rest : List Control) :
    reports done (c :: rest) = reports done rest + if c.done = done then 1 else 0 := by
  simp [reports, List.countP_cons]

theorem length_results (controls : List Control) :
    (controls.filter (·.done = done)).length = reports done controls := by
  rw [← List.countP_eq_length_filter, reports]

end Reports

namespace Track

/-- The results of `Respond` and `Finish` that are in their channel or on the way to it. -/
def owed (t : Track) : Nat :=
  (t.st.elim 0 fun st => st.controlDone.length) +
    reports .controlDone t.queue + reports .controlDone t.sending

/-- The results of `CloseWrite` that are in its channel or on the way to it. -/
def finOwed (t : Track) : Nat :=
  (t.st.elim 0 fun st => st.finDone.length) +
    reports .finDone t.queue + reports .finDone t.sending

/-- A call of `Respond` or `Finish` waits for its result. -/
def Waits (st : Stream) : Prop :=
  st.call = .respond ∨ st.call = .finish

/--
Every result finds room.  Without a call that has gone without its result,
nothing is on the way to a stream that has no call waiting.
-/
structure Room (left : Prop) (t : Track) : Prop where
  once : t.owed ≤ 1
  bare : t.st = none → t.owed = 0
  settled : ¬ left → (∀ st, t.st = some st → ¬ Waits st) → t.owed = 0
  fin : t.finOwed ≤ 1
  unended : (∀ st, t.st = some st → st.localFIN = false) → t.finOwed = 0

variable {left : Prop} {t t' : Track}

/-- What is on the way to the channels of a stream does not change. -/
theorem Room.keep (held : t.Room left) (owed : t'.owed = t.owed)
    (finOwed : t'.finOwed = t.finOwed) (bare : t'.st = none → t.st = none)
    (calls : (∀ st, t'.st = some st → ¬ Waits st) → ∀ st, t.st = some st → ¬ Waits st)
    (flags : (∀ st, t'.st = some st → st.localFIN = false) →
      ∀ st, t.st = some st → st.localFIN = false) : t'.Room left where
  once := owed ▸ held.once
  bare missing := owed ▸ held.bare (bare missing)
  settled stays idle := owed ▸ held.settled stays (calls idle)
  fin := finOwed ▸ held.fin
  unended open_ := finOwed ▸ held.unended (flags open_)

end Track

/-- The events that neither begin nor end a call of `Respond` or `Finish`. -/
def Event.Aside (event : Event) : Prop :=
  event ≠ .returned ∧ event ≠ .abandoned ∧ event ≠ .finish ∧ ∀ code, event ≠ .respond code

namespace Track

variable {left : Prop} {t t' : Track}

/-- The stream of a track changes, and what is on the way to its channels does not. -/
theorem Room.replace (held : t.Room left) {st st' : Stream} (here : t.st = some st)
    (after : t'.st = some st')
    (owed : st'.controlDone.length + reports .controlDone t'.queue +
        reports .controlDone t'.sending =
      st.controlDone.length + reports .controlDone t.queue + reports .controlDone t.sending)
    (finOwed : st'.finDone.length + reports .finDone t'.queue + reports .finDone t'.sending =
      st.finDone.length + reports .finDone t.queue + reports .finDone t.sending)
    (calls : Waits st → Waits st') (flag : st.localFIN = true → st'.localFIN = true) :
    t'.Room left := by
  refine held.keep ?_ ?_ (fun missing => ?_) ?_ ?_
  · simpa only [Track.owed, here, after, Option.elim_some] using owed
  · simpa only [Track.finOwed, here, after, Option.elim_some] using finOwed
  · cases after.symm.trans missing
  · rintro idle _ found waits
    cases here.symm.trans found
    exact idle _ after (calls waits)
  · rintro open_ _ found
    cases here.symm.trans found
    by_contra ended
    rw [Bool.not_eq_false] at ended
    exact absurd ((open_ _ after).symm.trans (flag ended)) (by simp)

theorem reports_deferredFin (t : Track) (pending : Bool) {done : Waiter}
    (other : done ≠ .nobody) : reports done (t.deferredFin pending) = 0 := by
  unfold deferredFin
  cases pending with
  | false => rfl
  | true => simp [Ne.symm other]

/-- A stream is made, and its channels with it. -/
theorem Room.make (held : t.Room left) (missing : t.st = none) {st : Stream}
    (after : t'.st = some st) (channels : st.controlDone = [] ∧ st.finDone = [])
    (queue : ∀ done, done ≠ .nobody → reports done t'.queue = reports done t.queue)
    (sending : t'.sending = t.sending) : t'.Room left := by
  have owed : t'.owed = t.owed := by
    simp [Track.owed, missing, after, channels, queue, sending]
  have finOwed : t'.finOwed = t.finOwed := by
    simp [Track.finOwed, missing, after, channels, queue, sending]
  have none_ := held.bare missing
  have open_ := held.unended (by simp [missing])
  constructor
  · rw [owed]
    exact held.once
  · exact fun _ => owed.trans none_
  · exact fun _ _ => owed.trans none_
  · rw [finOwed]
    exact held.fin
  · exact fun _ => finOwed.trans open_

/-- The results of control frames go into the channels they name. -/
theorem owed_notifyAll (st : Stream) (e : Option Err) (controls : List Control) :
    (st.notifyAll e controls).controlDone.length =
        st.controlDone.length + reports .controlDone controls ∧
      (st.notifyAll e controls).finDone.length =
        st.finDone.length + reports .finDone controls := by
  simp only [Stream.notifyAll, List.length_append, List.length_map, length_results,
    and_self]

/-- A call begins to wait for the only result that is on the way. -/
theorem Room.begin (held : t.Room left) {st st' : Stream} (here : t.st = some st)
    (after : t'.st = some st') (none_ : t.owed = 0) (waits : Waits st')
    (channel : st'.controlDone = st.controlDone) (finChannel : st'.finDone = st.finDone)
    (queue : reports .controlDone t'.queue = reports .controlDone t.queue + 1)
    (finQueue : reports .finDone t'.queue = reports .finDone t.queue)
    (sending : t'.sending = t.sending)
    (flag : st.localFIN = true → st'.localFIN = true) : t'.Room left := by
  have owed : t'.owed = 1 := by
    simp only [Track.owed, here, after, Option.elim_some] at none_ ⊢
    rw [channel, queue, sending]
    omega
  have finOwed : t'.finOwed = t.finOwed := by
    simp only [Track.finOwed, here, after, Option.elim_some]
    rw [finChannel, finQueue, sending]
  constructor
  · exact owed.le
  · intro missing
    cases after.symm.trans missing
  · exact fun _ idle => (idle _ after waits).elim
  · exact finOwed ▸ held.fin
  · intro open_
    rw [finOwed]
    refine held.unended fun _ found => ?_
    cases here.symm.trans found
    by_contra ended
    rw [Bool.not_eq_false] at ended
    exact absurd ((open_ _ after).symm.trans (flag ended)) (by simp)

/-- A call takes the only result that is on the way. -/
theorem Room.taken (held : t.Room left) {wider : Prop} {st : Stream} {e : Option Err}
    {rest : List (Option Err)} (here : t.st = some st)
    (reported : st.controlDone = e :: rest) :
    Room wider { t with st := some { st with controlDone := rest, call := .idle } } := by
  have once := held.once
  have fin := held.fin
  have unended := held.unended
  simp only [Track.owed, Track.finOwed, here, Option.elim_some, reported,
    List.length_cons] at once fin unended
  have none_ : Track.owed
      { t with st := some { st with controlDone := rest, call := .idle } } = 0 := by
    simp only [Track.owed, Option.elim_some]
    omega
  constructor
  · exact none_.le.trans (Nat.zero_le 1)
  · exact fun _ => none_
  · exact fun _ _ => none_
  · exact fin
  · intro open_
    apply unended
    rintro _ ⟨⟩
    have still := open_ _ rfl
    exact still

/-- `CloseWrite` takes its result. -/
theorem Room.finTaken (held : t.Room left) {st : Stream} {e : Option Err}
    {rest : List (Option Err)} (here : t.st = some st) (waiting : st.call = .closeWrite)
    (reported : st.finDone = e :: rest) :
    Room left { t with st := some { st with finDone := rest, call := .idle } } := by
  have once := held.once
  have fin := held.fin
  have settled := held.settled
  simp only [Track.owed, Track.finOwed, here, Option.elim_some, reported,
    List.length_cons] at once fin settled
  have none_ : Track.finOwed
      { t with st := some { st with finDone := rest, call := .idle } } = 0 := by
    simp only [Track.finOwed, Option.elim_some]
    omega
  constructor
  · exact once
  · simp
  · intro stays _
    apply settled stays
    rintro _ ⟨⟩
    simp [Waits, waiting]
  · exact none_.le.trans (Nat.zero_le 1)
  · exact fun _ => none_

/-- A call goes without its result. -/
theorem Room.gone (held : t.Room left) {wider : Prop} {st : Stream} (here : t.st = some st)
    (widens : left → wider) (counted : Waits st → wider) :
    Room wider { t with st := some { st with call := .idle } } := by
  have once := held.once
  have fin := held.fin
  have settled := held.settled
  have unended := held.unended
  simp only [Track.owed, Track.finOwed, here, Option.elim_some] at once fin settled unended
  constructor
  · exact once
  · simp
  · intro stays _
    apply settled fun was => stays (widens was)
    rintro _ ⟨⟩
    exact fun waits => stays (counted waits)
  · exact fin
  · intro open_
    apply unended
    rintro _ ⟨⟩
    have still := open_ _ rfl
    exact still

theorem Room.mono (held : t.Room left) {wider : Prop} (widens : left → wider) :
    t.Room wider :=
  { held with settled := fun stays => held.settled fun was => stays (widens was) }

theorem room_move {event : Event} (move : Move event t t') (aside : event.Aside)
    (placed : t.Placed) (held : t.Room left) : t'.Room left := by
  have new := placed.new
  cases move with
  | halt | pass | sweep | control | ignore | checkedDead | dropChunk | publishDropped
  | completeDropped | cutDropped =>
      exact held.keep rfl rfl (fun missing => missing) (fun idle => idle) fun open_ => open_
  | opened _ _ _ _ here | fin _ _ _ _ here | finished _ _ _ _ here | credit _ _ _ _ here
  | checked _ _ _ here | keepChunk _ _ here | publish _ _ here | complete _ _ here
  | cut _ _ here | advance _ here | failed _ _ _ _ _ here | reset _ _ _ _ here
  | closeQuiet here | closeFull here | respondFull _ here | closeWriteLater here
  | closeWriteFull here | closeWriteOver here | emitData _ _ _ here =>
      exact held.replace here rfl rfl rfl (fun waits => waits) (by simp [Stream.shut, Stream.stop, Stream.advance, Stream.publish])
  | write _ here free => 
      exact held.replace here rfl rfl rfl (by simp [Waits, free]) fun ended => ended
  | writeReturn here waiting =>
      exact held.replace here rfl rfl rfl (by simp [Waits, waiting]) fun ended => ended
  | @pop _ st c rest here =>
      obtain ⟨_, _, popped⟩ := st.pop_eq c.rest
      rw [popped]
      exact held.replace here rfl rfl rfl (fun waits => waits) fun ended => ended
  | grant _ here | close here =>
      refine held.replace here rfl ?_ ?_ (fun waits => waits) fun ended => ended
      · simp
        rfl
      · simp
        rfl
  | merge _ here _ _ _ _ queued =>
      refine held.replace here rfl ?_ ?_ (fun waits => waits) fun ended => ended
      · simp [queued]
        rfl
      · simp [queued]
        rfl
  | finishFull queued here =>
      refine held.replace here rfl ?_ ?_ (fun waits => waits) fun ended => ended
      · simp [reports_deferredFin]
      · simp [reports_deferredFin]
  | @emitControl _ c rest alive queued =>
      have moved (done : Waiter) : reports done rest + reports done (t.sending ++ [c]) =
          reports done t.queue + reports done t.sending := by
        rw [queued, reports_append, reports_cons, reports_cons, reports_nil]
        omega
      refine held.keep ?_ ?_ (fun missing => missing) (fun idle => idle) fun open_ => open_
      · simp only [Track.owed, Nat.add_assoc, moved]
      · simp only [Track.finOwed, Nat.add_assoc, moved]
  | fail e _ _ here =>
      obtain ⟨control, fin⟩ := owed_notifyAll _ (some e) t.queue
      refine held.replace here rfl ?_ ?_ ?_ ?_
      · rw [control, reports_nil]
        split_ifs <;> rfl
      · rw [fin, reports_nil]
        split_ifs <;> rfl
      · intro waits
        split_ifs <;> exact waits
      · intro ended
        split_ifs <;> exact ended
  | report e here =>
      obtain ⟨control, fin⟩ := owed_notifyAll _ e t.sending
      refine held.replace here rfl ?_ ?_ ?_ ?_
      · rw [control, reports_nil]
        split_ifs <;> (simp only [Stream.finishRequest]; omega)
      · rw [fin, reports_nil]
        split_ifs <;> (simp only [Stream.finishRequest]; omega)
      · intro waits
        split_ifs <;> exact waits
      · intro ended
        split_ifs <;> exact ended
  | failBare _ _ _ missing | reportBare missing =>
      have none_ := held.bare missing
      have open_ := held.unended (by simp [missing])
      simp only [Track.owed, Track.finOwed, missing] at none_ open_
      constructor <;> simp [Track.owed, Track.finOwed, missing] <;> omega
  | «open» _ _ _ isNew | openFull _ _ _ isNew | arrive _ _ _ isNew =>
      exact held.make (new isNew).1 rfl ⟨rfl, rfl⟩ (by simp +contextual [Ne.symm]) rfl
  | refuse _ _ isNew =>
      refine held.keep ?_ ?_ (fun missing => missing) (fun idle => idle) fun open_ => open_
      · simp [Track.owed]
      · simp [Track.finOwed]
  | closeWrite here free _ _ unended =>
      have open_ := held.unended fun _ found => by
        cases here.symm.trans found
        exact unended
      simp only [Track.finOwed, here, Option.elim_some] at open_
      have once := held.once
      have settled := held.settled
      simp only [Track.owed, here, Option.elim_some] at once settled
      constructor
      · simpa [Track.owed] using once
      · simp
      · intro stays _
        simpa [Track.owed] using settled stays fun _ found waits => by
          cases found
          simp [Waits, free] at waits
      · simp [Track.finOwed]
        omega
      · intro still
        cases still _ rfl
  | respondOver code => exact (aside.2.2.2 code rfl).elim
  | respond code => exact (aside.2.2.2 code rfl).elim
  | finish => exact (aside.2.2.1 rfl).elim
  | controlReturn | finReturn | giveUp => exact (aside.1 rfl).elim
  | abandon => exact (aside.2.1 rfl).elim

end Track

namespace Session

/-! ## Calls that go without their result -/

/-- The streams that a call of `Respond` or `Finish` leaves without its result. -/
def leaves (s : Session) (action : Action) : Set Nat :=
  match action with
  | .callReturn k wake =>
      {j | j = k ∧ wake ≠ .token ∧ ∃ st, s.objs k = some st ∧ Track.Waits st}
  | _ => ∅

/-- A session of either role, with the streams that have been left so. -/
def watched : Machine (Session × Set Nat) Action where
  start w := anyMachine.start w.1 ∧ w.2 = ∅
  step w action := (w.1.step action).map fun s => (s, w.2 ∪ w.1.leaves action)

/-- `Respond` queues its answer. -/
def responds (s : Session) (k : Nat) : Prop :=
  s.answers k ∧ ¬ s.queueFull

/-- `Finish` queues its frames. -/
def finishes (s : Session) (k : Nat) : Prop :=
  s.err = none ∧ s.server = true ∧ ∃ st, s.objs k = some st ∧ st.call = .idle ∧
    st.err = none ∧ st.localFIN = true ∧ st.remoteFIN = true ∧
    st.applicationDone = false ∧
    s.controls.length + (if st.pendingFIN = true then 2 else 1) ≤ maxControls

/-- `Respond` and `Finish` do not follow a call that has gone without its result. -/
def Fresh (w : Session × Set Nat) (action : Action) : Prop :=
  match action with
  | .respond k _ => w.1.responds k → k ∉ w.2
  | .finish k => w.1.finishes k → k ∉ w.2
  | _ => True

theorem watched_reachable {ok : Session × Set Nat → Action → Prop} {w : Session × Set Nat}
    (reached : watched.ReachableBy ok w) : anyMachine.Reachable w.1 := by
  refine @Machine.ReachableBy.project _ _ _ _ watched anyMachine ok (fun _ _ => True)
    Prod.fst (fun _ initial => initial.1) ?_ _ reached
  rintro ⟨s, left⟩ action next - taken
  obtain ⟨s', moved, rfl⟩ := Option.map_eq_some_iff.mp taken
  exact .inr ⟨action, trivial, moved⟩

theorem controlLocked_room {s s' : Session} {t : Kind} (plain : t ≠ .credit) {id : Nat}
    {p : List Byte} {done : Waiter} (queued : s.controlLocked t id p done = (s', none)) :
    s'.controls.length ≤ maxControls := by
  rcases controlLocked_plain s plain id p done with
    ⟨e, -, outcome⟩ | ⟨-, -, outcome⟩ | ⟨-, room, outcome⟩
  · cases queued.symm.trans outcome
  · cases queued.symm.trans outcome
  · cases queued.symm.trans outcome
    simp only [Session.queued, List.length_append, List.length_singleton]
    omega

/-- A `Finish` that waits has queued its frames. -/
theorem finish_room {s s' : Session} {k : Nat} (taken : s.finish k = some (s', none)) :
    s'.controls.length ≤ maxControls := by
  unfold finish at taken
  split at taken
  · cases taken
  next st here =>
  split at taken
  · cases taken
  split at taken
  · cases taken
  split at taken
  · cases taken
  dsimp only at taken
  split at taken
  · cases taken
  split at taken
  · cases taken
  next outcome =>
    cases taken
    have room := controlLocked_room (t := .finished) (by decide) outcome
    exact room

/-- Moves that no event accounts for change nothing. -/
theorem still {allowed : Event → Prop} {t t' : Track} (moves : Track.Moves allowed t t')
    (never : ∀ event, ¬ allowed event) : t' = t := by
  induction moves with
  | refl => rfl
  | tail _ last _ =>
      obtain ⟨event, fine, -⟩ := last
      exact (never event fine).elim

theorem room_respond {s s' : Session} {left : Set Nat} {j k : Nat} {code : Byte}
    {result : Option Err} (taken : s.respond j code = some (s', result))
    (fresh : s.responds j → j ∉ left) (held : (s.track k).Room (k ∈ left)) :
    (s'.track k).Room (k ∈ left) := by
  by_cases own : j = k
  · subst own
    rcases respond_cases taken with ⟨st, here, free, ⟨rfl, -⟩ | ⟨unfailed, server, waiting,
      unclosed, ⟨-, -, rfl⟩ | ⟨alive, room, -, rfl⟩⟩⟩
    · exact held
    · rw [track_set_self]
      exact held.replace here rfl rfl rfl (fun waits => waits) fun ended => ended
    · have stays := fresh ⟨⟨alive, server, st, here, free, unfailed, waiting, unclosed⟩, room⟩
      have none_ := held.settled stays fun _ found waits => by
        cases here.symm.trans found
        simp [Track.Waits, free] at waits
      have id : (response j code).id = j := by
        rw [response]
        split_ifs <;> rfl
      rw [track_queued_self _ _ _ _ id, track_set_self]
      exact held.begin here rfl none_ (.inl rfl) rfl rfl (by simp) (by simp) rfl
        fun ended => ended
  · rw [still (respond_moves taken k) fun event occurs => own occurs.1]
    exact held

theorem room_finish {s s' : Session} {left : Set Nat} {j k : Nat} {result : Option Err}
    (taken : s.finish j = some (s', result)) (fresh : s.finishes j → j ∉ left)
    (held : (s.track k).Room (k ∈ left)) : (s'.track k).Room (k ∈ left) := by
  by_cases own : j = k
  · subst own
    rcases finish_cases taken with ⟨st, here, free, ⟨rfl, -⟩ | ⟨unfailed, server, sent,
      ended, first, ⟨e, pending, -, -, -, rfl⟩ | ⟨alive, rfl, rfl⟩⟩⟩
    · exact held
    · rw [track_willFail, track_withDeferred_self, track_set_self]
      refine held.replace here rfl ?_ ?_ (fun waits => waits) fun ended => ended
      · simp [Track.reports_deferredFin]
      · simp [Track.reports_deferredFin]
    · have room := finish_room taken
      have fits : s.controls.length + (if st.pendingFIN = true then 2 else 1) ≤
          maxControls := by
        cases pending : st.pendingFIN <;>
          simpa [pending, queued, withDeferred, Session.set] using room
      have stays := fresh ⟨alive, server, st, here, free, unfailed, sent, ended, first, fits⟩
      have none_ := held.settled stays fun _ found waits => by
        cases here.symm.trans found
        simp [Track.Waits, free] at waits
      rw [track_queued_self _ _ _ _ rfl, track_withDeferred_self, track_set_self]
      refine held.begin here rfl none_ (.inr rfl) rfl rfl ?_ ?_ rfl fun ended => ended
      · simp [Track.reports_deferredFin]
      · simp [Track.reports_deferredFin]
  · rw [still (finish_moves taken k) fun event occurs => own occurs.1]
    exact held

theorem room_callReturn {s s' : Session} {left : Set Nat} {j k : Nat} {wake : Wake}
    {result : Option Err} (taken : s.callReturn j wake = some (s', result))
    (held : (s.track k).Room (k ∈ left)) :
    (s'.track k).Room (k ∈ left ∪ s.leaves (.callReturn j wake)) := by
  by_cases own : j = k
  · subst own
    rcases callReturn_cases taken with ⟨st, here, ⟨-, waiting, rest, reported, rfl⟩ |
      ⟨-, waiting, rest, reported, rfl⟩ | ⟨early, waiting, -, -, rfl⟩⟩
    · rw [track_set_self]
      exact held.taken here reported
    · rw [track_set_self]
      exact (held.finTaken here waiting reported).mono .inl
    · rw [track_set_self]
      refine held.gone here .inl ?_
      exact fun waits => .inr ⟨rfl, early, st, here, waits⟩
  · have others : k ∈ left ∪ s.leaves (.callReturn j wake) ↔ k ∈ left := by
      simp [leaves, Ne.symm own]
    rw [still (callReturn_moves taken k) fun event occurs => own occurs.1, others]
    exact held

theorem room_step {s s' : Session} {left : Set Nat} {action : Action} {k : Nat}
    (sound : s.Sound) (inv : (s.track k).Inv) (taken : s.step action = some s')
    (fresh : Fresh (s, left) action) (held : (s.track k).Room (k ∈ left)) :
    (s'.track k).Room (k ∈ left ∪ s.leaves action) := by
  have aside (quiet : ∀ event, s.Occurs action k event → event.Aside)
      (stays : s.leaves action = ∅) : (s'.track k).Room (k ∈ left ∪ s.leaves action) := by
    rw [stays, Set.union_empty]
    have both := ((step_moves sound taken k).mono quiet).invariant
      (P := fun t => t.Inv ∧ t.Room (k ∈ left))
      (fun _ _ _ quiet move held => ⟨Track.inv_move move held.1,
        Track.room_move move quiet held.1.placed held.2⟩) ⟨inv, held⟩
    exact both.2
  cases action with
  | respond j code =>
      obtain ⟨⟨_, result⟩, made, rfl⟩ := Option.map_eq_some_iff.mp taken
      have none_ : s.leaves (.respond j code) = ∅ := rfl
      rw [none_, Set.union_empty]
      exact room_respond made fresh held
  | finish j =>
      obtain ⟨⟨_, result⟩, made, rfl⟩ := Option.map_eq_some_iff.mp taken
      have none_ : s.leaves (.finish j) = ∅ := rfl
      rw [none_, Set.union_empty]
      exact room_finish made fresh held
  | callReturn j wake =>
      obtain ⟨⟨_, result⟩, made, rfl⟩ := Option.map_eq_some_iff.mp taken
      exact room_callReturn made held
  | «open» => exact aside (by rintro _ (rfl | rfl | ⟨rfl, -⟩) <;> simp [Event.Aside]) rfl
  | read | write | writeReturn => exact aside (by rintro _ ⟨-, rfl⟩; simp [Event.Aside]) rfl
  | closeWrite | close =>
      exact aside (by rintro _ ⟨-, rfl | ⟨rfl, -⟩⟩ <;> simp [Event.Aside]) rfl
  | _ => exact aside (by rintro _ ⟨⟩; simp [Event.Aside]) rfl

theorem watched_room {w : Session × Set Nat} (reached : watched.ReachableBy Fresh w)
    (k : Nat) : (w.1.track k).Room (k ∈ w.2) := by
  revert k
  refine reached.invariant (P := fun w => ∀ k, (w.1.track k).Room (k ∈ w.2)) ?_ ?_
  · rintro ⟨s, left⟩ ⟨⟨server, profile, draw, preamble, -, same⟩, -⟩ k
    cases same
    constructor <;> intros <;> first | rfl | exact Nat.zero_le 1
  · rintro ⟨s, left⟩ action next before held fresh taken k
    obtain ⟨s', moved, rfl⟩ := Option.map_eq_some_iff.mp taken
    have reached := watched_reachable before
    exact room_step (any_sound reached) (any_inv reached k) moved fresh (held k)

/-- A request and its channel: one result when it has finished, before that none. -/
structure Served (finishing : Bool) (st : Stream) : Prop where
  pending : st.request.isSome = true ↔ st.call = .write
  unfinished : ∀ r, st.request = some r → r.finished = false → st.writeDone = []
  finished : ∀ r, st.request = some r → r.finished = true → ∃ e, st.writeDone = [(r.off, e)]
  idle : st.request = none → st.writeDone = []
  current : finishing = true → st.err = none →
    ∃ r, st.request = some r ∧ r.finished = false ∧ r.off = r.p.length

/-- Results find room, and a call that begins finds none of an earlier call. -/
structure Completes (s : Session) (left : Set Nat) : Prop where
  room : ∀ k, (s.track k).owed ≤ 1 ∧ (s.track k).finOwed ≤ 1
  own : ∀ k, s.responds k ∨ s.finishes k → k ∉ left → (s.track k).owed = 0
  finOwn : ∀ k, s.endsWriting k → (s.track k).finOwed = 0
  writes : ∀ k st, s.objs k = some st → Served (s.track k).finishing st

/--
In every run in which no `Respond` or `Finish` queues a frame after one of the
same stream has gone without its result, every result finds room in its
channel and belongs to the call that takes it.
-/
theorem completions_fit {w : Session × Set Nat} (reached : watched.ReachableBy Fresh w) :
    Completes w.1 w.2 := by
  have room := watched_room reached
  have inv := any_inv (watched_reachable reached)
  constructor
  · exact fun k => ⟨(room k).once, (room k).fin⟩
  · rintro k begins stays
    refine (room k).settled stays fun st found waits => ?_
    have free : st.call = .idle := by
      rcases begins with ⟨⟨-, -, st', here, free, -⟩, -⟩ | ⟨-, -, st', here, free, -⟩
      · cases here.symm.trans found
        exact free
      · cases here.symm.trans found
        exact free
    simp [Track.Waits, free] at waits
  · rintro k ⟨-, st, here, -, -, -, unended, -⟩
    refine (room k).unended fun _ found => ?_
    cases here.symm.trans found
    exact unended
  · intro k st here
    have flags := (inv k).flags st here
    have honest := (inv k).writes.2 st here
    exact ⟨flags.pending, flags.unreported, flags.reported, flags.unasked, honest.whole⟩

/-- Steps that end no call leave no stream behind. -/
theorem watched_run {s s' : Session} {left : Set Nat} {actions : List Action}
    (quiet : ∀ action ∈ actions, ∀ s : Session, s.leaves action = ∅)
    (ran : anyMachine.run s actions = some s') :
    watched.run (s, left) actions = some (s', left) := by
  induction actions generalizing s with
  | nil =>
      cases ran
      rfl
  | cons action rest ih =>
      obtain ⟨next, taken, remaining⟩ := Option.bind_eq_some_iff.mp ran
      have step : watched.step (s, left) action = some (next, left) := by
        refine Option.map_eq_some_iff.mpr ⟨next, taken, ?_⟩
        rw [quiet action (List.mem_cons_self ..), Set.union_empty]
      refine Option.bind_eq_some_iff.mpr ⟨(next, left), step, ?_⟩
      exact ih (fun later member => quiet later (List.mem_cons_of_mem _ member)) remaining

/-- A server without a prefix. -/
def waiting : Session := made true .default (fun _ => 0) []

theorem waiting_start : anyMachine.start waiting :=
  ⟨true, .default, fun _ => 0, [], Profile.validate_default, rfl⟩

/-- A server that has read one OPEN, and rejects it. -/
theorem completions_fit_rejected : ∃ s s' : Session,
    anyMachine.run waiting (readsIn ⟨.open, 1, [7]⟩) = some s ∧
      s.respond 1 5 = some (s', none) ∧ Completes s' ∅ := by
  have seen : (anyMachine.run waiting (readsIn ⟨.open, 1, [7]⟩)).any (fun s =>
      (s.respond 1 5).any fun result => result.2.isNone) = true := by
    decide +kernel
  simp only [Option.any_eq_true] at seen
  obtain ⟨s, ran, ⟨s', result⟩, taken, waits⟩ := seen
  obtain rfl : result = none := Option.isNone_iff_eq_none.mp waits
  have plain : ∀ action ∈ readsIn ⟨.open, 1, [7]⟩,
      (∀ s : Session, s.leaves action = ∅) ∧ ∀ w, Fresh w action := by
    intro action member
    simp only [readsIn, List.cons_append, List.nil_append, List.mem_cons,
      List.not_mem_nil, or_false, reduceCtorEq, if_false] at member
    rcases member with rfl | rfl | rfl | rfl <;> exact ⟨fun _ => rfl, fun _ => trivial⟩
  have begun : watched.ReachableBy Fresh (s, ∅) :=
    Machine.run_reachableBy (fun action member => (plain action member).2)
      (.start ⟨waiting_start, rfl⟩)
      (watched_run (fun action member => (plain action member).1) ran)
  have answers : watched.step (s, ∅) (.respond 1 5) = some (s', ∅) := by
    refine Option.map_eq_some_iff.mpr ⟨s', ?_, by simp [leaves]⟩
    simp [step, taken]
  have fresh : Fresh (s, ∅) (.respond 1 5) := fun _ => Set.notMem_empty 1
  have answered : watched.ReachableBy Fresh (s', ∅) := .step begun fresh answers
  exact ⟨s, s', ran, taken, completions_fit answered⟩

/-- The server rejects stream 1 twice, and both calls are cut short. -/
def overbooking : List Action :=
  readsIn ⟨.open, 1, [7]⟩ ++ [.accept, .respond 1 5, .cancel, .callReturn 1 .stopped,
    .respond 1 5, .callReturn 1 .stopped, .wakeUp, .batch ⟨0, 0, 0, 0, 0, 0, fun _ => 0⟩,
    .send 18]

/-- The server rejects stream 1, the call is cut short, and it rejects it again. -/
def mistaking : List Action :=
  readsIn ⟨.open, 1, [7]⟩ ++ [.accept, .respond 1 5, .cancel, .callReturn 1 .stopped,
    .wakeUp, .batch ⟨0, 0, 0, 0, 0, 0, fun _ => 0⟩, .send 9, .writeEnd none, .respond 1 5]

/--
The writer has two results for the one slot of a channel that nobody reads;
and a call takes the result of an earlier one while its own frame is queued.
-/
theorem completions_collide :
    (∃ s s' st st', anyMachine.run waiting overbooking = some s ∧
      s.objs 1 = some st ∧ st.call = .idle ∧ st.controlDone = [] ∧
      s.step (.writeEnd none) = some s' ∧ s'.objs 1 = some st' ∧
      st'.controlDone = [none, none]) ∧
    ∃ s s', anyMachine.run waiting mistaking = some s ∧
      s.controls = [⟨⟨.failed, 1, [5]⟩, .controlDone⟩] ∧
      s.callReturn 1 .token = some (s', none) := by
  have first : (anyMachine.run waiting overbooking).any (fun s =>
      (s.objs 1).any (fun st => st.call == .idle && st.controlDone == []) &&
        (s.step (.writeEnd none)).any fun s' =>
          (s'.objs 1).any fun st => st.controlDone == [none, none]) = true := by
    decide +kernel
  have second : (anyMachine.run waiting mistaking).any (fun s =>
      s.controls == [⟨⟨.failed, 1, [5]⟩, .controlDone⟩] &&
        (s.callReturn 1 .token).any fun result => result.2 == none) = true := by
    decide +kernel
  simp only [Option.any_eq_true, Bool.and_eq_true, beq_iff_eq] at first second
  obtain ⟨s, ran, ⟨st, here, free, empty⟩, s', written, st', after, both⟩ := first
  obtain ⟨t, ranToo, queued, ⟨t', result⟩, returned, success⟩ := second
  refine ⟨⟨s, s', st, st', ran, here, free, empty, written, after, both⟩,
    t, t', ranToo, queued, ?_⟩
  rw [returned]
  exact congrArg (fun result => some (t', result)) success

end Session

end Veil.Mux

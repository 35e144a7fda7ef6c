import Veil.Rust.Wakers

/-!
# No wake-up is lost

The writer parks only after a batch that sent nothing, and a batch sends nothing
only when there is nothing to send: the first control fills the batch with at
least a header, and so does the first stream that has DATA with credit or a FIN
to send, whatever shape the batch has.

Whatever gives the writer work afterwards notifies it.  A call that queues a
control and is refused notifies nobody, but the queue it finds full is not the
queue of a writer that parks.
-/

namespace Veil.Rust

open Veil.Lib
open Veil.Mux (Byte Kind Header Frame Range blockSize headerSize)

namespace Slot

/-- `batch` has something to send for the stream. -/
def Eager (st : Slot) : Prop :=
  st.live = true ∧ st.opened = true ∧
    (0 < st.sendCredit ∧ st.output ≠ [] ∨
      st.localFin = true ∧ st.finSent = false ∧ st.output = [])

theorem fail_lazy (st : Slot) (e : ErrorKind) : ¬ (st.fail e).Eager := by
  intro eager
  cases (st.fail_dead e).symm.trans eager.1

end Slot

namespace Session

/-! ## An idle session -/

theorem idle_iff {s : Session} (keyed : s.Keyed) :
    s.Idle ↔ s.controls = [] ∧ ∀ k st, s.slots k = some st → ¬ st.Eager := by
  have listed : ∀ {k st}, s.slots k = some st → k ∈ s.ids :=
    fun here => (keyed.keys _).mpr (by simp [here])
  constructor
  · rintro ⟨controls, ready, fin⟩
    refine ⟨controls, ?_⟩
    rintro k st here ⟨live, opened, ⟨credit, some_⟩ | ⟨ended, first, empty⟩⟩
    · have none_ := List.countP_eq_zero.mp ready k (listed here)
      simp [here, live, opened, credit, some_] at none_
    · have none_ := List.any_eq_false.mp fin k (listed here)
      simp [here, live, opened, ended, first, empty] at none_
  · rintro ⟨controls, lazy⟩
    refine ⟨controls, List.countP_eq_zero.mpr fun k _ => ?_, List.any_eq_false.mpr fun k _ => ?_⟩
    · cases here : s.slots k with
      | none => simp
      | some st =>
          intro sends
          simp only [Option.any_some, Bool.and_eq_true, decide_eq_true_eq, Bool.not_eq_true',
            List.isEmpty_eq_false_iff] at sends
          exact lazy k st here ⟨sends.1.1.1, sends.1.1.2, .inl ⟨sends.1.2, sends.2⟩⟩
    · cases here : s.slots k with
      | none => simp
      | some st =>
          intro sends
          simp only [Option.any_some, Bool.and_eq_true, Bool.not_eq_true',
            List.isEmpty_iff] at sends
          exact lazy k st here
            ⟨sends.1.1.1.1, sends.1.1.1.2, .inr ⟨sends.1.1.2, sends.1.2, sends.2⟩⟩

/-! ## A batch that sends nothing -/

theorem push_out (s : Session) (f : Frame) (touch : List Touched) : (s.push f touch).out ≠ [] := by
  intro empty
  have length := congrArg List.length empty
  simp only [push, List.length_append, List.length_nil, Frame.bytes_length, headerSize] at length
  omega

/-- A piece of a batch only adds to the bytes; one that adds none changes no slot. -/
theorem emits_out {s s' : Session} (emits : Emits s s') (empty : s'.out = []) :
    s.out = [] ∧ s'.slots = s.slots := by
  cases emits with
  | shaped | served => exact ⟨empty, rfl⟩
  | control | data | fin => exact (push_out _ _ _ empty).elim

theorem emission_out {s s' : Session} (emission : Emission s s') (empty : s'.out = []) :
    s.out = [] ∧ s'.slots = s.slots := by
  induction emission with
  | refl => exact ⟨empty, rfl⟩
  | tail _ last held =>
      have step := emits_out last empty
      have before := held step.1
      exact ⟨before.1, step.2.trans before.2⟩

theorem sendData_idle (k limit lead credit share : Nat) {s : Session} {st : Slot}
    (here : s.slots k = some st) (empty : st.output = []) :
    (sendData k limit lead credit share s).1 = s := by
  cases credit <;> simp [sendData, here, empty]

theorem sendFin_out {s : Session} {k : Nat} (some_ : s.out ≠ []) : (s.sendFin k).1.out ≠ [] := by
  unfold sendFin
  split
  · exact some_
  · split_ifs
    · exact push_out _ _ _
    · exact some_

/-- The turn of a stream that has something to send adds to a batch that is empty. -/
theorem turn_sends {limit lead share k : Nat} {s : Session} {st : Slot}
    (room : lead + headerSize < limit) (positive : 0 < share) (drained : s.controls = [])
    (here : s.slots k = some st) (full : ∀ p ∈ st.output, p ≠ []) (eager : st.Eager)
    (empty : s.out = []) : (turn limit lead share k s).1.out ≠ [] := by
  rcases eager with ⟨live, opened, work⟩
  have turns : (turn limit lead share k s).1.out =
      ((sendData k limit lead st.sendCredit share s).1.sendFin k).1.out := by
    simp [turn, here, live, opened, served]
  rw [turns]
  rcases work with ⟨credit, some_⟩ | ⟨ended, first, nothing⟩
  · apply sendFin_out
    rcases Nat.exists_eq_succ_of_ne_zero (Nat.ne_of_gt credit) with ⟨rest, funds⟩
    rcases List.exists_cons_of_ne_nil some_ with ⟨p, later, pending⟩
    have piece : 0 < p.length := List.length_pos_of_ne_nil (full p (by simp [pending]))
    have size : min (min (min p.length blockSize) share)
        (limit - (lead + s.out.length + headerSize)) ≠ 0 := by
      have block : 0 < blockSize := by decide
      rw [empty, List.length_nil]
      omega
    simp only [funds, sendData, here, pending, if_neg size]
    generalize min (min (min p.length blockSize) share)
      (limit - (lead + s.out.length + headerSize)) = n
    have left : (st.sentData n p later).sendCredit = rest := by simp [Slot.sentData, funds]
    have after : (s.emitData k n st p later).slots k = some (st.sentData n p later) := by
      simp [emitData, push, set, Slot.sentData]
    have emits := sendData_emits k limit lead rest (share - n) (s := s.emitData k n st p later)
      drained after live opened left
    intro gone
    exact push_out _ _ _ (emission_out emits.1 gone).1
  · rw [sendData_idle k limit lead _ _ here nothing]
    simp only [sendFin, here, ended, first, nothing]
    exact push_out _ _ _

/-- A round over a stream that has something to send adds to a batch that is empty. -/
theorem round_sends {limit lead : Nat} {share : Nat → Nat} {k : Nat} {st : Slot}
    (room : lead + headerSize < limit) (positive : ∀ n, 0 < share n)
    (full : ∀ p ∈ st.output, p ≠ []) (eager : st.Eager) {ids : List Nat} (listed : k ∈ ids)
    (progress : Bool) {s : Session} (drained : s.controls = []) (here : s.slots k = some st)
    (empty : s.out = []) : (round limit lead share ids progress s).1.out ≠ [] := by
  induction ids generalizing progress s with
  | nil => cases listed
  | cons j rest induction =>
      have below : ¬ limit ≤ lead + s.out.length + headerSize := by
        rw [empty, List.length_nil]
        omega
      simp only [round, if_neg below]
      have emits := turn_emits limit lead (share (lead + s.out.length)) j drained
      by_cases nothing : (turn limit lead (share (lead + s.out.length)) j s).1.out = []
      · have other : k ≠ j := by
          rintro rfl
          exact turn_sends room (positive _) drained here full eager empty nothing
        have same := (emission_out emits.1 nothing).2
        apply induction (List.mem_of_ne_of_mem other listed) _ emits.2 _ nothing
        rw [same]
        exact here
      · intro gone
        exact nothing (emission_out
          (round_emits limit lead share rest _ (.inl emits.2)).1 gone).1

theorem rounds_sends {limit lead : Nat} {share : Nat → Nat} {k : Nat} {st : Slot}
    (room : lead + headerSize < limit) (positive : ∀ n, 0 < share n)
    (full : ∀ p ∈ st.output, p ≠ []) (eager : st.Eager) {ids : List Nat} (listed : k ∈ ids)
    (fuel : Nat) {s : Session} (drained : s.controls = []) (here : s.slots k = some st)
    (empty : s.out = []) : (rounds limit lead share ids (fuel + 1) s).out ≠ [] := by
  have sends := round_sends room positive full eager listed false drained here empty
  have emits := round_emits limit lead share ids false (.inl drained)
  rw [rounds]
  split
  · next after ran =>
    rw [ran] at sends emits
    intro gone
    exact sends (emission_out (rounds_emits limit lead share ids fuel emits.2) gone).1
  · next after ran =>
    rw [ran] at sends
    exact sends

theorem limit_low {s : Session} (valid : s.traffic.Valid) (d : Draws) : 128 ≤ s.limit d := by
  unfold limit
  split_ifs
  · exact valid.startup_low.trans (Range.choose_mem valid.startup_ordered _).1
  · decide

theorem share_positive {s : Session} (valid : s.traffic.Valid) (d : Draws) (size : Nat) :
    0 < s.share d size := by
  unfold share
  split_ifs
  · have low := valid.quantum_low
    have least := (Range.choose_mem valid.quantum_ordered (d.share size)).1
    omega
  · decide

/-- A batch is empty only when there is nothing to send. -/
theorem assembled_out {s : Session} (sound : s.Sound)
    (full : ∀ k st, s.slots k = some st → ∀ p ∈ st.output, p ≠ []) (empty : s.out = [])
    (busy : ¬ s.Idle) (d : Draws) : (s.assembled d).out ≠ [] := by
  have low := limit_low sound.traffic d
  cases queue : s.controls with
  | cons c rest =>
      have taken := takeControls_emits (s.limit d) s.lead (c :: rest) (s := s.shaped d) queue
      have first : (s.withControls d).out ≠ [] := by
        simp only [withControls, queue, takeControls]
        split_ifs
        · exact push_out _ _ _
        · intro gone
          exact push_out _ _ _ (emission_out (takeControls_emits (s.limit d) s.lead rest
            (s := ((s.shaped d).leave rest).push c (controlTouch c)) rfl).1 gone).1
      intro gone
      have drained : (s.withControls d).Drained (s.limit d) s.lead := by
        rw [withControls, queue]
        exact taken.2
      exact first (emission_out (rounds_emits (s.limit d) s.lead (s.share d)
        (s.withControls d).sendingOrder (s.limit d) drained) gone).1
  | nil =>
      have lead : s.lead = 0 := by simp [lead, queue]
      have same : s.withControls d = (s.shaped d).leave [] := by
        simp [withControls, queue, takeControls]
      have eager : ∃ k st, s.slots k = some st ∧ st.Eager := by
        by_contra lazy
        refine busy ((idle_iff sound.keyed).mpr ⟨queue, fun k st here eager => ?_⟩)
        exact lazy ⟨k, st, here, eager⟩
      rcases eager with ⟨k, st, here, eager⟩
      have listed : k ∈ (s.withControls d).sendingOrder := by
        have known : k ∈ s.ids := (sound.keyed.keys k).mpr (by simp [here])
        rw [same]
        simp only [sendingOrder, List.mem_append, List.mem_filter, decide_eq_true_eq]
        rcases lt_or_ge s.lastSent k with above | below
        · exact .inl ⟨known, above⟩
        · exact .inr ⟨known, below⟩
      have drained : (s.withControls d).controls = [] := by
        rw [same]
        rfl
      have room : s.lead + headerSize < s.limit d := by
        rw [lead, headerSize]
        omega
      have before : (s.withControls d).slots k = some st ∧ (s.withControls d).out = [] := by
        rw [same]
        exact ⟨here, empty⟩
      rcases Nat.exists_eq_succ_of_ne_zero (show s.limit d ≠ 0 by omega) with ⟨fuel, enough⟩
      have sends := rounds_sends room (share_positive sound.traffic d) (full k st here) eager
        listed fuel drained before.1 before.2
      rw [assembled, enough]
      rw [enough] at sends
      exact sends

/-- The writer leaves for its `Notified` only when there is nothing to send. -/
theorem batch_idle {s s' : Session} {d : Draws} (wired : s.Wired) (sound : s.Sound)
    (full : ∀ k st, s.slots k = some st → ∀ p ∈ st.output, p ≠ [])
    (taken : s.batch d = some s') (nothing : s'.writing = false) (running : s'.ended = none) :
    s'.Idle := by
  unfold batch at taken
  split at taken
  · cases taken
  next still =>
  split at taken
  · cases taken
    cases running
  split at taken
  · next idle =>
    cases taken
    exact idle
  next busy =>
  cases taken
  have empty := (wired.idle (by simpa using still)).1
  have sends := assembled_out sound full empty busy d
  simp only [handOver, decide_eq_false_iff_not, not_lt, Nat.le_zero, Nat.add_eq_zero_iff,
    List.length_eq_zero_iff] at nothing
  exact (sends nothing.2).elim

/-! ## A step that notifies nobody -/

/-- The steps that can make a stream ready to send. -/
def Action.arouses : Action → Bool
  | .accept _ | .pollWrite _ _ | .pollShutdown _ | .dispatch _ | .batch _ => true
  | _ => false

/-- Any other step makes no stream ready to send. -/
theorem effect_eager {s : Session} {k : Nat} {action : Action} {o o' : Option Slot}
    (effect : s.Effect k action o o') (calm : action.arouses = false) {st' : Slot}
    (after : o' = some st') (eager : st'.Eager) : ∃ st, o = some st ∧ st.Eager := by
  cases effect with
  | same => exact ⟨st', after, eager⟩
  | reserve =>
      cases after
      cases eager.2.1
  | arrive | accept | write | shutdown | deliver | batch => cases calm
  | reject | fail | expire =>
      cases after
      exact (Slot.fail_lazy _ _ eager).elim
  | drop => cases after
  | read | check | publish =>
      cases after
      exact ⟨_, rfl, eager⟩
  | @mark st =>
      cases after
      have same := st.marked_same (s.touched.filter (·.id = k))
      refine ⟨st, rfl, same.live eager.1, same.opened ▸ eager.2.1, ?_⟩
      have work := eager.2.2
      rw [same.sendCredit, same.output, same.localFin, same.finSent] at work
      exact work

/-- An empty queue refuses nothing. -/
theorem control_empty {s : Session} (empty : s.controls = []) (kind : Kind) (id : Nat)
    (p : List Byte) : s.control kind id p = (s.queued ⟨kind, id, p⟩, none) := by
  simp [control, empty, coalesce, maxControls, queued]

section Quiet

variable {s s' : Session} {action : Action} (empty : s.controls = [])
include empty

theorem reserve_quiet_idle {target : Target} {draw : Nat}
    (quiet : s.notifies (.reserve target draw) = false) : (s.reserve target draw).1 = s := by
  change (s.reserve target draw).2.isNone = false at quiet
  simp only [reserve, control_empty empty] at quiet ⊢
  split_ifs at quiet ⊢
  · rfl
  · rfl
  · cases quiet

theorem accept_quiet_idle {k : Nat} {e : Option ErrorKind} (taken : s.accept k = some (s', e))
    (quiet : s.notifies (.accept k) = false) : s' = s := by
  change (s.accept k).any (·.2.isNone) = false at quiet
  simp only [taken, Option.any_some] at quiet
  unfold accept at taken
  split at taken
  · cases taken
  next st here =>
  split at taken
  · cases taken
    rfl
  split_ifs at taken
  · cases taken
    rfl
  · rw [control_empty (s := s.set k { st with opened := true }) empty] at taken
    cases taken
    cases quiet

theorem reject_quiet_idle {k : Nat} {code : Byte} {e : Option ErrorKind}
    (taken : s.reject k code = some (s', e)) (quiet : s.notifies (.reject k code) = false) :
    s' = s := by
  change (s.reject k code).any (·.2.isNone) = false at quiet
  simp only [taken, Option.any_some] at quiet
  unfold reject at taken
  split at taken
  · cases taken
  next st here =>
  split_ifs at taken
  · cases taken
    rfl
  · rw [control_empty (s := s.set k (st.fail .connectionRefused)) empty] at taken
    cases taken
    cases quiet

theorem finish_quiet_idle {k : Nat} {e : Option ErrorKind} (taken : s.finish k = some (s', e))
    (quiet : s.notifies (.finish k) = false) : s' = s := by
  change (s.server && (s.finish k).any (·.2.isNone)) = false at quiet
  simp only [taken, Option.any_some] at quiet
  unfold finish at taken
  split at taken
  · cases taken
  next st here =>
  split at taken
  · next server =>
    split at taken
    · cases taken
      rfl
    split at taken
    · cases taken
      rfl
    · rw [control_empty empty] at taken
      cases taken
      simp [server] at quiet
  · cases taken
    rfl

/-- `Stream::drop` notifies a writer whose queue is empty. -/
theorem drop_notifies {k : Nat} (known : (s.slots k).isSome = true) :
    s.dropNotifies k = true := by
  rcases Option.isSome_iff_exists.mp known with ⟨st, here⟩
  simp only [dropNotifies, drop, here, control_empty (s := s.remove k) empty]
  split_ifs <;> simp [queued, remove]

theorem pollRead_quiet_idle {k n : Nat} {poll : Poll}
    (taken : s.pollRead k n = some (s', poll)) (quiet : s.notifies (.pollRead k n) = false) :
    s'.controls = [] := by
  rcases pollRead_cases taken with ⟨st, -, rfl, -⟩ | ⟨st, here, some_, unfailed,
    ⟨-, rfl, -⟩ | ⟨due, queued, -⟩ | ⟨e, due, queued, -⟩⟩
  · exact empty
  · exact empty
  · change (n != 0 && (s.slots k).any fun st =>
      st.check.isNone && decide (0 < st.granting n) &&
        ((s.set k (st.polled n)).control .credit k (bigEndian 2 (st.granting n))).2.isNone) =
      false at quiet
    simp [here, some_, unfailed, due, queued] at quiet
  · rw [control_empty (s := s.set k (st.polled n)) empty] at queued
    cases queued

omit empty in
theorem pollWrite_quiet_idle {k : Nat} {buf : List Byte}
    {result : Except ErrorKind (Option Nat)} (taken : s.pollWrite k buf = some (s', result))
    (quiet : s.notifies (.pollWrite k buf) = false) : s' = s := by
  rcases pollWrite_cases taken with ⟨st, here, ⟨same, -⟩ | ⟨-, -, -, some_, -, rfl⟩⟩
  · exact same
  · delta notifies at quiet
    simp [taken, some_] at quiet

omit empty in
theorem pollShutdown_quiet_idle {k : Nat} {result : Except ErrorKind Bool}
    (taken : s.pollShutdown k = some (s', result))
    (quiet : s.notifies (.pollShutdown k) = false) : s' = s := by
  delta notifies at quiet
  simp only [taken] at quiet
  unfold pollShutdown at taken
  split at taken
  · cases taken
  split at taken
  · cases taken
    rfl
  · cases taken
    cases quiet

theorem fail_controls (e : ErrorKind) : (s.fail e).controls = [] := by
  unfold fail
  split
  · exact empty
  · rfl

end Quiet

theorem recv_controls {s s' : Session} {bs : List Byte} (taken : s.recv bs = some s') :
    s'.controls = s.controls := by
  unfold recv at taken
  split at taken
  · cases taken
  split at taken
  · split at taken <;> cases taken
    rfl
  · split at taken <;> cases taken
    rfl
  · next hd got at_ =>
    split at taken <;> cases taken
    unfold recvData
    rcases publish_cases (s.took bs) hd.id bs ((got ++ bs).length == hd.length) with
      ⟨-, outcome⟩ | ⟨st, here, live, ⟨-, outcome⟩ | ⟨c, last, outcome⟩⟩ <;>
      rw [outcome] <;> simp only
    · split_ifs <;> rfl
    · rfl
    · split_ifs <;> rfl

theorem check_controls {s s' : Session} (taken : s.check = some s') :
    s'.controls = s.controls := by
  unfold check at taken
  split at taken
  · split at taken
    · cases taken
    split at taken
    · cases taken
      rfl
    · next checked =>
      cases taken
      rcases Option.bind_eq_some_iff.mp checked with ⟨hd, -, passed⟩
      unfold checkHeader at passed
      split_ifs at passed
      · split at passed
        · split_ifs at passed
          cases passed
          rfl
        · cases passed
          rfl
      · cases passed
        rfl
  · cases taken

/-- A step that notifies nobody leaves an idle queue empty, and makes no stream ready. -/
theorem quiet_step {s s' : Session} {action : Action} (empty : s.controls = [])
    (taken : s.step action = some s') (quiet : s.notifies action = false)
    (running : s'.ended = none) (calm : ∀ d, action ≠ .batch d) :
    s'.controls = [] ∧ (s' = s ∨ action.arouses = false) := by
  have of_same : s' = s → s'.controls = [] ∧ (s' = s ∨ action.arouses = false) := by
    rintro rfl
    exact ⟨empty, .inl rfl⟩
  cases action with
  | reserve target draw =>
      cases taken
      exact of_same (reserve_quiet_idle empty quiet)
  | accept k =>
      rcases Option.map_eq_some_iff.mp (call_some taken) with ⟨⟨_, e⟩, accepted, rfl⟩
      exact of_same (accept_quiet_idle empty accepted quiet)
  | reject k code =>
      rcases Option.map_eq_some_iff.mp (call_some taken) with ⟨⟨_, e⟩, rejected, rfl⟩
      exact of_same (reject_quiet_idle empty rejected quiet)
  | finish k =>
      rcases Option.map_eq_some_iff.mp (call_some taken) with ⟨⟨_, e⟩, finished, rfl⟩
      exact of_same (finish_quiet_idle empty finished quiet)
  | drop k => cases (drop_notifies empty (drop_slots (call_some taken)).1).symm.trans quiet
  | pollRead k n =>
      rcases Option.map_eq_some_iff.mp (call_some taken) with ⟨⟨_, poll⟩, polled, rfl⟩
      exact ⟨pollRead_quiet_idle empty polled quiet, .inr rfl⟩
  | pollWrite k buf =>
      rcases Option.map_eq_some_iff.mp (call_some taken) with ⟨⟨_, result⟩, polled, rfl⟩
      exact of_same (pollWrite_quiet_idle polled quiet)
  | pollShutdown k =>
      rcases Option.map_eq_some_iff.mp (call_some taken) with ⟨⟨_, result⟩, polled, rfl⟩
      exact of_same (pollShutdown_quiet_idle polled quiet)
  | close =>
      cases taken
      exact ⟨fail_controls empty _, .inr rfl⟩
  | incoming =>
      simp only [step] at taken
      split at taken <;> cases taken
      exact ⟨empty, .inr rfl⟩
  | hangUp =>
      cases taken
      exact ⟨empty, .inr rfl⟩
  | dropIncoming =>
      simp only [step] at taken
      split at taken
      · next j rest hungUp queue =>
        have known : (s.slots j).isSome = true :=
          (@drop_slots { s with incoming := rest } s' j taken).1
        simp [notifies, queue, drop_notifies empty known] at quiet
      · cases taken
  | fail i =>
      simp only [step] at taken
      split at taken <;> cases taken
      exact ⟨fail_controls (s := { s with failing := s.failing.eraseIdx i }) empty _, .inr rfl⟩
  | failTask =>
      rcases Option.map_eq_some_iff.mp taken with ⟨e, -, rfl⟩
      exact ⟨fail_controls empty e, .inr rfl⟩
  | recv bs => exact ⟨(recv_controls (task_some taken).2).trans empty, .inr rfl⟩
  | recvError e =>
      have ended := (task_some taken).2
      unfold recvError at ended
      split at ended <;> cases ended
      exact ⟨empty, .inr rfl⟩
  | check => exact ⟨(check_controls (task_some taken).2).trans empty, .inr rfl⟩
  | dispatch draw => simp [notifies, (task_some taken).2, running] at quiet
  | batch d => exact (calm d rfl).elim
  | send n =>
      have sent := (task_some taken).2
      unfold send at sent
      split at sent <;> cases sent
      exact ⟨empty, .inr rfl⟩
  | written e =>
      refine ⟨?_, .inr rfl⟩
      have written := (task_some taken).2
      unfold Session.written at written
      split at written
      · split at written
        · split at written <;> cases written
          exact empty
        · split at written <;> cases written
          rw [markAll, foldl_mark]
          exact empty
      · cases written
  | watchdog expired idle => simp [notifies, (task_some taken).2, running] at quiet

/-- Work comes to an idle session only with a notification. -/
theorem quiet_idle {s s' : Session} {action : Action} (sound : s.Sound) (keyed : s'.Keyed)
    (idle : s.Idle) (taken : s.step action = some s') (quiet : s.notifies action = false)
    (running : s'.ended = none) (calm : ∀ d, action ≠ .batch d) : s'.Idle := by
  have lazy := (idle_iff sound.keyed).mp idle
  have kept := quiet_step lazy.1 taken quiet running calm
  rcases kept.2 with rfl | calm
  · exact idle
  refine (idle_iff keyed).mpr ⟨kept.1, fun k st' after eager => ?_⟩
  rcases effect_eager (step_effect sound taken k) calm after eager with ⟨st, here, before⟩
  exact lazy.2 k st here before

end Session

namespace Waiting

/-! ## What holds in every state reached -/

/-- The writer is parked, or is about to park. -/
def Asleep (x : Waiting) : Prop :=
  x.writer = .parked ∨ x.writer = .leaving ∧ x.permit = false

/-- A writer that goes to sleep has nothing to send. -/
structure Rested (x : Waiting) : Prop where
  idle : x.Asleep → x.session.Idle
  spent : x.writer = .parked → x.permit = false

theorem moving_other {x : Waiting} {action : Session.Action} {s : Session}
    (calm : ∀ d, action ≠ .batch d) (running : s.ended = none) :
    x.moving action s =
      if x.session.notifies action && x.writer == .parked then .running else x.writer := by
  unfold moving
  rw [running]
  cases action <;> first | rfl | exact (calm _ rfl).elim

/-- Nobody notified the writer if it sleeps after a step, so it slept before. -/
theorem asleep_before {x : Waiting} {action : Session.Action} {s : Session}
    (calm : ∀ d, action ≠ .batch d) (running : s.ended = none)
    (asleep : (x.after action s).Asleep) :
    x.Asleep ∧ x.session.notifies action = false := by
  have writer : (x.after action s).writer = x.moving action s := rfl
  rw [Asleep, writer, moving_other calm running] at asleep
  rcases asleep with parked | ⟨leaving, unspent⟩
  · split_ifs at parked with notified
    refine ⟨.inl parked, ?_⟩
    simpa [parked] using notified
  · split_ifs at leaving
    have permit : (x.permit || x.session.notifies action && x.writer != .parked) = false := unspent
    rw [leaving] at permit
    simp only [Bool.or_eq_false_iff] at permit
    exact ⟨.inr ⟨leaving, permit.1⟩, by simpa using permit.2⟩

theorem session_rested {server : Bool} {x : Waiting} {s' : Session} {action : Session.Action}
    (reached : (Session.machine server).Reachable x.session) (held : x.Rested)
    (stepped : x.session.step action = some s') (may : x.mayStep action = true) :
    (x.after action s').Rested := by
  have sound := Session.reachable_wired reached
  have after : (Session.machine server).Reachable s' := .step reached trivial stepped
  cases ended : s'.ended with
  | some e =>
      have gone : (x.after action s').writer = .gone := by simp [Waiting.after, moving, ended]
      constructor
      · rintro (parked | ⟨leaving, -⟩)
        · cases gone.symm.trans parked
        · cases gone.symm.trans leaving
      · intro parked
        cases gone.symm.trans parked
  | none =>
      by_cases batch : ∃ d, action = .batch d
      · rcases batch with ⟨d, rfl⟩
        have writer : (x.after (.batch d) s').writer =
            if s'.writing then .running else .leaving := by
          simp [Waiting.after, moving, ended]
        constructor
        · intro asleep
          cases writing : s'.writing with
          | true => simp [Asleep, writer, writing] at asleep
          | false =>
              exact Session.batch_idle sound.1 sound.2
                (fun k st here => (Session.reachable_orderly reached here).output)
                (Session.task_some stepped).2 writing ended
        · intro parked
          rw [writer] at parked
          split_ifs at parked
      · have calm : ∀ d, action ≠ .batch d := fun d same => batch ⟨d, same⟩
        constructor
        · intro asleep
          have before := asleep_before calm ended asleep
          exact Session.quiet_idle sound.2 (Session.reachable_wired after).2.keyed
            (held.idle before.1) stepped before.2 ended calm
        · intro parked
          have before := asleep_before calm ended (.inl parked)
          have writer : x.writer = .parked := by
            have same := (moving_other (x := x) calm ended).symm.trans parked
            simpa [before.2] using same
          show (x.permit || x.session.notifies action && x.writer != .parked) = false
          rw [held.spent writer, before.2]
          rfl

theorem reachable_rested {server : Bool} {x : Waiting} (reached : (machine server).Reachable x) :
    x.Rested := by
  induction reached with
  | start initial =>
      constructor
      · rintro (parked | ⟨leaving, -⟩)
        · cases initial.2.2.1.symm.trans parked
        · cases initial.2.2.1.symm.trans leaving
      · intro parked
        cases initial.2.2.1.symm.trans parked
  | @step x x' action before _ taken held =>
      cases action with
      | session action =>
          simp only [machine, step] at taken
          split_ifs at taken with may
          rcases Option.map_eq_some_iff.mp taken with ⟨s', stepped, rfl⟩
          exact session_rested (session_reached before) held stepped may
      | poll k call =>
          simp only [machine, step] at taken
          split_ifs at taken
          · cases taken
            exact ⟨held.idle, held.spent⟩
          · cases taken
            exact held
      | rest =>
          simp only [machine, step] at taken
          split_ifs at taken with leaving
          cases taken
          unfold resting
          split_ifs with permit
          · constructor
            · rintro (parked | ⟨left, -⟩)
              · cases parked
              · cases left
            · intro parked
              cases parked
          · have unspent : x.permit = false := by simpa using permit
            exact ⟨fun _ => held.idle (.inr ⟨leaving, unspent⟩), fun _ => unspent⟩

/-- The waker of a `ready` that its caller has left for `accept`. -/
def Left (x : Waiting) (k : Nat) (call : Call) : Prop :=
  call = .ready ∧ x.session.server = true ∧
    ∃ st, x.session.slots k = some st ∧ st.check = none ∧ st.opened = true

/--
In every state reached, the call whose waker is stored would still return
pending, unless it is a `ready` that was left for `accept`; and when the writer is
parked, no permit is stored, the control queue is empty, and no stream has DATA
with credit or a FIN to send.
-/
theorem no_wakeup_lost {server : Bool} {x : Waiting} (reached : (machine server).Reachable x) :
    (∀ k p call, x.stored k p = some call →
      call.place = p ∧ (x.session.pending k call = true ∨ x.Left k call)) ∧
    (x.writer = .parked → x.permit = false ∧
      x.session.controls = [] ∧ x.session.ready = 0 ∧ x.session.needsFin = false) := by
  have rested := reachable_rested reached
  refine ⟨fun k p call found => ?_, fun parked => ⟨rested.spent parked, rested.idle (.inl parked)⟩⟩
  rcases reachable_stored reached k p call found with ⟨place, st, here, blocks⟩
  refine ⟨place, (Session.pending_of_blocks here blocks).imp id ?_⟩
  rintro ⟨ready, server, opened, unfailed⟩
  exact ⟨ready, server, st, here, unfailed, opened⟩

/-- A new server whose writer has not looked yet. -/
def newServer : Waiting := ⟨Session.newServer, fun _ _ => none, .running, false⟩

theorem start_newServer : (machine true).start newServer :=
  ⟨Session.start_newServer, fun _ _ => rfl, rfl, rfl⟩

/-- The peer opens stream 1, and the application takes it. -/
def arriving : List Action :=
  (Session.readsIn ⟨.open, 1, Target.loopback.payload⟩ ++ [Session.Action.incoming]).map .session

/-- The stream is watched with `cancelled`; the writer finds nothing to send, and parks. -/
def watching : List Action :=
  arriving ++ [.poll 1 .cancelled, .session (.batch ⟨0, 0, fun _ => 0⟩), .rest,
    .session (.batch ⟨0, 0, fun _ => 0⟩), .rest]

theorem no_wakeup_lost_watching : ∃ x, (machine true).run newServer watching = some x ∧
    x.stored 1 .done = some .cancelled ∧
    (x.session.pending 1 .cancelled = true ∨ x.Left 1 .cancelled) ∧
    x.writer = .parked ∧ x.session.controls = [] ∧ x.session.ready = 0 := by
  have both : ((machine true).run newServer watching).map
      (fun x => (x.stored 1 .done, x.writer)) = some (some .cancelled, .parked) := by
    decide +kernel
  rcases Option.map_eq_some_iff.mp both with ⟨x, ran, same⟩
  simp only [Prod.mk.injEq] at same
  have kept := no_wakeup_lost (Machine.run_reachable (.start start_newServer) ran)
  have sleeps := kept.2 same.2
  exact ⟨x, ran, same.1, (kept.1 1 .done .cancelled same.1).2, same.2, sleeps.2.1, sleeps.2.2.1⟩

/-- `ready` is polled once, its future is dropped, and the stream is accepted. -/
def accepting : List Action := arriving ++ [.poll 1 .ready, .session (.accept 1)]

/-- The waker of that `ready` is stored, and the stream is ready. -/
theorem ready_left : ∃ x, (machine true).Reachable x ∧
    (machine true).run newServer accepting = some x ∧
    x.stored 1 .ready = some .ready ∧ x.session.pending 1 .ready = false := by
  have both : ((machine true).run newServer accepting).map
      (fun x => (x.stored 1 .ready, x.session.pending 1 .ready)) = some (some .ready, false) := by
    decide +kernel
  rcases Option.map_eq_some_iff.mp both with ⟨x, ran, same⟩
  simp only [Prod.mk.injEq] at same
  exact ⟨x, Machine.run_reachable (.start start_newServer) ran, ran, same⟩

end Waiting

end Veil.Rust

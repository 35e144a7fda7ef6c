import Veil.Rust.Invariant
import Veil.Mux.Credit

/-!
# The credit of a stream of the Rust implementation

A slot's window is shared out between the credit its peer may still use, the
blocks it holds and the blocks it has consumed without granting them.  The
counters are 16-bit integers, so the shares have to be bounded before their sums
mean anything.  What a slot grants is bounded by the DATA frames it has checked,
and what it sends by the credit it was granted.
-/

namespace Veil.Rust

open Veil.Lib
open Veil.Mux (Byte Kind Header Frame dataCount creditSum dataCount_append creditSum_append
  dataCount_cons creditSum_cons dataCount_nonneg creditSum_nonneg dataCount_data dataCount_other
  creditSum_credit creditSum_other)

/-- Reading blocks moves them from the input to the blocks consumed. -/
theorem drain_count (input : List Chunk) (remaining : Nat) (out : List Byte) (consumed : Nat)
    (fits : consumed + input.length < 2 ^ 16) :
    (Session.drain input remaining out consumed).2.2 +
      (Session.drain input remaining out consumed).1.length = consumed + input.length := by
  induction input generalizing remaining out consumed with
  | nil => rfl
  | cons c rest induction =>
      rw [List.length_cons] at fits
      have next : u16Add consumed 1 = consumed + 1 := u16Add_eq (by omega)
      simp only [Session.drain]
      split
      · rfl
      · split
        · simp only [next, List.length_cons]
          omega
        · rw [induction _ _ _ (by omega), next, List.length_cons]
          omega

namespace Slot

/-- The receive window of a slot is shared out completely. -/
def Shared (st : Slot) : Prop := st.recvCredit + st.consumed + st.input.length = window

theorem shared_drained {st : Slot} (shared : st.Shared) (n : Nat) : (st.drained n).Shared := by
  have total := drain_count st.input n [] st.consumed (by
    simp only [Shared, window] at shared
    omega)
  simp only [Shared, drained] at shared ⊢
  omega

theorem shared_settled {st : Slot} (shared : st.Shared) : st.settled.Shared ∧
    st.settled.recvCredit = st.recvCredit := by
  have same : u16Add st.recvCredit 0 = st.recvCredit := u16Add_eq (by
    simp only [Shared, window] at shared
    omega)
  refine ⟨?_, same⟩
  simp only [Shared, settled, same] at shared ⊢
  exact shared

theorem shared_granted {st : Slot} (shared : st.Shared) : st.granted.Shared ∧
    st.granted.recvCredit = st.recvCredit + st.consumed := by
  have same : u16Add st.recvCredit st.consumed = st.recvCredit + st.consumed := u16Add_eq (by
    simp only [Shared, window] at shared
    omega)
  refine ⟨?_, same⟩
  simp only [Shared, granted, same] at shared ⊢
  omega

/-- The CREDIT of a slot grants the blocks consumed. -/
theorem creditFrame_amount {st : Slot} (shared : st.Shared) (k : Nat) :
    (st.creditFrame k).amount = st.consumed := by
  rw [creditFrame, Frame.amount, fromBigEndian_bigEndian, Nat.mod_eq_of_lt]
  simp only [Shared, window] at shared
  omega

theorem length_publish {st : Slot} {c : Chunk} (last : st.input.getLast? = some c) (c' : Chunk) :
    (st.input.dropLast ++ [c']).length = st.input.length := by
  have some_ : st.input ≠ [] := by
    intro empty
    simp [empty] at last
  have positive := List.length_pos_iff.mpr some_
  simp only [List.length_append, List.length_dropLast, List.length_singleton]
  omega

end Slot

/-- A DATA frame being read has passed its check. -/
def Progress.counted : Progress → Int
  | .receiving _ => 1
  | _ => 0

namespace Track

theorem dead_slot {t : Track} {st : Slot} (here : t.slot = some st) (dead : t.live = false) :
    st.live = false := by
  rw [live, here] at dead
  exact dead

/-- Every slot without an error shares out its window. -/
def WindowOk (t : Track) : Prop := ∀ st, t.slot = some st → st.check = none → st.Shared

theorem windowOk_move {event : Event} {t t' : Track} (move : Move event t t')
    (held : t.WindowOk) : t'.WindowOk := by
  intro after found unfailed
  cases move with
  | fail e =>
      rcases Option.map_eq_some_iff.mp found with ⟨st, here, rfl⟩
      rcases st.fail_cases e with ⟨finished, same⟩ | failed
      · rw [same]
        exact held st here (Slot.check_of_ok finished)
      · cases failed.symm.trans unfailed
  | stop | refused | pass | refuse | finish | control | ignore | checkDead | publishDead
  | completeDead | cut | emitControl => exact held after found unfailed
  | reserve | arrive | arriveLost =>
      cases found
      rfl
  | accept here unfailed' | acceptFull here unfailed' | write p here unfailed'
  | shutdown here unfailed' =>
      cases found
      have shared := held _ here unfailed'
      exact shared
  | reject code here server waiting | rejectFull here server waiting =>
      cases found
      rcases Slot.fail_cases _ .connectionRefused with ⟨finished, same⟩ | failed
      · rw [same]
        exact held _ here (Slot.check_of_ok finished)
      · cases failed.symm.trans unfailed
  | drop | dropFull | dropQuiet => cases found
  | read n here unfailed' =>
      cases found
      exact (Slot.shared_settled (Slot.shared_drained (held _ here unfailed') n)).1
  | grant n here unfailed' | grantFull n here unfailed' | overflow n here unfailed'
  | merge n here unfailed' =>
      cases found
      exact (Slot.shared_granted (Slot.shared_drained (held _ here unfailed') n)).1
  | opened f kind at_ here live | fin f kind at_ here live | finished f kind at_ here live
  | credit f kind at_ here live | emitData n alive running here live
  | emitFin alive running here live =>
      cases found
      have shared := held _ here (Slot.check_of_live live)
      exact shared
  | failed f kind e at_ here live =>
      cases found
      cases (Slot.fail_live_check live e).symm.trans unfailed
  | reset f kind at_ here live =>
      cases found
      cases (Slot.fail_live_check live _).symm.trans unfailed
  | expire alive running here live | expireFull alive running here live =>
      cases found
      cases (Slot.fail_live_check live _).symm.trans unfailed
  | check away here live opened unended positive =>
      cases found
      have shared := held _ here (Slot.check_of_live live)
      simp only [Slot.Shared, Slot.awaiting, List.length_append, List.length_singleton]
        at shared ⊢
      omega
  | publish bs at_ here live last | complete bs at_ here live last =>
      cases found
      have shared := held _ here (Slot.check_of_live live)
      simp only [Slot.Shared, Slot.published] at shared ⊢
      rw [Slot.length_publish last]
      exact shared
  | mark =>
      rcases Option.map_eq_some_iff.mp found with ⟨st, here, rfl⟩
      have same := st.marked_same t.touched
      have shared := held st here (same.check.symm.trans unfailed)
      simp only [Slot.Shared, same.recvCredit, same.consumed, same.input]
      exact shared

/-! ## Sending within the credit -/

/-- What a slot has sent is within the credit it was granted. -/
structure Spent (t : Track) (st : Slot) : Prop where
  high : st.sendCredit ≤ window
  whole : st.live = true → st.sendCredit + dataCount t.out = window + creditSum t.inn

structure SendOk (t : Track) : Prop where
  bound : dataCount t.out ≤ window + creditSum t.inn
  plain : ∀ f ∈ t.queue, f.kind ≠ .data
  spent : ∀ st, t.slot = some st → t.Spent st

theorem Spent.keep {t t' : Track} {st st' : Slot} (held : t.Spent st)
    (credit : st'.sendCredit = st.sendCredit) (out : dataCount t'.out = dataCount t.out)
    (inn : creditSum t'.inn = creditSum t.inn) (live : st'.live = true → st.live = true) :
    t'.Spent st' := by
  refine ⟨?_, ?_⟩
  · rw [credit]
    exact held.high
  · rw [credit, out, inn]
    exact fun after => held.whole (live after)

theorem Spent.dead {t : Track} {st : Slot} (high : st.sendCredit ≤ window)
    (dead : st.live = false) : t.Spent st := by
  refine ⟨high, fun live => ?_⟩
  cases dead.symm.trans live

theorem fail_sendCredit (st : Slot) (e : ErrorKind) : (st.fail e).sendCredit = st.sendCredit := by
  unfold Slot.fail
  split <;> rfl

theorem Spent.fail {t t' : Track} {st : Slot} (held : t.Spent st) (e : ErrorKind) :
    t'.Spent (st.fail e) := by
  refine .dead ?_ (st.fail_dead e)
  rw [fail_sendCredit]
  exact held.high

/-- Among the frames of a stream that are processed, only CREDIT grants. -/
theorem creditSum_snoc {inn : List Frame} {f : Frame} (other : f.kind ≠ .credit) :
    creditSum (inn ++ [f]) = creditSum inn := by
  rw [creditSum_append, creditSum_other other, Int.add_zero]

theorem dataCount_snoc {out : List Frame} {f : Frame} (other : f.kind ≠ .data) :
    dataCount (out ++ [f]) = dataCount out := by
  rw [dataCount_append, dataCount_other other, Int.add_zero]

theorem creditSum_le_append (inn : List Frame) (f : Frame) :
    creditSum inn ≤ creditSum (inn ++ [f]) := by
  have more := creditSum_nonneg [f]
  rw [creditSum_append]
  omega

theorem plain_append {queue : List Frame} {f : Frame} (plain : ∀ g ∈ queue, g.kind ≠ .data)
    (other : f.kind ≠ .data) : ∀ g ∈ queue ++ [f], g.kind ≠ .data := by
  intro g member
  rcases List.mem_append.mp member with old | new
  · exact plain g old
  · rw [List.mem_singleton.mp new]
    exact other

theorem sendOk_move {event : Event} {t t' : Track} (move : Move event t t')
    (placed : t.Placed) (held : t.SendOk) : t'.SendOk := by
  rcases held with ⟨bound, plain, spent⟩
  cases move with
  | fail e =>
      refine ⟨bound, by simp, fun after found => ?_⟩
      rcases Option.map_eq_some_iff.mp found with ⟨st, here, rfl⟩
      exact (spent st here).fail e
  | stop | refused | pass | control | checkDead | publishDead | cut =>
      exact ⟨bound, plain, fun st here => (spent st here).keep rfl rfl rfl fun live => live⟩
  | reserve p creditAt client new =>
      have blank := placed.blank new
      refine ⟨bound, plain_append plain (by simp), fun after found => ?_⟩
      cases found
      refine ⟨le_rfl, fun _ => ?_⟩
      simp only [blank.out, blank.inn]
      rfl
  | arrive p creditAt server new =>
      have blank := placed.blank new
      refine ⟨?_, plain, fun after found => ?_⟩
      · rw [creditSum_snoc (by simp)]
        exact bound
      · cases found
        refine ⟨le_rfl, fun _ => ?_⟩
        rw [creditSum_snoc (by simp), blank.out, blank.inn]
        rfl
  | arriveLost creditAt server new =>
      have blank := placed.blank new
      refine ⟨bound, plain, fun after found => ?_⟩
      cases found
      refine ⟨le_rfl, fun _ => ?_⟩
      simp only [blank.out, blank.inn]
      rfl
  | refuse p server new =>
      refine ⟨?_, plain_append plain (by simp), fun st here => ?_⟩
      · rw [creditSum_snoc (by simp)]
        exact bound
      · exact (spent st here).keep rfl rfl (creditSum_snoc (by simp)) fun live => live
  | accept here =>
      refine ⟨bound, plain_append plain (by simp), fun after found => ?_⟩
      cases found
      exact (spent _ here).keep rfl rfl rfl fun live => live
  | acceptFull here | shutdown here | write p here =>
      refine ⟨bound, plain, fun after found => ?_⟩
      cases found
      exact (spent _ here).keep rfl rfl rfl fun live => live
  | reject code here =>
      refine ⟨bound, plain_append plain (by simp), fun after found => ?_⟩
      cases found
      exact (spent _ here).fail _
  | rejectFull here =>
      refine ⟨bound, plain, fun after found => ?_⟩
      cases found
      exact (spent _ here).fail _
  | finish here =>
      exact ⟨bound, plain_append plain (by simp), fun st here => (spent st here).keep rfl rfl rfl fun live => live⟩
  | drop => exact ⟨bound, plain_append plain (by simp), by simp⟩
  | dropFull | dropQuiet => exact ⟨bound, plain, by simp⟩
  | read n here | grantFull n here | overflow n here =>
      refine ⟨bound, plain, fun after found => ?_⟩
      cases found
      exact (spent _ here).keep rfl rfl rfl fun live => live
  | grant n here =>
      refine ⟨bound, plain_append plain (by simp [Slot.creditFrame]), fun after found => ?_⟩
      cases found
      exact (spent _ here).keep rfl rfl rfl fun live => live
  | merge n here unfailed due queued kind =>
      refine ⟨bound, fun f member => ?_, fun after found => ?_⟩
      · rw [queued] at plain
        rcases List.mem_append.mp member with old | later
        · exact plain f (List.mem_append_left _ old)
        · rcases List.mem_cons.mp later with rfl | old
          · simp [mergeCredit, kind]
          · exact plain f (by simp [old])
      · cases found
        exact (spent _ here).keep rfl rfl rfl fun live => live
  | ignore f at_ dead =>
      have grows := creditSum_le_append t.inn f
      refine ⟨?_, plain, fun st here => .dead (spent st here).high (dead_slot here dead)⟩
      simp only
      omega
  | opened f kind at_ here | fin f kind at_ here =>
      refine ⟨?_, plain, fun after found => ?_⟩
      · rw [creditSum_snoc (by simp [kind])]
        exact bound
      · cases found
        exact (spent _ here).keep rfl rfl (creditSum_snoc (by simp [kind])) fun live => live
  | failed f kind e at_ here | reset f kind at_ here =>
      refine ⟨?_, plain, fun after found => ?_⟩
      · rw [creditSum_snoc (by simp [kind])]
        exact bound
      · cases found
        exact (spent _ here).fail _
  | finished f kind at_ here =>
      refine ⟨?_, plain, fun after found => ?_⟩
      · rw [creditSum_snoc (by simp [kind])]
        exact bound
      · cases found
        exact .dead (spent _ here).high rfl
  | @credit t st f kind at_ here live some_ fits =>
      have grows := creditSum_le_append t.inn f
      have before := spent st here
      have high := before.high
      rw [u16Sub_eq high (by decide)] at fits
      have sum : u16Add st.sendCredit f.amount = st.sendCredit + f.amount := u16Add_eq (by
        simp only [window] at fits high
        omega)
      refine ⟨?_, plain, fun after found => ?_⟩
      · simp only
        omega
      · cases found
        refine ⟨?_, fun _ => ?_⟩
        · simp only [sum]
          omega
        · have whole := before.whole live
          simp only [creditSum_append, creditSum_credit kind, sum]
          omega
  | check away here =>
      refine ⟨bound, plain, fun after found => ?_⟩
      cases found
      exact (spent _ here).keep rfl rfl rfl fun live => live
  | publish bs at_ here =>
      refine ⟨bound, plain, fun after found => ?_⟩
      cases found
      exact (spent _ here).keep rfl rfl rfl fun live => live
  | complete bs at_ here =>
      refine ⟨?_, plain, fun after found => ?_⟩
      · rw [creditSum_snoc (by simp)]
        exact bound
      · cases found
        exact (spent _ here).keep rfl rfl (creditSum_snoc (by simp)) fun live => live
  | completeDead bs at_ =>
      refine ⟨?_, plain, fun st here => (spent st here).keep rfl rfl (creditSum_snoc (by simp)) fun live => live⟩
      rw [creditSum_snoc (by simp)]
      exact bound
  | @emitControl t c rest alive running queued =>
      rw [queued] at plain
      have other := plain c (by simp)
      refine ⟨?_, fun f member => plain f (List.mem_cons_of_mem _ member), fun st here => ?_⟩
      · rw [dataCount_snoc other]
        exact bound
      · exact (spent st here).keep rfl (dataCount_snoc other) rfl fun live => live
  | @emitData t st p rest n alive running here live opened pending some_ available small positive =>
      have before := spent st here
      have whole := before.whole live
      refine ⟨?_, plain, fun after found => ?_⟩
      · simp only [dataCount_append, dataCount_data]
        omega
      · cases found
        refine ⟨?_, fun _ => ?_⟩
        · have high := before.high
          simp only [Slot.sentData]
          omega
        · simp only [dataCount_append, dataCount_data, Slot.sentData]
          omega
  | emitFin alive running here =>
      refine ⟨?_, plain, fun after found => ?_⟩
      · rw [dataCount_snoc (by simp)]
        exact bound
      · cases found
        exact (spent _ here).keep rfl (dataCount_snoc (by simp)) rfl fun live => live
  | mark =>
      refine ⟨bound, plain, fun after found => ?_⟩
      rcases Option.map_eq_some_iff.mp found with ⟨st, here, rfl⟩
      have same := st.marked_same t.touched
      exact (spent st here).keep same.sendCredit rfl rfl same.live
  | expire alive running here =>
      refine ⟨bound, plain_append plain (by simp), fun after found => ?_⟩
      cases found
      exact (spent _ here).fail _
  | expireFull alive running here =>
      refine ⟨bound, plain, fun after found => ?_⟩
      cases found
      exact (spent _ here).fail _

/-! ## Granting for what was read -/

/-- The credit a stream has granted, in sent and in queued frames. -/
def granted (t : Track) : Int := creditSum t.out + creditSum t.queue

/-- The DATA frames of a stream that have passed the header check. -/
def checked (t : Track) : Int := dataCount t.inn + t.progress.counted

/-- What a slot has granted comes from the DATA frames checked for it. -/
structure Repaid (t : Track) (st : Slot) : Prop where
  bound : st.check = none → window + t.granted ≤ st.recvCredit + t.checked
  whole : st.live = true → t.full = false → window + t.granted = st.recvCredit + t.checked

/-- A CREDIT grants something, and no more than the window. -/
def Bounded (f : Frame) : Prop := f.kind = .credit → 0 < f.amount ∧ f.amount ≤ window

structure GrantOk (t : Track) : Prop where
  total : t.granted ≤ t.checked
  queued : ∀ f ∈ t.queue, Bounded f
  sent : ∀ f ∈ t.out, Bounded f
  repaid : ∀ st, t.slot = some st → t.Repaid st

theorem Repaid.keep {t t' : Track} {st st' : Slot} (held : t.Repaid st)
    (granted : t'.granted = t.granted) (checked : t'.checked = t.checked)
    (credit : st'.recvCredit = st.recvCredit) (check : st'.check = none → st.check = none)
    (live : st'.live = true → st.live = true) (full : t'.full = false → t.full = false) :
    t'.Repaid st' := by
  refine ⟨fun unfailed => ?_, fun after unrefused => ?_⟩
  · rw [granted, checked, credit]
    exact held.bound (check unfailed)
  · rw [granted, checked, credit]
    exact held.whole (live after) (full unrefused)

theorem fail_recvCredit (st : Slot) (e : ErrorKind) : (st.fail e).recvCredit = st.recvCredit := by
  unfold Slot.fail
  split <;> rfl

theorem fail_check {st : Slot} {e : ErrorKind} (unfailed : (st.fail e).check = none) :
    st.check = none := by
  rcases st.fail_cases e with ⟨finished, -⟩ | failed
  · exact Slot.check_of_ok finished
  · cases failed.symm.trans unfailed

/-- A failed slot grants nothing more. -/
theorem Repaid.slack {t t' : Track} {st : Slot} (held : t.Repaid st) (e : ErrorKind)
    (granted : t'.granted ≤ t.granted) (checked : t.checked ≤ t'.checked) :
    t'.Repaid (st.fail e) := by
  refine ⟨fun unfailed => ?_, fun live => ?_⟩
  · have bound := held.bound (fail_check unfailed)
    rw [fail_recvCredit]
    omega
  · cases (st.fail_dead e).symm.trans live

theorem granted_snoc (t : Track) {f : Frame} (other : f.kind ≠ .credit) :
    creditSum t.out + creditSum (t.queue ++ [f]) = t.granted := by
  rw [creditSum_snoc other]
  rfl

theorem granted_sent (t : Track) {f : Frame} (other : f.kind ≠ .credit) :
    creditSum (t.out ++ [f]) + creditSum t.queue = t.granted := by
  rw [creditSum_snoc other]
  rfl

theorem checked_snoc (t : Track) {f : Frame} (at_ : t.progress = .control)
    (other : f.kind ≠ .data) :
    dataCount (t.inn ++ [f]) + Progress.counted .away = t.checked := by
  rw [dataCount_snoc other, checked, at_]
  rfl

theorem checked_complete (t : Track) {got : List Byte} (at_ : t.progress = .receiving got)
    (bs : List Byte) :
    dataCount (t.inn ++ [⟨.data, t.id, got ++ bs⟩]) + Progress.counted .away = t.checked := by
  rw [dataCount_append, dataCount_data rfl, checked, at_]
  simp [Progress.counted]

theorem bounded_append {frames : List Frame} {f : Frame} (bounded : ∀ g ∈ frames, Bounded g)
    (own : Bounded f) : ∀ g ∈ frames ++ [f], Bounded g := by
  intro g member
  rcases List.mem_append.mp member with old | new
  · exact bounded g old
  · rw [List.mem_singleton.mp new]
    exact own

theorem bounded_other {f : Frame} (other : f.kind ≠ .credit) : Bounded f :=
  fun credit => (other credit).elim

/-- A CREDIT that takes a further amount grants the sum. -/
theorem creditSum_merge (before after : List Frame) {c : Frame} {n : Nat}
    (kind : c.kind = .credit) (small : c.amount + n < 2 ^ 16) :
    creditSum (before ++ mergeCredit c n :: after) = creditSum (before ++ c :: after) + n ∧
      (mergeCredit c n).amount = c.amount + n := by
  have sum : (mergeCredit c n).amount = c.amount + n := by
    rw [mergeCredit, Frame.amount, fromBigEndian_bigEndian, u16Add_eq small]
    exact Nat.mod_eq_of_lt small
  refine ⟨?_, sum⟩
  have merged : (mergeCredit c n).kind = .credit := kind
  rw [creditSum_append, creditSum_append, creditSum_cons, creditSum_cons _ c,
    creditSum_credit merged, creditSum_credit kind, sum]
  push_cast
  omega

/-- One CREDIT among the frames queued is part of what has been granted. -/
theorem amount_le_creditSum {frames : List Frame} {c : Frame} (member : c ∈ frames)
    (kind : c.kind = .credit) : (c.amount : Int) ≤ creditSum frames := by
  rcases List.append_of_mem member with ⟨before, after, rfl⟩
  have more := creditSum_nonneg before
  have rest := creditSum_nonneg after
  rw [creditSum_append, creditSum_cons, creditSum_credit kind]
  omega

/-- The consumed blocks have been granted by the frames of the queue. -/
def afterGrant (t : Track) (st : Slot) (queue : List Frame) : Track :=
  { t with slot := some st.granted, queue := queue }

/-- After a grant for the blocks consumed, window and grants agree as before. -/
theorem Repaid.grant {t : Track} {st : Slot} {n : Nat} {queue : List Frame} (held : t.Repaid st)
    (unfailed : st.check = none) (shared : st.Shared)
    (grown : creditSum t.out + creditSum queue = t.granted + (st.drained n).consumed) :
    (t.afterGrant (st.drained n) queue).Repaid (st.drained n).granted ∧
      (t.afterGrant (st.drained n) queue).granted ≤ (t.afterGrant (st.drained n) queue).checked := by
  have after := Slot.shared_granted (Slot.shared_drained shared n)
  have bound := held.bound unfailed
  have sum : (st.drained n).granted.recvCredit = st.recvCredit + (st.drained n).consumed := after.2
  have inside := after.1
  have checked : (t.afterGrant (st.drained n) queue).checked = t.checked := rfl
  have granted : (t.afterGrant (st.drained n) queue).granted =
    t.granted + (st.drained n).consumed := grown
  simp only [Slot.Shared] at inside
  refine ⟨⟨fun _ => ?_, fun live unrefused => ?_⟩, ?_⟩
  · rw [granted, checked, sum]
    push_cast
    omega
  · have whole := held.whole live unrefused
    rw [granted, checked, sum]
    push_cast
    omega
  · omega

theorem grantOk_move {event : Event} {t t' : Track} (move : Move event t t')
    (fits : event ≠ .overflow) (placed : t.Placed) (window_ : t.WindowOk) (held : t.GrantOk) :
    t'.GrantOk := by
  rcases held with ⟨total, bounded, sent, repaid⟩
  cases move with
  | fail e =>
      have less : creditSum t.out + creditSum [] ≤ t.granted := by
        have queued := creditSum_nonneg t.queue
        simp only [granted, Mux.creditSum_nil]
        omega
      refine ⟨less.trans total, by simp, sent, fun after found => ?_⟩
      rcases Option.map_eq_some_iff.mp found with ⟨st, here, rfl⟩
      exact (repaid st here).slack e less le_rfl
  | stop | pass => exact ⟨total, bounded, sent, fun st here => { repaid st here with }⟩
  | refused =>
      refine ⟨total, bounded, sent, fun st here => ⟨(repaid st here).bound, fun _ unrefused => ?_⟩⟩
      cases unrefused
  | reserve p creditAt client new =>
      have blank := placed.blank new
      have same : creditSum t.out + creditSum (t.queue ++ [⟨.open, t.id, p⟩]) = t.granted :=
        granted_snoc t (by simp)
      refine ⟨same.trans_le total, bounded_append bounded (bounded_other (by simp)), sent,
        fun after found => ?_⟩
      cases found
      refine ⟨fun _ => ?_, fun _ _ => ?_⟩ <;>
        simp [granted, checked, blank.queue, blank.out, blank.inn, blank.away, Slot.new,
          Progress.counted, creditSum_other]
  | arrive p creditAt server new =>
      have blank := placed.blank new
      refine ⟨?_, bounded, sent, fun after found => ?_⟩
      · simp [granted, checked, blank.queue, blank.out, blank.inn, blank.away,
          Progress.counted, dataCount_other]
      · cases found
        refine ⟨fun _ => ?_, fun _ _ => ?_⟩ <;>
          simp [granted, checked, blank.queue, blank.out, blank.inn, blank.away, Slot.new,
            Progress.counted, dataCount_other]
  | arriveLost creditAt server new =>
      have blank := placed.blank new
      refine ⟨total, bounded, sent, fun after found => ?_⟩
      cases found
      refine ⟨fun _ => ?_, fun _ _ => ?_⟩ <;>
        simp [granted, checked, blank.queue, blank.out, blank.inn, blank.away, Slot.new,
          Progress.counted]
  | refuse p server new =>
      have blank := placed.blank new
      refine ⟨?_, bounded_append bounded (bounded_other (by simp)), sent, fun st here => ?_⟩
      · simp [granted, checked, blank.queue, blank.out, blank.inn, blank.away,
          Progress.counted, dataCount_other, creditSum_other]
      · cases blank.slot.symm.trans here
  | accept here =>
      refine ⟨(granted_snoc t (by simp)).trans_le total,
        bounded_append bounded (bounded_other (by simp)), sent, fun after found => ?_⟩
      cases found
      exact (repaid _ here).keep (granted_snoc t (by simp)) rfl rfl (fun check => check)
        (fun live => live) fun full => full
  | acceptFull here =>
      refine ⟨total, bounded, sent, fun after found => ?_⟩
      cases found
      exact (repaid _ here).keep rfl rfl rfl (fun check => check) (fun live => live)
        fun full => by cases full
  | shutdown here | write p here =>
      refine ⟨total, bounded, sent, fun after found => ?_⟩
      cases found
      exact (repaid _ here).keep rfl rfl rfl (fun check => check) (fun live => live)
        fun full => full
  | reject code here | expire alive running here =>
      refine ⟨(granted_snoc t (by simp)).trans_le total,
        bounded_append bounded (bounded_other (by simp)), sent, fun after found => ?_⟩
      cases found
      exact (repaid _ here).slack _ (granted_snoc t (by simp)).le le_rfl
  | rejectFull here | expireFull alive running here =>
      refine ⟨total, bounded, sent, fun after found => ?_⟩
      cases found
      exact (repaid _ here).slack _ le_rfl le_rfl
  | finish here =>
      refine ⟨(granted_snoc t (by simp)).trans_le total,
        bounded_append bounded (bounded_other (by simp)), sent, fun st here => ?_⟩
      exact (repaid _ here).keep (granted_snoc t (by simp)) rfl rfl (fun check => check)
        (fun live => live) fun full => full
  | drop =>
      exact ⟨(granted_snoc t (by simp)).trans_le total,
        bounded_append bounded (bounded_other (by simp)), sent, by simp⟩
  | dropFull | dropQuiet => exact ⟨total, bounded, sent, by simp⟩
  | read n here unfailed =>
      refine ⟨total, bounded, sent, fun after found => ?_⟩
      cases found
      have shared := Slot.shared_drained (window_ _ here unfailed) n
      exact (repaid _ here).keep rfl rfl (Slot.shared_settled shared).2 (fun check => check)
        (fun live => live) fun full => full
  | @grant t st n here unfailed due =>
      have shared := window_ st here unfailed
      have amount := Slot.creditFrame_amount (Slot.shared_drained shared n) t.id
      have inside := Slot.shared_drained shared n
      have grown : creditSum t.out + creditSum (t.queue ++ [(st.drained n).creditFrame t.id]) =
          t.granted + (st.drained n).consumed := by
        rw [creditSum_append, creditSum_credit (by rfl), amount, granted]
        omega
      refine ⟨((repaid st here).grant unfailed shared grown).2,
        bounded_append bounded fun _ => ?_, sent, fun after found => ?_⟩
      · rw [amount]
        refine ⟨due.2, ?_⟩
        simp only [Slot.Shared] at inside
        omega
      · cases found
        exact ((repaid st here).grant unfailed shared grown).1
  | @merge t st before after c n here unfailed due queued kind fits =>
      have shared := window_ st here unfailed
      have inside := Slot.shared_drained shared n
      have amount := Slot.creditFrame_amount inside t.id
      rw [amount] at fits ⊢
      have small : c.amount + (st.drained n).consumed < 2 ^ 16 := by
        have own := (bounded c (by simp [queued]) kind).2
        simp only [Slot.Shared, window] at inside own
        omega
      have merged := creditSum_merge before after kind small
      have grown : creditSum t.out +
          creditSum (before ++ mergeCredit c (st.drained n).consumed :: after) =
          t.granted + (st.drained n).consumed := by
        rw [merged.1, ← queued, granted]
        omega
      refine ⟨((repaid st here).grant unfailed shared grown).2,
        fun f member => ?_, sent, fun later found => ?_⟩
      · rw [queued] at bounded
        rcases List.mem_append.mp member with old | later
        · exact bounded f (List.mem_append_left _ old)
        · rcases List.mem_cons.mp later with rfl | old
          · intro _
            rw [u16Add_eq small] at fits
            rw [merged.2]
            exact ⟨Nat.add_pos_right _ due.2, fits⟩
          · exact bounded f (by simp [old])
      · cases found
        exact ((repaid st here).grant unfailed shared grown).1
  | @grantFull t st n here unfailed due =>
      have shared := window_ st here unfailed
      have after := Slot.shared_granted (Slot.shared_drained shared n)
      refine ⟨total, bounded, sent, fun later found => ?_⟩
      cases found
      refine ⟨fun _ => ?_, fun _ unrefused => by cases unrefused⟩
      have bound := (repaid st here).bound unfailed
      have sum : (st.drained n).granted.recvCredit = st.recvCredit + (st.drained n).consumed :=
        after.2
      rw [sum]
      push_cast
      have same : granted { t with slot := some (st.drained n).granted, full := true } =
        t.granted := rfl
      have counted : checked { t with slot := some (st.drained n).granted, full := true } =
        t.checked := rfl
      omega
  | overflow => exact (fits rfl).elim
  | control away =>
      have same : dataCount t.inn + Progress.counted .control = t.checked := by
        rw [checked, away]
        rfl
      refine ⟨total.trans_eq same.symm, bounded, sent, fun st here => ?_⟩
      exact (repaid st here).keep rfl same rfl (fun check => check) (fun live => live)
        fun full => full
  | ignore f at_ dead other =>
      have same := t.checked_snoc at_ other.2
      refine ⟨total.trans_eq same.symm, bounded, sent, fun st here => ?_⟩
      exact (repaid st here).keep rfl same rfl (fun check => check) (fun live => live)
        fun full => full
  | opened f kind at_ here | fin f kind at_ here | credit f kind at_ here =>
      have same := t.checked_snoc (f := f) at_ (by simp [kind])
      refine ⟨total.trans_eq same.symm, bounded, sent, fun after found => ?_⟩
      cases found
      exact (repaid _ here).keep rfl same rfl (fun check => check) (fun live => live)
        fun full => full
  | finished f kind at_ here live =>
      have same := t.checked_snoc (f := f) at_ (by simp [kind])
      refine ⟨total.trans_eq same.symm, bounded, sent, fun after found => ?_⟩
      cases found
      exact (repaid _ here).keep rfl same rfl (fun _ => Slot.check_of_live live)
        (fun _ => live) fun full => full
  | failed f kind e at_ here | reset f kind at_ here =>
      have same := t.checked_snoc (f := f) at_ (by simp [kind])
      refine ⟨total.trans_eq same.symm, bounded, sent, fun after found => ?_⟩
      cases found
      exact (repaid _ here).slack _ le_rfl same.ge
  | @check t st away here live opened unended positive =>
      have more : dataCount t.inn + Progress.counted (.receiving []) = t.checked + 1 := by
        simp [checked, away, Progress.counted]
      refine ⟨total.trans (by simp only [checked, more]; omega), bounded, sent,
        fun after found => ?_⟩
      have before := repaid st here
      have bound := before.bound (Slot.check_of_live live)
      cases found
      refine ⟨fun _ => ?_, fun _ unrefused => ?_⟩
      · rw [checked, more]
        simp only [granted, Slot.awaiting] at bound ⊢
        omega
      · have whole := before.whole live unrefused
        rw [checked, more]
        simp only [granted, Slot.awaiting] at whole ⊢
        omega
  | checkDead away dead =>
      have more : dataCount t.inn + Progress.counted (.receiving []) = t.checked + 1 := by
        simp [checked, away, Progress.counted]
      refine ⟨total.trans (by simp only [checked, more]; omega), bounded, sent,
        fun st here => ⟨fun unfailed => ?_, fun live => ?_⟩⟩
      · have bound := (repaid st here).bound unfailed
        rw [checked, more]
        simp only [granted] at bound ⊢
        omega
      · cases (dead_slot here dead).symm.trans live
  | @publish t st c got bs at_ here =>
      have same : dataCount t.inn + Progress.counted (.receiving (got ++ bs)) = t.checked := by
        rw [checked, at_]
        rfl
      refine ⟨total.trans_eq same.symm, bounded, sent, fun after found => ?_⟩
      cases found
      exact (repaid _ here).keep rfl same rfl (fun check => check) (fun live => live)
        fun full => full
  | complete bs at_ here =>
      have same := t.checked_complete at_ bs
      refine ⟨total.trans_eq same.symm, bounded, sent, fun after found => ?_⟩
      cases found
      exact (repaid _ here).keep rfl same rfl (fun check => check) (fun live => live)
        fun full => full
  | @publishDead t got bs at_ | @cut t st got bs at_ =>
      have same : dataCount t.inn + Progress.counted (.receiving (got ++ bs)) = t.checked := by
        rw [checked, at_]
        rfl
      refine ⟨total.trans_eq same.symm, bounded, sent, fun st here => ?_⟩
      exact (repaid st here).keep rfl same rfl (fun check => check) (fun live => live)
        fun full => full
  | completeDead bs at_ =>
      have same := t.checked_complete at_ bs
      refine ⟨total.trans_eq same.symm, bounded, sent, fun st here => ?_⟩
      exact (repaid st here).keep rfl same rfl (fun check => check) (fun live => live)
        fun full => full
  | @emitControl t c rest alive running queued =>
      have same : creditSum (t.out ++ [c]) + creditSum rest = t.granted := by
        rw [granted, queued, creditSum_cons, creditSum_append]
        omega
      rw [queued] at bounded
      refine ⟨same.trans_le total, fun f member => bounded f (List.mem_cons_of_mem _ member),
        bounded_append sent (bounded c (by simp)), fun st here => ?_⟩
      exact (repaid st here).keep same rfl rfl (fun check => check) (fun live => live)
        fun full => full
  | emitData n alive running here | emitFin alive running here =>
      refine ⟨(t.granted_sent (by simp)).trans_le total, bounded,
        bounded_append sent (bounded_other (by simp)), fun after found => ?_⟩
      cases found
      exact (repaid _ here).keep (t.granted_sent (by simp)) rfl rfl (fun check => check) (fun live => live)
        fun full => full
  | mark =>
      refine ⟨total, bounded, sent, fun after found => ?_⟩
      rcases Option.map_eq_some_iff.mp found with ⟨st, here, rfl⟩
      have flushed := st.marked_same t.touched
      exact (repaid st here).keep rfl rfl flushed.recvCredit
        (fun unfailed => flushed.check.symm.trans unfailed) flushed.live fun full => full

end Track

end Veil.Rust

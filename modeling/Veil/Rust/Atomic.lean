import Veil.Rust.Conservation
import Veil.Rust.Effects
import Veil.Rust.Roles

/-!
# Calls whose frame finds the control queue full

`reserve` and `finish` queue their frame before they change anything, and a full
queue leaves the session as it was.  `accept` sets `opened`, `reject` fails the
slot, and `poll_read` takes blocks and raises `recv_credit` before they queue
theirs: with a full queue they return an error and keep what they have changed.

In runs without such calls a server sends DATA and FIN only behind the OPENED of
their stream.
-/

namespace Veil.Rust

open Veil.Lib
open Veil.Mux (Byte Kind Header Frame creditSum creditSum_append creditSum_cons creditSum_credit
  creditSum_other)

/-- The bytes a slot holds for its reader. -/
def Slot.held (st : Slot) : List Byte := st.input.flatMap Chunk.bytes

/-- The blocks that a read of `n` bytes uses up. -/
def wholeBlocks : List Chunk → Nat → Nat
  | [], _ => 0
  | c :: rest, n =>
      if c.complete = false ∨ n < c.bytes.length then 0
      else if n = c.bytes.length then 1
      else wholeBlocks rest (n - c.bytes.length) + 1

theorem drain_whole (input : List Chunk) {remaining : Nat} (some_ : 0 < remaining)
    (out : List Byte) {consumed : Nat} (fits : consumed + input.length < 2 ^ 16) :
    (Session.drain input remaining out consumed).2.2 = consumed + wholeBlocks input remaining := by
  induction input generalizing remaining out consumed with
  | nil => rfl
  | cons c rest induction =>
      rw [List.length_cons] at fits
      have next : u16Add consumed 1 = consumed + 1 := u16Add_eq (by omega)
      simp only [Session.drain, wholeBlocks]
      by_cases stays : c.complete = false ∨ remaining < c.bytes.length
      · have left : c.bytes.drop (min remaining c.bytes.length) ≠ [] ∨ c.complete = false := by
          rcases stays with open_ | short
          · exact .inr open_
          · left
            rw [ne_eq, List.drop_eq_nil_iff]
            omega
        rw [if_pos left, if_pos stays]
        rfl
      · simp only [not_or, Bool.not_eq_false, not_lt] at stays
        have least : min remaining c.bytes.length = c.bytes.length := min_eq_right stays.2
        have taken : ¬ (c.bytes.drop (min remaining c.bytes.length) ≠ [] ∨
            c.complete = false) := by
          simp [least, stays.1]
        have more : ¬ (c.complete = false ∨ remaining < c.bytes.length) := by
          simp [stays.1, stays.2]
        rw [if_neg taken, if_neg more, least]
        by_cases exact_ : remaining = c.bytes.length
        · rw [if_pos exact_, if_pos (by omega)]
          exact next
        · rw [if_neg exact_, if_neg (by omega), induction (by omega) _ (by omega), next]
          omega

/-- Every byte a read takes from the blocks is a byte it returns. -/
theorem drain_bytes (input : List Chunk) (remaining : Nat) (out : List Byte) (consumed : Nat) :
    (Session.drain input remaining out consumed).2.1 ++
      (Session.drain input remaining out consumed).1.flatMap Chunk.bytes =
        out ++ input.flatMap Chunk.bytes := by
  induction input generalizing remaining out consumed with
  | nil => simp [Session.drain]
  | cons c rest induction =>
      simp only [Session.drain]
      split_ifs with stays full
      · rw [List.flatMap_cons, List.flatMap_cons, ← List.append_assoc, List.append_assoc out,
          List.take_append_drop, List.append_assoc]
      · have all : c.bytes.take (min remaining c.bytes.length) = c.bytes := by
          have empty := not_not.mp (not_or.mp stays).1
          rw [← List.append_nil (c.bytes.take _), ← empty, List.take_append_drop]
        rw [all, List.flatMap_cons, List.append_assoc]
      · have all : c.bytes.take (min remaining c.bytes.length) = c.bytes := by
          have empty := not_not.mp (not_or.mp stays).1
          rw [← List.append_nil (c.bytes.take _), ← empty, List.take_append_drop]
        rw [induction, all, List.flatMap_cons, List.append_assoc]

namespace Slot

/-- A slot that has failed holds nothing. -/
def Cleared (st : Slot) : Prop := st.check ≠ none → st.input = [] ∧ st.output = [] ∧ st.queued = 0

theorem cleared_of_check {st : Slot} (unfailed : st.check = none) : st.Cleared :=
  fun failed => (failed unfailed).elim

theorem cleared_fail (st : Slot) (e : ErrorKind) : (st.fail e).Cleared := by
  unfold fail
  split
  · next finished => exact cleared_of_check (check_of_ok finished)
  · exact fun _ => ⟨rfl, rfl, rfl⟩

theorem cleared_flushed {st : Slot} (cleared : st.Cleared) (t : Touched) :
    (st.flushed t).Cleared := by
  have same := st.flushed_same t
  have queued : (st.flushed t).queued = st.queued := by
    unfold flushed
    split_ifs <;> rfl
  intro failed
  rw [same.input, same.output, queued]
  exact cleared (by rwa [same.check] at failed)

theorem cleared_marked {st : Slot} (cleared : st.Cleared) (touched : List Touched) :
    (st.marked touched).Cleared := by
  induction touched generalizing st with
  | nil => exact cleared
  | cons t rest induction => exact induction (cleared_flushed cleared t)

/-- To fail a stream again with the same error changes nothing. -/
theorem fail_again {st : Slot} (cleared : st.Cleared) {e : ErrorKind}
    (terminal : st.terminal = some (.ok ()) ∨ st.terminal = some (.error e)) :
    st.fail e = st := by
  rcases terminal with finished | failed
  · rw [fail, finished]
  · have empty := cleared (by simp [check, failed])
    cases st
    simp_all [fail]

end Slot

namespace Track

theorem cleared_move {event : Event} {t t' : Track} (move : Move event t t')
    (held : ∀ st, t.slot = some st → st.Cleared) : ∀ st, t'.slot = some st → st.Cleared := by
  intro after found
  cases move with
  | fail e =>
      rcases Option.map_eq_some_iff.mp found with ⟨st, -, rfl⟩
      exact st.cleared_fail e
  | mark =>
      rcases Option.map_eq_some_iff.mp found with ⟨st, here, rfl⟩
      exact Slot.cleared_marked (held st here) _
  | stop | refused | pass | refuse | finish | control | ignore | checkDead | publishDead
  | completeDead | cut | emitControl => exact held after found
  | drop | dropFull | dropQuiet => cases found
  | reserve | arrive | arriveLost =>
      cases found
      exact Slot.cleared_of_check rfl
  | reject | rejectFull | failed | reset | expire | expireFull =>
      cases found
      exact Slot.cleared_fail _ _
  | accept here unfailed | acceptFull here unfailed | read n here unfailed
  | grant n here unfailed | merge n here unfailed | grantFull n here unfailed
  | overflow n here unfailed | write p here unfailed | shutdown here unfailed =>
      cases found
      exact Slot.cleared_of_check unfailed
  | finished =>
      cases found
      exact Slot.cleared_of_check rfl
  | opened f kind at_ here live | fin f kind at_ here live | credit f kind at_ here live
  | check away here live | publish bs at_ here live | complete bs at_ here live
  | emitData n alive running here live | emitFin alive running here live =>
      cases found
      exact Slot.cleared_of_check (Slot.check_of_live live)

/-- What is queued stays queued or is sent, until the session fails. -/
theorem speaks_move {event : Event} {t t' : Track} (move : Move event t t') {kind : Kind}
    (held : t.failure ≠ none ∨ t.Speaks kind) : t'.failure ≠ none ∨ t'.Speaks kind := by
  rcases held with failed | spoken
  · exact .inl (failure_move move failed)
  cases move with
  | fail => exact .inl (Option.some_ne_none _)
  | reserve | refuse | accept | reject | finish | drop | grant | expire =>
      exact .inr (spoken.append rfl rfl)
  | @merge _ _ before after c n here unfailed due queued own =>
      rcases spoken with ⟨f, member, kind⟩
      rw [queued] at member
      simp only [List.mem_append, List.mem_cons] at member
      rcases member with (early | rfl | late) | sent
      · exact .inr ⟨f, .inl (by simp [early]), kind⟩
      · exact .inr ⟨_, .inl (List.mem_append_right _ List.mem_cons_self), kind⟩
      · exact .inr ⟨f, .inl (by simp [late]), kind⟩
      · exact .inr ⟨f, .inr sent, kind⟩
  | @emitControl _ c rest alive running queued =>
      rcases spoken with ⟨f, member, kind⟩
      rw [queued] at member
      simp only [List.mem_cons] at member
      rcases member with (rfl | late) | sent
      · exact .inr ⟨f, .inr (by simp), kind⟩
      · exact .inr ⟨f, .inl late, kind⟩
      · exact .inr ⟨f, .inr (by simp [sent]), kind⟩
  | emitData | emitFin =>
      rcases spoken with ⟨f, queued | sent, kind⟩
      · exact .inr ⟨f, .inl queued, kind⟩
      · exact .inr ⟨f, .inr (by simp [sent]), kind⟩
  | stop | refused | pass | arrive | arriveLost | acceptFull | rejectFull | dropFull | dropQuiet
  | read | grantFull | overflow | write | shutdown | control | ignore | opened | failed | fin
  | reset | finished | credit | check | checkDead | publish | complete | publishDead
  | completeDead | cut | mark | expireFull => exact .inr spoken

/-- Every CREDIT in the queue grants something, and no more than the window. -/
theorem bounded_move {event : Event} {t t' : Track} (move : Move event t t')
    (window_ : t.WindowOk) (held : ∀ f ∈ t.queue, Bounded f) : ∀ f ∈ t'.queue, Bounded f := by
  cases move with
  | fail => simp
  | reserve | refuse | accept | reject | finish | drop | expire =>
      exact bounded_append held (bounded_other (by simp))
  | @grant t st n here unfailed due =>
      have inside := Slot.shared_drained (window_ st here unfailed) n
      refine bounded_append held fun _ => ?_
      rw [Slot.creditFrame_amount inside]
      refine ⟨due.2, ?_⟩
      simp only [Slot.Shared] at inside
      omega
  | @merge t st before after c n here unfailed due queued kind fits =>
      have inside := Slot.shared_drained (window_ st here unfailed) n
      have amount := Slot.creditFrame_amount inside t.id
      rw [amount] at fits ⊢
      rw [queued] at held
      have own := (held c (by simp) kind).2
      have small : c.amount + (st.drained n).consumed < 2 ^ 16 := by
        simp only [Slot.Shared, window] at inside own
        omega
      have merged := creditSum_merge before after kind small
      rw [u16Add_eq small] at fits
      intro f member
      rcases List.mem_append.mp member with old | later
      · exact held f (List.mem_append_left _ old)
      · rcases List.mem_cons.mp later with rfl | old
        · intro _
          rw [merged.2]
          exact ⟨Nat.add_pos_right _ due.2, fits⟩
        · exact held f (by simp [old])
  | emitControl alive running queued =>
      rw [queued] at held
      exact fun f member => held f (List.mem_cons_of_mem _ member)
  | stop | refused | pass | arrive | arriveLost | acceptFull | rejectFull | dropFull | dropQuiet
  | read | grantFull | overflow | write | shutdown | control | ignore | opened | failed | fin
  | reset | finished | credit | check | checkDead | publish | complete | publishDead
  | completeDead | cut | emitData | emitFin | mark | expireFull => exact held

end Track

namespace Session

/-! ## Calls that queue a frame -/

/-- `State::control` refuses a frame that it has to append. -/
def queueFull (s : Session) : Prop := maxControls ≤ s.controls.length

instance (s : Session) : Decidable s.queueFull := inferInstanceAs (Decidable (_ ≤ _))

/-- The error of a poll. -/
def Poll.error? : Poll → Option ErrorKind
  | .error e => some e
  | _ => none

/-- What the calls that queue a frame return. -/
def outcome (s : Session) : Action → Option (Session × Option ErrorKind)
  | .reserve target draw => some (s.reserve target draw)
  | .accept k => s.accept k
  | .reject k code => s.reject k code
  | .finish k => s.finish k
  | .pollRead k n => (s.pollRead k n).map fun result => (result.1, result.2.error?)
  | _ => none

/-- No call of `State::control` has found the queue full yet. -/
def unrefused (s : Session) : Session := { s with full := false }

/-- The call returns an error, and in it `State::control` finds the queue full. -/
def Refused (s : Session) (action : Action) (s' : Session) : Prop :=
  ∃ e, s.unrefused.outcome action = some (s', some e) ∧ s'.full = true

/-- The slots and the control queue are as they were. -/
def Unchanged (s s' : Session) : Prop :=
  s'.slots = s.slots ∧ s'.ids = s.ids ∧ s'.controls = s.controls

/--
With a full queue, no stream is accepted, none is rejected that is not refused or
finished already, and no read uses up the blocks that make a new CREDIT due.
-/
def Spares (s : Session) : Action → Prop
  | .accept k => s.queueFull → ∀ st, s.slots k = some st →
      ¬ (s.server = true ∧ st.check = none ∧ st.opened = false)
  | .reject k _ => s.queueFull → ∀ st, s.slots k = some st → s.server = true →
      st.opened = false →
        st.terminal = some (.ok ()) ∨ st.terminal = some (.error .connectionRefused)
  | .pollRead k n => s.queueFull → (∀ c ∈ s.controls, c.id = k → c.kind ≠ .credit) →
      ∀ st, s.slots k = some st → st.check = none → n ≠ 0 →
        ¬ (st.creditAt ≤ st.consumed + wholeBlocks st.input n ∧
          0 < st.consumed + wholeBlocks st.input n)
  | _ => True

/-- `control` returns an error for a CREDIT past the window, or because the queue is full. -/
theorem control_error {s s' : Session} {kind : Kind} {id : Nat} {p : List Byte} {e : ErrorKind}
    (taken : s.control kind id p = (s', some e)) :
    (e = .invalidData ∧ s' = s) ∨
      (s.queueFull ∧ s' = s.refusing ∧
        (kind = .credit → ∀ c ∈ s.controls, c.id = id → c.kind ≠ .credit)) := by
  by_cases credit : kind = .credit
  · subst credit
    rcases coalesce_cases id p s.controls with
      ⟨missing, others⟩ | ⟨before, c, after, -, -, -, ⟨-, merged⟩ | ⟨-, merged⟩⟩
    · simp only [control, if_true, missing] at taken
      split at taken
      · next full =>
        cases taken
        exact .inr ⟨full, rfl, fun _ => others⟩
      · cases taken
    · simp only [control, if_true, merged] at taken
      cases taken
      exact .inl ⟨rfl, rfl⟩
    · simp only [control, if_true, merged] at taken
      cases taken
  · rcases control_plain s kind credit id p with ⟨full, outcome⟩ | ⟨-, outcome⟩
    · cases taken.symm.trans outcome
      exact .inr ⟨full, rfl, fun same => (credit same).elim⟩
    · cases taken.symm.trans outcome

/-- What `control` does when it is the one to find the queue full. -/
theorem control_refused {s s' : Session} {kind : Kind} {id : Nat} {p : List Byte} {e : ErrorKind}
    (taken : s.control kind id p = (s', some e)) (unset : s.full = false)
    (set_ : s'.full = true) :
    s.queueFull ∧ s' = s.refusing ∧
      (kind = .credit → ∀ c ∈ s.controls, c.id = id → c.kind ≠ .credit) := by
  rcases control_error taken with ⟨-, rfl⟩ | refused
  · cases unset.symm.trans set_
  · exact refused

section Refusals

variable {s s' : Session}

theorem reserve_refused {target : Target} {draw : Nat}
    (refused : s.Refused (.reserve target draw) s') : s' = s.refusing := by
  rcases refused with ⟨e, taken, set_⟩
  simp only [outcome, Option.some.injEq, reserve] at taken
  split at taken
  · cases taken
    cases set_
  split at taken
  · cases taken
    cases set_
  split at taken
  · next queued =>
    cases taken
    exact (control_refused queued rfl set_).2.1
  · cases taken

theorem accept_refused {k : Nat} (refused : s.Refused (.accept k) s') :
    ∃ st, s.slots k = some st ∧ s.queueFull ∧ s.server = true ∧ st.check = none ∧
      st.opened = false ∧ s' = (s.set k { st with opened := true }).refusing := by
  rcases refused with ⟨e, taken, set_⟩
  simp only [outcome, accept] at taken
  split at taken
  · cases taken
  next st here =>
  split at taken
  · cases taken
    cases set_
  next unfailed =>
  split at taken
  · cases taken
    cases set_
  next role =>
  simp only [Bool.or_eq_true, Bool.not_eq_true', not_or, Bool.not_eq_false,
    Bool.not_eq_true] at role
  have queued := control_refused (Option.some.inj taken) rfl set_
  exact ⟨st, here, queued.1, role.1, unfailed, role.2, queued.2.1⟩

theorem reject_refused {k : Nat} {code : Byte} (refused : s.Refused (.reject k code) s') :
    ∃ st, s.slots k = some st ∧ s.queueFull ∧ s.server = true ∧ st.opened = false ∧
      s' = (s.set k (st.fail .connectionRefused)).refusing := by
  rcases refused with ⟨e, taken, set_⟩
  simp only [outcome, reject] at taken
  split at taken
  · cases taken
  next st here =>
  split at taken
  · cases taken
    cases set_
  next role =>
  simp only [Bool.or_eq_true, Bool.not_eq_true', not_or, Bool.not_eq_false,
    Bool.not_eq_true] at role
  have queued := control_refused (Option.some.inj taken) rfl set_
  exact ⟨st, here, queued.1, role.1, role.2, queued.2.1⟩

theorem finish_refused {k : Nat} (refused : s.Refused (.finish k) s') : s' = s.refusing := by
  rcases refused with ⟨e, taken, set_⟩
  simp only [outcome, finish] at taken
  split at taken
  · cases taken
  split at taken
  · split at taken
    · cases taken
      cases set_
    split at taken
    · cases taken
      cases set_
    exact (control_refused (Option.some.inj taken) rfl set_).2.1
  · cases taken

theorem pollRead_refused {k n : Nat} (refused : s.Refused (.pollRead k n) s') :
    ∃ st, s.slots k = some st ∧ s.queueFull ∧
      (∀ c ∈ s.controls, c.id = k → c.kind ≠ .credit) ∧ n ≠ 0 ∧ st.check = none ∧
      (st.drained n).due ∧ s' = (s.set k (st.polled n)).refusing := by
  rcases refused with ⟨e, taken, set_⟩
  rcases Option.map_eq_some_iff.mp taken with ⟨⟨t, poll⟩, polled, same⟩
  cases congrArg Prod.fst same
  rcases pollRead_cases polled with ⟨st, -, rfl, -⟩ | ⟨st, here, some_, unfailed, outcome⟩
  · cases set_
  rcases outcome with ⟨-, rfl, -⟩ | ⟨positive, queued, answered⟩ | ⟨e, positive, queued, -⟩
  · cases set_
  · rw [answered, Slot.answer] at same
    split at same <;> cases congrArg Prod.snd same
  · have refusal := control_refused queued rfl set_
    exact ⟨st, here, refusal.1, refusal.2.2 rfl, some_, unfailed, Slot.due_of_granting positive,
      refusal.2.1⟩

end Refusals

/-! ## What a refusal leaves -/

section Reached

variable {server : Bool} {ok : Session → Action → Prop} {s : Session}
  (reached : (machine server).ReachableBy ok s)
include reached

theorem reachable_window (k : Nat) :
    (s.track k).WindowOk ∧ ∀ f ∈ (s.track k).queue, Track.Bounded f := by
  refine reachable_track reached (A := fun _ => True)
    (P := fun t => t.WindowOk ∧ ∀ f ∈ t.queue, Track.Bounded f) (fun _ _ _ _ _ => trivial)
    (fun t fresh _ => ⟨fun st found => ?_, by simp [fresh.queue]⟩)
    (fun _ _ _ _ move held => ⟨Track.windowOk_move move held.1,
      Track.bounded_move move held.1 held.2⟩) k
  cases fresh.slot.symm.trans found

theorem reachable_cleared (k : Nat) {st : Slot} (here : s.slots k = some st) : st.Cleared := by
  refine reachable_track reached (A := fun _ => True)
    (P := fun t => ∀ st, t.slot = some st → st.Cleared) (fun _ _ _ _ _ => trivial)
    (fun t fresh _ st found => ?_) (fun _ _ _ _ move held => Track.cleared_move move held) k st here
  cases fresh.slot.symm.trans found

theorem reachable_role (k : Nat) : (s.track k).RoleOk := by
  refine reachable_track reached (A := fun _ => True) (P := Track.RoleOk)
    (fun _ _ _ _ _ => trivial) (fun t fresh _ => ⟨?_, ?_, ?_⟩)
    (fun _ _ _ _ move held => Track.roleOk_move move held) k
  · simp [fresh.queue]
  · simp [fresh.out]
  · simp [fresh.touched]

/-- The blocks a read of `n` bytes leaves counted. -/
theorem drained_consumed {k : Nat} {st : Slot} (here : s.slots k = some st)
    (unfailed : st.check = none) {n : Nat} (some_ : n ≠ 0) :
    (st.drained n).consumed = st.consumed + wholeBlocks st.input n := by
  have shared := (reachable_window reached k).1 st here unfailed
  apply drain_whole st.input (Nat.pos_of_ne_zero some_)
  simp only [Slot.Shared, window] at shared
  omega

/-- What a read grants is added to the window. -/
theorem polled_recvCredit {k : Nat} {st : Slot} (here : s.slots k = some st)
    (unfailed : st.check = none) (n : Nat) :
    (st.polled n).recvCredit = st.recvCredit + st.granting n ∧ st.granting n ≤ window := by
  have shared := (reachable_window reached k).1 st here unfailed
  have inside := Slot.shared_drained shared n
  have kept : (st.drained n).recvCredit = st.recvCredit := rfl
  simp only [Slot.Shared, kept] at inside
  have least : st.granting n ≤ (st.drained n).consumed := by
    simp only [Slot.granting, grant]
    split_ifs <;> omega
  refine ⟨u16Add_eq ?_, by omega⟩
  simp only [window] at inside
  omega

/-- A refused call leaves the session as it was exactly when it is one of the spared. -/
theorem refused_unchanged {action : Action} {s' : Session} (refused : s.Refused action s') :
    s.Unchanged s' ↔ s.Spares action := by
  have untouched : s.Unchanged s.refusing := ⟨rfl, rfl, rfl⟩
  have other : ∀ {k : Nat} {st st' : Slot}, s.slots k = some st → st' ≠ st →
      ¬ s.Unchanged (s.set k st').refusing := by
    rintro k st st' here different ⟨slots, -, -⟩
    have own := congrFun slots k
    simp only [refusing, set, if_true, here, Option.some.injEq] at own
    exact different own
  cases action with
  | reserve target draw =>
      rw [reserve_refused refused]
      exact iff_of_true untouched trivial
  | finish k =>
      rw [finish_refused refused]
      exact iff_of_true untouched trivial
  | accept k =>
      rcases accept_refused refused with ⟨st, here, full, server_, unfailed, waiting, rfl⟩
      refine iff_of_false (other here fun same => ?_) fun spared => ?_
      · rw [← same] at waiting
        cases waiting
      · exact spared full st here ⟨server_, unfailed, waiting⟩
  | reject k code =>
      rcases reject_refused refused with ⟨st, here, full, server_, waiting, rfl⟩
      constructor
      · intro unchanged _ st' found _ _
        cases here.symm.trans found
        have same : st.fail .connectionRefused = st := by
          by_contra different
          exact other here different unchanged
        unfold Slot.fail at same
        split at same
        · next finished => exact .inl finished
        · right
          rw [← same]
      · intro spared
        have again := Slot.fail_again (reachable_cleared reached k here)
          (spared full st here server_ waiting)
        rw [again]
        refine ⟨?_, rfl, rfl⟩
        funext j
        by_cases same : j = k
        · subst same
          simp [refusing, set, here]
        · simp [refusing, set, same]
  | pollRead k n =>
      rcases pollRead_refused refused with
        ⟨st, here, full, others, some_, unfailed, due, rfl⟩
      have counted := drained_consumed reached here unfailed some_
      refine iff_of_false (other here fun same => ?_) fun spared => ?_
      · have raised := (polled_recvCredit reached here unfailed n).1
        have positive := due.2
        rw [same, Slot.granting_of_due due] at raised
        omega
      · apply spared full others st here unfailed some_
        rw [← counted]
        exact due
  | _ =>
      rcases refused with ⟨e, taken, -⟩
      cases taken

/-! ## What a read takes and grants -/

omit reached in
/-- The bytes a poll returns. -/
def Poll.bytes : Poll → List Byte
  | .ready bytes => bytes
  | _ => []

omit reached in
theorem answer_bytes (st : Slot) (n : Nat) : (st.answer n).bytes = st.copied n := by
  unfold Slot.answer
  split_ifs with some_
  · rfl
  · exact (not_not.mp (not_or.mp some_).1).symm

/-- A poll of stream `k` returns every byte it takes, and queues what it grants. -/
structure Accounts (s s' : Session) (k : Nat) (poll : Poll) : Prop where
  bytes : (s.slots k).map Slot.held = (s'.slots k).map fun st => poll.bytes ++ st.held
  credit : ∃ amount : Nat,
    (s'.slots k).map Slot.recvCredit = (s.slots k).map (·.recvCredit + amount) ∧
      creditSum (s'.track k).queue = creditSum (s.track k).queue + amount

theorem pollRead_accounts {k n : Nat} {s' : Session} {poll : Poll}
    (spared : s.Spares (.pollRead k n)) (taken : s.pollRead k n = some (s', poll))
    (fits : poll ≠ .error .invalidData) : s.Accounts s' k poll := by
  rcases pollRead_cases taken with ⟨st, here, rfl, answered⟩ |
    ⟨st, here, some_, unfailed, outcome⟩
  · have empty : poll.bytes = [] := by
      rcases answered with ⟨-, rfl⟩ | ⟨e, -, rfl⟩ <;> rfl
    exact ⟨by simp [empty], 0, by simp, by simp⟩
  have raised := polled_recvCredit reached here unfailed n
  have counted := drained_consumed reached here unfailed some_
  have polled : ∀ t : Session, t.slots = (s.set k (st.polled n)).slots →
      creditSum (t.track k).queue = creditSum (s.track k).queue + st.granting n →
      s.Accounts t k (st.answer n) := by
    intro t slots queue
    have after : t.slots k = some (st.polled n) := by simp [slots, set]
    refine ⟨?_, st.granting n, ?_, queue⟩
    · rw [here, after, Option.map_some, Option.map_some, answer_bytes]
      exact congrArg some (drain_bytes st.input n [] st.consumed).symm
    · rw [here, after, Option.map_some, Option.map_some, raised.1]
  rcases outcome with ⟨none_, rfl, rfl⟩ | ⟨positive, queued, rfl⟩ | ⟨e, positive, queued, rfl⟩
  · apply polled _ rfl
    rw [none_, track_set_self]
    exact (Int.add_zero _).symm
  · apply polled
    · exact (congrArg (·.1.slots) queued).symm.trans (control_slots _ _ _ _)
    · have amount : fromBigEndian (bigEndian 2 (st.granting n)) = st.granting n := by
        have small := raised.2
        rw [fromBigEndian_bigEndian, Nat.mod_eq_of_lt]
        simp only [window] at small
        omega
      rcases control_credit (s.set k (st.polled n)) k (bigEndian 2 (st.granting n)) with
        outcome | ⟨-, outcome⟩ | ⟨before, c, after, queue, kind, own, ⟨-, outcome⟩ | ⟨fits_, outcome⟩⟩ <;>
        cases queued.symm.trans outcome
      · rw [track_queued_self _ _ rfl, track_set_self, creditSum_append,
          creditSum_credit (by rfl), Frame.amount, amount]
      · have controls : s.controls = before ++ c :: after := queue
        have member : c ∈ (s.track k).queue :=
          List.mem_filter.mpr ⟨by simp [controls], by simpa using own⟩
        have small := ((reachable_window reached k).2 c member kind).2
        have room : c.amount + st.granting n < 2 ^ 16 := by
          have bound := raised.2
          simp only [window] at small bound
          omega
        have merged := (Track.creditSum_merge (before.filter (·.id = k)) (after.filter (·.id = k))
          kind room).1
        have old : (s.track k).queue =
            before.filter (·.id = k) ++ c :: after.filter (·.id = k) := by
          simp [track, controls, own]
        rw [old, ← merged, amount]
        simp [track, mergeCredit, own]
  · rcases control_error queued with ⟨rfl, -⟩ | ⟨full, -, others⟩
    · exact (fits rfl).elim
    · refine (spared full (others rfl) st here unfailed some_ ?_).elim
      rw [← counted]
      exact Slot.due_of_granting positive

end Reached

/-! ## DATA behind OPENED -/

/-- OPENED of stream `k` is among the frames. -/
def Announced (frames : List Frame) (k : Nat) : Prop := ∃ g ∈ frames, g.id = k ∧ g.kind = .opened

theorem Announced.mono {frames more : List Frame} {k : Nat} (announced : Announced frames k)
    (all : ∀ g ∈ frames, g ∈ more) : Announced more k := by
  rcases announced with ⟨g, member, own⟩
  exact ⟨g, all g member, own⟩

theorem announced_iff (s : Session) (k : Nat) :
    Announced (s.emitted ++ s.controls) k ↔ (s.track k).Speaks .opened := by
  constructor
  · rintro ⟨g, member, own, kind⟩
    refine ⟨g, ?_, kind⟩
    rcases List.mem_append.mp member with sent | queued
    · exact .inr (List.mem_filter.mpr ⟨sent, by simpa using own⟩)
    · exact .inl (List.mem_filter.mpr ⟨queued, by simpa using own⟩)
  · rintro ⟨g, queued | sent, kind⟩
    · have found := List.mem_filter.mp queued
      exact ⟨g, List.mem_append_right _ found.1, by simpa using found.2, kind⟩
    · have found := List.mem_filter.mp sent
      exact ⟨g, List.mem_append_left _ found.1, by simpa using found.2, kind⟩

/-- DATA and FIN follow the OPENED of their stream. -/
def Behind (frames : List Frame) : Prop :=
  ∀ before f, before ++ [f] <+: frames → f.kind = .data ∨ f.kind = .fin → Announced before f.id

/-- An open stream of a server has its OPENED queued or sent, and sends only behind it. -/
structure Told (s : Session) : Prop where
  opened : s.failure = none → ∀ k st, s.slots k = some st → st.check = none →
    st.opened = true → Announced (s.emitted ++ s.controls) k
  ordered : Behind s.emitted

theorem behind_push {frames : List Frame} (before_ : Behind frames) {f : Frame}
    (behind : f.kind = .data ∨ f.kind = .fin → Announced frames f.id) :
    Behind (frames ++ [f]) := by
  intro before g early kind
  rcases List.prefix_concat_iff.mp early with whole | part
  · have both := List.append_inj' whole rfl
    cases List.singleton_inj.mp both.2
    rw [both.1]
    exact behind kind
  · exact before_ before g part kind

/-- A frame of a live, open stream goes out behind its OPENED when the queue is empty. -/
theorem told_frame {s : Session} (told : s.Told) (alive : s.failure = none)
    (drained : s.controls = []) {f : Frame} {st : Slot} (here : s.slots f.id = some st)
    (live : st.live = true) (opened : st.opened = true) (st' : Slot) (touch : List Touched) :
    ((s.set f.id st').push f touch).Told := by
  have held := told.opened alive
  rw [drained, List.append_nil] at held
  have announced := held f.id st here (Slot.check_of_live live) opened
  refine ⟨fun _ k after found unfailed waiting => ?_, behind_push told.ordered fun _ => announced⟩
  have sent : Announced s.emitted k := by
    by_cases same : k = f.id
    · rw [same]
      exact announced
    · exact held k after (by simpa [push, set, same] using found) unfailed waiting
  apply sent.mono
  exact fun g member => List.mem_append_left _ (List.mem_append_left _ member)

/-- One piece of a batch keeps DATA behind OPENED. -/
theorem emits_told {s s' : Session} (emits : Emits s s') (alive : s.failure = none)
    (plain : ∀ f ∈ s.controls, f.kind ≠ .data ∧ f.kind ≠ .fin) (told : s.Told) :
    s'.Told ∧ s'.failure = none ∧ ∀ f ∈ s'.controls, f.kind ≠ .data ∧ f.kind ≠ .fin := by
  cases emits with
  | shaped | served => exact ⟨⟨told.opened, told.ordered⟩, alive, plain⟩
  | @control c rest queue =>
      rw [queue] at plain
      have own := plain c List.mem_cons_self
      refine ⟨⟨fun _ k st here unfailed waiting => ?_, ?_⟩, alive,
        fun f member => plain f (List.mem_cons_of_mem _ member)⟩
      · have announced := told.opened alive k st here unfailed waiting
        rw [queue] at announced
        show Announced ((s.emitted ++ [c]) ++ rest) k
        rwa [List.append_assoc]
      · exact behind_push told.ordered fun kind => (kind.elim own.1 own.2).elim
  | data n drained here live opened =>
      exact ⟨told_frame told alive drained (f := ⟨.data, _, _⟩) here live opened _ _, alive, plain⟩
  | fin drained here live opened =>
      exact ⟨told_frame told alive drained (f := ⟨.fin, _, _⟩) here live opened _ _, alive, plain⟩

/-- A batch keeps DATA behind OPENED. -/
theorem emission_told {s s' : Session} (emission : Emission s s') (alive : s.failure = none)
    (plain : ∀ f ∈ s.controls, f.kind ≠ .data ∧ f.kind ≠ .fin) (told : s.Told) :
    s'.Told ∧ s'.failure = none ∧ ∀ f ∈ s'.controls, f.kind ≠ .data ∧ f.kind ≠ .fin := by
  induction emission with
  | refl => exact ⟨told, alive, plain⟩
  | tail _ last held => exact emits_told last held.2.1 held.2.2 held.1

/-- A successful `accept` has its OPENED in the queue. -/
theorem accept_announced {s s' : Session} {k : Nat} {e : Option ErrorKind}
    (spared : s.Spares (.accept k)) (taken : s.accept k = some (s', e)) {st : Slot}
    (here : s.slots k = some st) (server : s.server = true) (unfailed : st.check = none)
    (waiting : st.opened = false) : Announced (s'.emitted ++ s'.controls) k := by
  simp only [accept, here, unfailed, server, waiting, Bool.not_true, Bool.or_self,
    Bool.false_eq_true, if_false, Option.some.injEq] at taken
  rcases control_plain (s.set k { st with opened := true }) .opened (by simp) k [] with
    ⟨full, -⟩ | ⟨-, outcome⟩
  · exact (spared full st here ⟨server, unfailed, waiting⟩).elim
  · cases taken.symm.trans outcome
    exact ⟨⟨.opened, k, []⟩, by simp [queued], rfl, rfl⟩

/-- A slot that is open after a step was open before, or `accept` has opened it. -/
theorem effect_opened {s : Session} {k : Nat} {action : Action} {o o' : Option Slot}
    (effect : s.Effect k action o o') (server : s.server = true)
    (calm : ∀ d, action ≠ .batch d) {st' : Slot} (after : o' = some st')
    (unfailed : st'.check = none) (opened : st'.opened = true) :
    ∃ st, o = some st ∧ st.check = none ∧
      (st.opened = true ∨ st.opened = false ∧ action = .accept k) := by
  have failing : ∀ (st : Slot) (e : ErrorKind), (st.fail e).check = none →
      (st.fail e).opened = true → st.check = none ∧ st.opened = true := by
    intro st e sound open_
    rcases st.fail_cases e with ⟨finished, same⟩ | failed
    · exact ⟨Slot.check_of_ok finished, same ▸ open_⟩
    · cases failed.symm.trans sound
  cases effect with
  | same => exact ⟨st', after, unfailed, .inl opened⟩
  | reserve | arrive =>
      cases after
      cases opened
  | accept _ sound waiting =>
      cases after
      exact ⟨_, rfl, sound, .inr ⟨waiting, rfl⟩⟩
  | reject | fail | expire =>
      cases after
      have kept := failing _ _ unfailed opened
      exact ⟨_, rfl, kept.1, .inl kept.2⟩
  | drop => cases after
  | read n some_ sound =>
      cases after
      exact ⟨_, rfl, sound, .inl opened⟩
  | write buf sound | shutdown sound =>
      cases after
      exact ⟨_, rfl, sound, .inl opened⟩
  | check live | publish bs hd got complete at_ own live =>
      cases after
      exact ⟨_, rfl, Slot.check_of_live live, .inl opened⟩
  | @deliver st _ draw hd p at_ whole own other live delivered =>
      cases after
      refine ⟨st, rfl, Slot.check_of_live live, ?_⟩
      generalize hd.kind = kind at delivered
      cases delivered with
      | opened client | failed client | finished client => cases server.symm.trans client
      | fin | credit => exact .inl opened
      | reset => exact .inl (failing st _ unfailed opened).2
  | batch d => exact (calm d rfl).elim
  | mark =>
      cases after
      next st =>
      have flushed := st.marked_same (s.touched.filter (·.id = k))
      exact ⟨st, rfl, flushed.check ▸ unfailed, .inl (flushed.opened ▸ opened)⟩

section Reached

variable {server : Bool} {ok : Session → Action → Prop} {s : Session}
  (reached : (machine server).ReachableBy ok s)
include reached

theorem controls_plain : ∀ f ∈ s.controls, f.kind ≠ .data ∧ f.kind ≠ .fin := by
  intro f member
  have own := (reachable_role reached f.id).queued f (List.mem_filter.mpr ⟨member, by simp⟩)
  constructor <;> intro kind <;> rw [kind] at own <;> revert own <;>
    cases (s.track f.id).server <;> decide

/-- What is queued or sent stays so, until the session fails. -/
theorem step_announced {s' : Session} {action : Action} (taken : s.step action = some s')
    (alive : s'.failure = none) {k : Nat} (announced : Announced (s.emitted ++ s.controls) k) :
    Announced (s'.emitted ++ s'.controls) k := by
  rw [announced_iff] at announced ⊢
  have moves := step_moves (reachable_wired reached).2 taken k
  have kept := moves.invariant
    (P := fun t => t.failure ≠ none ∨ t.Speaks .opened)
    (fun _ _ _ _ move held => Track.speaks_move move held) (.inr announced)
  exact kept.resolve_left fun failed => failed alive

end Reached

theorem step_told {s s' : Session} {action : Action} {ok : Session → Action → Prop}
    (reached : (machine true).ReachableBy ok s) (spared : s.Spares action)
    (taken : s.step action = some s') (told : s.Told) : s'.Told := by
  have sound := (reachable_wired reached).2
  by_cases batch_ : ∃ d, action = .batch d
  · rcases batch_ with ⟨d, rfl⟩
    rcases (batch_cases (task_some taken).2).2 with rfl | ⟨e, failed, rfl⟩ | ⟨alive, rfl⟩
    · exact told
    · exact ⟨told.opened, told.ordered⟩
    · have kept := emission_told (assembled_emits s d) alive (controls_plain reached) told
      exact ⟨kept.1.opened, kept.1.ordered⟩
  · have calm : ∀ d, action ≠ .batch d := fun d same => batch_ ⟨d, same⟩
    have emitted := (step_writer sound taken calm).1
    refine ⟨fun alive k st' after unfailed opened => ?_, ?_⟩
    · have effect := step_effect sound taken k
      rcases effect_opened effect (reachable_server reached) calm after unfailed opened with
        ⟨st, here, sound_, before | ⟨waiting, rfl⟩⟩
      · have unbroken : s.failure = none := by
          by_contra failed
          exact (step_moves sound taken k).invariant (P := fun t => t.failure ≠ none)
            (fun _ _ _ _ move held => Track.failure_move move held) failed alive
        exact step_announced reached taken alive (told.opened unbroken k st here sound_ before)
      · rcases Option.map_eq_some_iff.mp (call_some taken) with ⟨⟨_, e⟩, accepted, rfl⟩
        exact accept_announced spared accepted here (reachable_server reached) sound_ waiting
    · rw [emitted]
      exact told.ordered

/-! ## The claim and a run that breaks it -/

theorem reachable_told {ok : Session → Action → Prop} {s : Session}
    (spares : ∀ s action, ok s action → s.Spares action)
    (reached : (machine true).ReachableBy ok s) : s.Told := by
  refine reached.invariant ?_ fun s action s' before told fine taken =>
    step_told before (spares s action fine) taken told
  rintro s ⟨traffic, draw, preamble, valid, rfl⟩
  refine ⟨fun _ k st here => ?_, fun before f early => ?_⟩
  · cases here
  · exact absurd (List.prefix_nil.mp early) (by simp)

/--
A call that finds the control queue full leaves the slots and the queue as they
were exactly when it is one of the spared.  A poll of a spared stream returns
every byte it takes and queues what it grants, unless the CREDIT would pass the
window; and in runs of spared calls a server sends DATA and FIN only behind the
OPENED of their stream.
-/
theorem refusals_contained {server : Bool} {ok : Session → Action → Prop} {s : Session}
    (reached : (machine server).ReachableBy ok s) :
    (∀ action s', s.Refused action s' → (s.Unchanged s' ↔ s.Spares action)) ∧
      (∀ k n s' poll, s.Spares (.pollRead k n) → s.pollRead k n = some (s', poll) →
        poll ≠ .error .invalidData → s.Accounts s' k poll) ∧
      (server = true → (∀ s action, ok s action → s.Spares action) → Behind s.emitted) := by
  refine ⟨fun action s' refused => refused_unchanged reached refused,
    fun k n s' poll spared taken fits => pollRead_accounts reached spared taken fits, ?_⟩
  rintro rfl spares
  exact (reachable_told spares reached).ordered

/-- A new server session of the default ranges that draws the least of every range. -/
def newServer : Session := Session.start true (Traffic.default.narrowed fun _ => 0) 0

theorem start_newServer : (machine true).start newServer :=
  ⟨_, _, _, Traffic.validate_default, rfl⟩

/-- A server reads eight OPEN frames that it admits and sixty-four that it refuses. -/
def crowding : List Action :=
  (List.range 72).flatMap fun i => readsIn ⟨.open, 2 * i + 1, Target.loopback.payload⟩

theorem refusals_contained_crowded : ∃ s, (machine true).run newServer crowding = some s ∧
    s.queueFull ∧
    (∀ action s', s.Refused action s' → (s.Unchanged s' ↔ s.Spares action)) ∧
    (∀ k n s' poll, s.Spares (.pollRead k n) → s.pollRead k n = some (s', poll) →
      poll ≠ .error .invalidData → s.Accounts s' k poll) ∧
    Behind s.emitted := by
  have both : ((machine true).run newServer crowding).map (fun s => decide s.queueFull) =
      some true := by
    decide +kernel
  rcases Option.map_eq_some_iff.mp both with ⟨s, ran, full⟩
  have fine : ∀ action ∈ crowding, ∀ s, Spares s action := by
    intro action member s
    simp only [crowding, List.mem_flatMap, readsIn] at member
    rcases member with ⟨i, -, member⟩
    simp only [List.cons_append, List.nil_append, List.mem_cons, List.not_mem_nil, or_false,
      Target.loopback, reduceCtorEq, if_false] at member
    rcases member with rfl | rfl | rfl | rfl <;> trivial
  have reached := Machine.run_reachableBy fine (.start start_newServer) ran
  have contained := refusals_contained reached
  exact ⟨s, ran, of_decide_eq_true full, contained.1, contained.2.1,
    contained.2.2 rfl fun _ _ spared => spared⟩

/-- Stream 1 is taken from the channel by the accept loop. -/
def taking : List Action := crowding ++ [.incoming]

/-- DATA for stream 1 is sent, and no OPENED for it is sent or queued. -/
def unannounced (s : Session) : Bool :=
  s.emitted.any (fun f => f.id == 1 && f.kind == .data) &&
    !(s.emitted ++ s.controls).any fun f => f.id == 1 && f.kind == .opened

/--
With the queue full, `accept` of stream 1 returns an error and leaves the stream
open; then a write is accepted and the next batch carries it.
-/
theorem refusal_spoils : ∃ s s' t, (machine true).Reachable s ∧ s.Refused (.accept 1) s' ∧
    (s.slots 1).map Slot.opened = some false ∧ (s'.slots 1).map Slot.opened = some true ∧
    (machine true).run s [.accept 1, .pollWrite 1 [7], .batch ⟨0, 0, fun _ => 0⟩] = some t ∧
    (∃ f ∈ t.emitted, f.id = 1 ∧ f.kind = .data) ∧ ¬ Announced (t.emitted ++ t.controls) 1 := by
  have both : ((machine true).run newServer taking).bind (fun s =>
      (s.unrefused.outcome (.accept 1)).bind fun result =>
        ((machine true).run s
          [.accept 1, .pollWrite 1 [7], .batch ⟨0, 0, fun _ => 0⟩]).map fun t =>
          (result.2, result.1.full, (s.slots 1).map Slot.opened,
            (result.1.slots 1).map Slot.opened, t.unannounced)) =
      some (some .other, true, some false, some true, true) := by
    decide +kernel
  rcases Option.bind_eq_some_iff.mp both with ⟨s, ran, rest⟩
  rcases Option.bind_eq_some_iff.mp rest with ⟨⟨s', e⟩, answered, rest⟩
  rcases Option.map_eq_some_iff.mp rest with ⟨t, later, same⟩
  simp only [Prod.mk.injEq] at same
  rcases same with ⟨rfl, full, waiting, opened, seen⟩
  simp only [unannounced, Bool.and_eq_true, Bool.not_eq_true', List.any_eq_true,
    List.any_eq_false, beq_iff_eq] at seen
  refine ⟨s, s', t, Machine.run_reachable (.start start_newServer) ran, ⟨_, answered, full⟩,
    waiting, opened, later, seen.1, ?_⟩
  rintro ⟨g, member, own⟩
  exact seen.2 g member own

end Session

end Veil.Rust

import Veil.Rust.Wire

/-!
# What holds of every track of a Rust session

A stream has nothing before its identifier is passed, and every frame queued or
sent for it can be sent.  The rule for invariants of tracks is stated once: what
every move preserves holds of every track of every reachable session.
-/

namespace Veil.Rust

open Veil.Lib
open Veil.Mux (Byte Kind Header Frame blockSize)

namespace Slot

/-- A slot that fails has an error, unless it had finished. -/
theorem fail_cases (st : Slot) (e : ErrorKind) :
    (st.terminal = some (.ok ()) ∧ st.fail e = st) ∨ (st.fail e).check = some e := by
  unfold fail
  split
  · next finished => exact .inl ⟨finished, rfl⟩
  · exact .inr rfl

theorem check_of_live {st : Slot} (live : st.live = true) : st.check = none := by
  have unended : st.terminal = none := Option.isNone_iff_eq_none.mp live
  simp [check, unended]

theorem check_of_ok {st : Slot} (finished : st.terminal = some (.ok ())) : st.check = none := by
  simp [check, finished]

/-- A live slot that fails is not live any more. -/
theorem fail_dead (st : Slot) (e : ErrorKind) : (st.fail e).live = false := by
  unfold fail
  split
  · next finished => simp [live, finished]
  · rfl

theorem fail_live_check {st : Slot} (live : st.live = true) (e : ErrorKind) :
    (st.fail e).check = some e := by
  rcases st.fail_cases e with ⟨finished, -⟩ | failed
  · simp [Slot.live, finished] at live
  · exact failed

/-- What a written batch leaves of a slot. -/
structure Flushed (st st' : Slot) : Prop where
  opened : st'.opened = st.opened
  localFin : st'.localFin = st.localFin
  finSent : st'.finSent = st.finSent
  remoteFin : st'.remoteFin = st.remoteFin
  sendCredit : st'.sendCredit = st.sendCredit
  recvCredit : st'.recvCredit = st.recvCredit
  consumed : st'.consumed = st.consumed
  creditAt : st'.creditAt = st.creditAt
  input : st'.input = st.input
  output : st'.output = st.output
  check : st'.check = st.check
  live : st'.live = true → st.live = true

theorem Flushed.trans {st st' st'' : Slot} (first : Flushed st st') (second : Flushed st' st'') :
    Flushed st st'' where
  opened := second.opened.trans first.opened
  localFin := second.localFin.trans first.localFin
  finSent := second.finSent.trans first.finSent
  remoteFin := second.remoteFin.trans first.remoteFin
  sendCredit := second.sendCredit.trans first.sendCredit
  recvCredit := second.recvCredit.trans first.recvCredit
  consumed := second.consumed.trans first.consumed
  creditAt := second.creditAt.trans first.creditAt
  input := second.input.trans first.input
  output := second.output.trans first.output
  check := second.check.trans first.check
  live after := first.live (second.live after)

theorem flushed_same (st : Slot) (t : Touched) : Flushed st (st.flushed t) := by
  unfold flushed
  cases t.done with
  | true =>
      cases live : st.live with
      | true =>
          have check := check_of_live live
          cases t.fin <;> constructor <;> first | rfl | exact check.symm | exact fun _ => live
      | false => cases t.fin <;> constructor <;> first | rfl | exact id
  | false => cases t.fin <;> constructor <;> first | rfl | exact id

theorem marked_same (st : Slot) (touched : List Touched) : Flushed st (st.marked touched) := by
  induction touched generalizing st with
  | nil => exact ⟨rfl, rfl, rfl, rfl, rfl, rfl, rfl, rfl, rfl, rfl, rfl, id⟩
  | cons t rest induction => exact (st.flushed_same t).trans (induction (st.flushed t))

end Slot

namespace Track

/-- Nothing exists of a stream before its identifier is passed. -/
structure Blank (t : Track) : Prop where
  slot : t.slot = none
  queue : t.queue = []
  touched : t.touched = []
  out : t.out = []
  inn : t.inn = []
  away : t.progress = .away

/-- The frame can be sent, and it is one of this stream. -/
def Formed (t : Track) (f : Frame) : Prop := f.id = t.id ∧ f.Valid

/-- Where a track can be, and which frames it holds. -/
structure Placed (t : Track) : Prop where
  blank : t.above = true → t.Blank
  odd : t.slot ≠ none → t.id % 2 = 1 ∧ t.id < 2 ^ 32
  queued : ∀ f ∈ t.queue, t.Formed f
  sent : ∀ f ∈ t.out, t.Formed f

theorem formed_append {t : Track} {queue : List Frame} {f : Frame}
    (queued : ∀ f ∈ queue, t.Formed f) (id : t.id % 2 = 1 ∧ t.id < 2 ^ 32) (own : f.id = t.id)
    (length : f.kind.lengthOk f.payload.length = true) : ∀ g ∈ queue ++ [f], t.Formed g := by
  intro g member
  rcases List.mem_append.mp member with old | new
  · exact queued g old
  · rw [List.mem_singleton.mp new]
    refine ⟨own, ?_, ?_, length⟩
    · rw [Frame.header, own]
      exact id.1
    · rw [Frame.header, own]
      exact id.2

/-- A slot is there, so the identifier has been passed and is a valid one. -/
theorem Placed.here {t : Track} (held : t.Placed) {st : Slot} (here : t.slot = some st) :
    t.above = false ∧ t.id % 2 = 1 ∧ t.id < 2 ^ 32 := by
  refine ⟨?_, held.odd (by simp [here])⟩
  by_contra new
  cases (held.blank (by simpa using new)).slot.symm.trans here

theorem placed_move {event : Event} {t t' : Track} (move : Move event t t') (held : t.Placed) :
    t'.Placed := by
  cases move with
  | fail e alive =>
      refine ⟨fun new => ?_, fun found => held.odd ?_, by simp, held.sent⟩
      · have blank := held.blank new
        exact { blank with slot := by simp [blank.slot], queue := rfl }
      · simpa using found
  | stop | refused => exact { held with blank := fun new => { held.blank new with } }
  | reserve p creditAt client new alive valid short =>
      have length : Kind.lengthOk .open p.length = true := by
        simp only [Kind.lengthOk, Bool.and_eq_true, decide_eq_true_eq]
        exact short
      exact ⟨by simp, fun _ => valid, formed_append held.queued valid rfl length, held.sent⟩
  | pass => exact ⟨by simp, held.odd, held.queued, held.sent⟩
  | arrive p creditAt server new valid | arriveLost creditAt server new valid =>
      exact ⟨by simp, fun _ => valid, held.queued, held.sent⟩
  | refuse p server new valid =>
      exact ⟨by simp, held.odd, formed_append held.queued valid rfl rfl, held.sent⟩
  | accept here | reject code here | finish here | expire alive running here =>
      have placed := held.here here
      refine ⟨fun new => ?_, fun _ => placed.2, formed_append held.queued placed.2 rfl rfl,
        held.sent⟩
      cases placed.1.symm.trans new
  | drop here =>
      have placed := held.here here
      refine ⟨fun new => ?_, by simp, formed_append held.queued placed.2 rfl rfl, held.sent⟩
      cases placed.1.symm.trans new
  | grant n here =>
      have placed := held.here here
      refine ⟨fun new => ?_, fun _ => placed.2,
        formed_append held.queued placed.2 rfl (by simp [Slot.creditFrame, Kind.lengthOk]),
        held.sent⟩
      cases placed.1.symm.trans new
  | @merge t st before after c n here unfailed due queued kind fits =>
      have placed := held.here here
      have all := held.queued
      rw [queued] at all
      have first := all c (by simp)
      refine ⟨fun new => ?_, fun _ => placed.2, fun f member => ?_, held.sent⟩
      · cases placed.1.symm.trans new
      · rcases List.mem_append.mp member with old | later
        · exact all f (List.mem_append_left _ old)
        · rcases List.mem_cons.mp later with rfl | old
          · refine ⟨first.1, first.2.1, first.2.2.1, ?_⟩
            simp [mergeCredit, Frame.header, kind, Kind.lengthOk]
          · exact all f (by simp [old])
  | acceptFull here | rejectFull here | read n here | grantFull n here | overflow n here
  | write p here | shutdown here | opened f kind at_ here | failed f kind e at_ here
  | fin f kind at_ here | reset f kind at_ here | finished f kind at_ here
  | credit f kind at_ here | check away here | publish bs at_ here | complete bs at_ here
  | expireFull alive running here =>
      have placed := held.here here
      refine ⟨fun new => ?_, fun _ => placed.2, held.queued, held.sent⟩
      cases placed.1.symm.trans new
  | dropFull here | dropQuiet here =>
      have placed := held.here here
      refine ⟨fun new => ?_, by simp, held.queued, held.sent⟩
      cases placed.1.symm.trans new
  | control away old | checkDead away dead old =>
      refine ⟨fun new => ?_, held.odd, held.queued, held.sent⟩
      cases old.symm.trans new
  | ignore f at_ | publishDead bs at_ | completeDead bs at_ | cut bs at_ =>
      refine ⟨fun new => ?_, held.odd, held.queued, held.sent⟩
      cases (held.blank new).away.symm.trans at_
  | @emitControl t c rest alive running queued =>
      have all := held.queued
      rw [queued] at all
      refine ⟨fun new => ?_, held.odd, fun f member => all f (List.mem_cons_of_mem _ member), ?_⟩
      · cases (held.blank new).queue.symm.trans queued
      · intro f member
        rcases List.mem_append.mp member with old | new
        · exact held.sent f old
        · rw [List.mem_singleton.mp new]
          exact all c (by simp)
  | emitData n alive running here live opened pending some_ available small =>
      have placed := held.here here
      refine ⟨fun new => ?_, fun _ => placed.2, held.queued,
        formed_append held.sent placed.2 rfl ?_⟩
      · cases placed.1.symm.trans new
      · simp only [Kind.lengthOk, List.length_take, Bool.and_eq_true, decide_eq_true_eq]
        omega
  | emitFin alive running here =>
      have placed := held.here here
      refine ⟨fun new => ?_, fun _ => placed.2, held.queued,
        formed_append held.sent placed.2 rfl rfl⟩
      cases placed.1.symm.trans new
  | mark =>
      refine ⟨fun new => ?_, fun found => held.odd ?_, held.queued, held.sent⟩
      · have blank := held.blank new
        exact { blank with slot := by simp [blank.slot], touched := rfl }
      · simpa using found

theorem above_move {event : Event} {t t' : Track} (move : Move event t t')
    (passed : t.above = false) : t'.above = false := by
  cases move <;> first | exact passed | rfl

theorem failure_move {event : Event} {t t' : Track} (move : Move event t t')
    (failed : t.failure ≠ none) : t'.failure ≠ none := by
  cases move <;> first | exact failed | exact Option.some_ne_none _

/-- A track on which nothing has happened. -/
structure Fresh (t : Track) : Prop extends t.Blank where
  failure : t.failure = none
  full : t.full = false

end Track

namespace Session

section Reached

variable {server : Bool} {ok : Session → Action → Prop} {s : Session}
  (reached : (machine server).ReachableBy ok s)
include reached

/-- The rule for tracks: what every possible move preserves holds of every track. -/
theorem reachable_track {A : Event → Prop} {P : Track → Prop}
    (only : ∀ s action event, ok s action → s.Occurs action event → A event)
    (initially : ∀ t : Track, t.Fresh → t.server = server → P t)
    (preserved : ∀ event t t', A event → Track.Move event t t' → P t → P t') (k : Nat) :
    P (s.track k) := by
  refine reached.invariant (P := fun s => P (s.track k)) ?_ ?_
  · rintro s ⟨traffic, draw, preamble, valid, rfl⟩
    exact initially _ ⟨⟨rfl, rfl, rfl, rfl, rfl, rfl⟩, rfl, rfl⟩ rfl
  · intro s action s' before held fine taken
    have moves := step_moves (reachable_wired before).2 taken k
    exact moves.invariant (fun event t t' occurs move =>
      preserved event t t' (only s action event fine occurs) move) held

theorem reachable_placed (k : Nat) : (s.track k).Placed := by
  refine reachable_track reached (A := fun _ => True) (fun _ _ _ _ _ => trivial)
    (fun t fresh _ => ?_) (fun _ _ _ _ move held => Track.placed_move move held) k
  refine ⟨fun _ => fresh.toBlank, fun found => (found fresh.slot).elim, ?_, ?_⟩
  · simp [fresh.queue]
  · simp [fresh.out]

/-- Every frame put into a batch can be sent. -/
theorem emitted_valid {f : Frame} (member : f ∈ s.emitted) : f.Valid :=
  ((reachable_placed reached f.id).sent f (List.mem_filter.mpr ⟨member, by simp⟩)).2

end Reached

end Session

end Veil.Rust

import Veil.Rust.Sending

/-!
# The wakers of a stream and the permit of the writer

A slot stores four wakers.  A call that returns pending stores the waker of its
task in one of them, in place of what was there, and an event that may end the
wait takes it and wakes it at once; the source takes no waker without waking it.
The wakers of a dropped stream go with its slot.

`write_loop` makes a `Notified` before each batch and awaits it when the batch
is empty.  `notify_one` wakes the writer where it is parked, and otherwise leaves
the one permit that the next await takes.

A waker that is stored belongs to a call whose condition is still false.  The
one exception is a `ready` on a server's stream that `accept` has opened: both
take `&mut self`, so nobody waits for such a waker any more.
-/

namespace Veil.Rust

open Veil.Lib
open Veil.Mux (Byte Kind Header Frame blockSize headerSize)

/-! ## The calls that wait -/

/-- The four wakers of a slot. -/
inductive Place where
  | read
  | write
  | ready
  | done
  deriving DecidableEq, Repr

/-- The calls that can return pending. -/
inductive Call where
  | read (n : Nat)
  | write (buf : List Byte)
  | flush
  | shutdown
  | ready
  | finish
  | cancelled
  deriving DecidableEq, Repr

namespace Call

/-- Where the call stores its waker. -/
def place : Call → Place
  | .read _ => .read
  | .write _ | .flush | .shutdown => .write
  | .ready => .ready
  | .finish | .cancelled => .done

/-- The call changes nothing but its waker. -/
def waits : Call → Bool
  | .read _ | .write _ | .shutdown => false
  | .flush | .ready | .finish | .cancelled => true

end Call

namespace Slot

/-- `terminal` is not `Some(Ok(()))`. -/
def unfinished (st : Slot) : Bool :=
  match st.terminal with
  | some (.ok _) => false
  | _ => true

end Slot

namespace Session

/-- The closure of `Stream::ready`: whether the stream has been opened. -/
def pollReady (s : Session) (k : Nat) : Option (Except ErrorKind Bool) :=
  (s.slots k).map fun st =>
    match st.check with
    | some e => .error e
    | none => .ok st.opened

/-- The closure of `Stream::finish`: whether the stream has finished. -/
def pollFinish (s : Session) (k : Nat) : Option (Except ErrorKind Bool) :=
  (s.slots k).map fun st =>
    match st.check with
    | some e => .error e
    | none => .ok (!st.unfinished)

/-- The closure of `Stream::cancelled`: whether the stream is terminal. -/
def pollCancelled (s : Session) (k : Nat) : Option Bool := (s.slots k).map fun st => !st.live

/-- The call would return pending if it were polled now. -/
def pending (s : Session) (k : Nat) : Call → Bool
  | .read n =>
      match s.pollRead k n with
      | some (_, .pending) => true
      | _ => false
  | .write buf =>
      match s.pollWrite k buf with
      | some (_, .ok none) => true
      | _ => false
  | .flush =>
      match s.pollFlush k with
      | some (.ok false) => true
      | _ => false
  | .shutdown =>
      match s.pollShutdown k with
      | some (_, .ok false) => true
      | _ => false
  | .ready =>
      match s.pollReady k with
      | some (.ok false) => true
      | _ => false
  | .finish =>
      match s.pollFinish k with
      | some (.ok false) => true
      | _ => false
  | .cancelled =>
      match s.pollCancelled k with
      | some false => true
      | _ => false

/-! ## Wakers stored and woken -/

/-- The call whose waker a step stores in the slot of stream `k`. -/
def registered (s : Session) (k : Nat) : Action → Option Call
  | .pollRead j n =>
      -- The waker is stored before the CREDIT is queued, so also when that fails.
      if j = k ∧ n ≠ 0 ∧
          (s.slots k).any fun st => st.check.isNone && st.answer n == .pending then
        some (.read n)
      else none
  | .pollWrite j buf => if j = k ∧ s.pending k (.write buf) then some (.write buf) else none
  | .pollShutdown j => if j = k ∧ s.pending k .shutdown then some .shutdown else none
  | _ => none

/-- The streams whose turn in a round wakes the writer of the stream. -/
def roundVisits (limit lead : Nat) (share : Nat → Nat) : List Nat → Session → List Nat
  | [], _ => []
  | k :: rest, s =>
      if limit ≤ lead + s.out.length + headerSize then []
      else
        (if (s.slots k).any fun st => st.live && st.opened then [k] else []) ++
          roundVisits limit lead share rest (turn limit lead (share (lead + s.out.length)) k s).1

/-- The streams that all rounds of a batch come to. -/
def roundsVisits (limit lead : Nat) (share : Nat → Nat) (ids : List Nat) : Nat → Session → List Nat
  | 0, _ => []
  | fuel + 1, s =>
      roundVisits limit lead share ids s ++
        match round limit lead share ids false s with
        | (s, true) => roundsVisits limit lead share ids fuel s
        | (_, false) => []

/-- The streams that a batch comes to. -/
def visits (s : Session) (d : Draws) : List Nat :=
  roundsVisits (s.limit d) s.lead (s.share d) (s.withControls d).sendingOrder (s.limit d)
    (s.withControls d)

/-- The writer has nothing to send: no control, no DATA with credit and no FIN. -/
def Idle (s : Session) : Prop := s.controls = [] ∧ s.ready = 0 ∧ s.needsFin = false

instance (s : Session) : Decidable s.Idle := inferInstanceAs (Decidable (_ ∧ _ ∧ _))

/-- `Inner::fail` fails the stream, and so wakes it. -/
def failsAt (s : Session) (k : Nat) : Bool :=
  s.failure.isNone && (s.slots k).any Slot.unfinished

/-- A step takes the waker at this place of stream `k`, and wakes it. -/
def woken (s : Session) (k : Nat) (p : Place) : Action → Bool
  | .reject j _ => j == k && s.server && (s.slots k).any fun st => !st.opened && st.unfinished
  | .close | .fail _ | .failTask => s.failsAt k
  | .recv _ =>
      -- `published` bytes wake the reader only.
      p == .read &&
        match s.reader with
        | .data hd _ => hd.id == k && (s.slots k).any fun st => st.live && !st.input.isEmpty
        | _ => false
  | .dispatch _ =>
      match s.reader with
      | .payload hd bs =>
          hd.id == k && hd.kind != .credit &&
            (s.slots k).any fun st => st.live && (s.deliver st hd.kind bs).isOk
      | _ => false
  | .batch d => p == .write && s.failure.isNone && !decide s.Idle && (s.visits d).contains k
  | .written none => s.touched.any (·.id == k)
  | .watchdog expired _ => s.failure.isNone && s.liveAt k && expired.contains k
  | _ => false

/-- `Stream::drop` notifies the writer, unless the session has to fail first. -/
def dropNotifies (s : Session) (k : Nat) : Bool :=
  (s.drop k).any fun t => decide (t.failing = s.failing)

/-- A step calls `notify_one`. -/
def notifies (s : Session) : Action → Bool
  | .reserve target draw => (s.reserve target draw).2.isNone
  | .accept k => (s.accept k).any (·.2.isNone)
  | .reject k code => (s.reject k code).any (·.2.isNone)
  | .finish k => s.server && (s.finish k).any (·.2.isNone)
  | .drop k => s.dropNotifies k
  | .dropIncoming =>
      match s.incoming with
      | k :: _ => s.dropNotifies k
      | [] => false
  | .pollRead k n =>
      n != 0 && (s.slots k).any fun st =>
        st.check.isNone && decide (0 < st.granting n) &&
          ((s.set k (st.polled n)).control .credit k (bigEndian 2 (st.granting n))).2.isNone
  | .pollWrite k buf =>
      match s.pollWrite k buf with
      | some (_, .ok (some n)) => n != 0
      | _ => false
  | .pollShutdown k =>
      match s.pollShutdown k with
      | some (_, .ok _) => true
      | _ => false
  | .close | .fail _ | .failTask => s.failure.isNone
  | .dispatch draw => (s.dispatch draw).any (·.ended.isNone)
  | .watchdog expired idle => (s.watchdog expired idle).any (·.ended.isNone)
  | _ => false

end Session

/-! ## The machine -/

/-- Where `write_loop` is. -/
inductive Writer where
  /-- Before a batch, or writing one. -/
  | running
  /-- The batch was empty; the writer has still to await its `Notified`. -/
  | leaving
  /-- Parked on `notified`. -/
  | parked
  /-- The task has ended. -/
  | gone
  deriving DecidableEq, Repr

/-- A session with the wakers of its slots, its writer and the permit of its `Notify`. -/
structure Waiting where
  session : Session
  /-- The call that stored the waker. -/
  stored : Nat → Place → Option Call
  writer : Writer
  permit : Bool

namespace Waiting

inductive Action where
  | session (action : Session.Action)
  /-- One of the calls that only wait is polled. -/
  | poll (k : Nat) (call : Call)
  /-- The writer awaits its `Notified`. -/
  | rest

/-- A waker is stored. -/
def store (x : Waiting) (k : Nat) (call : Call) : Waiting :=
  { x with
    stored := fun i p => if i = k ∧ p = call.place then some call else x.stored i p }

/-- The wakers after a step of the session. -/
def keeping (x : Waiting) (action : Session.Action) (s : Session) (k : Nat) (p : Place) :
    Option Call :=
  match (x.session.registered k action).filter (·.place = p) with
  | some call => some call
  | none =>
      if x.session.woken k p action || (s.slots k).isNone then none else x.stored k p

/-- The writer after a step of the session. -/
def moving (x : Waiting) (action : Session.Action) (s : Session) : Writer :=
  if s.ended.isSome then .gone
  else match action with
  | .batch _ => if s.writing then .running else .leaving
  | _ => if x.session.notifies action && x.writer == .parked then .running else x.writer

/-- The session after a step, with the wakers and the permit. -/
def after (x : Waiting) (action : Session.Action) (s : Session) : Waiting where
  session := s
  stored := x.keeping action s
  writer := x.moving action s
  permit := x.permit || x.session.notifies action && x.writer != .parked

/-- Only the writer that is running assembles a batch. -/
def mayStep (x : Waiting) : Session.Action → Bool
  | .batch _ => x.writer == .running
  | _ => true

/-- The await of a `Notified` takes the permit, or parks. -/
def resting (x : Waiting) : Waiting :=
  if x.permit then { x with writer := .running, permit := false }
  else { x with writer := .parked }

def step (x : Waiting) : Action → Option Waiting
  | .session action =>
      if x.mayStep action then (x.session.step action).map (x.after action) else none
  | .poll k call =>
      if call.waits ∧ k ∉ x.session.incoming ∧ (x.session.slots k).isSome then
        some (if x.session.pending k call then x.store k call else x)
      else none
  | .rest => if x.writer = .leaving then some x.resting else none

/-- At first no waker is stored, and the writer is about to assemble a batch. -/
def machine (server : Bool) : Machine Waiting Action where
  start x := (Session.machine server).start x.session ∧ (∀ k p, x.stored k p = none) ∧
    x.writer = .running ∧ x.permit = false
  step := step

end Waiting

/-! ## What makes a call wait -/

theorem drain_prefix (input : List Chunk) (remaining : Nat) (out : List Byte) (consumed : Nat) :
    out <+: (Session.drain input remaining out consumed).2.1 := by
  induction input generalizing remaining out consumed with
  | nil => exact List.prefix_rfl
  | cons c rest induction =>
      simp only [Session.drain]
      have first := List.prefix_append out (c.bytes.take (min remaining c.bytes.length))
      split_ifs
      · exact first
      · exact first
      · exact first.trans (induction _ _ _)

/-- A read that copies nothing has used up the blocks, or stops at an empty one. -/
theorem drain_nothing (input : List Chunk) {remaining : Nat} (some_ : remaining ≠ 0)
    (out : List Byte) (consumed : Nat)
    (nothing : (Session.drain input remaining out consumed).2.1 = out) :
    (Session.drain input remaining out consumed).1 = [] ∨
      ∃ rest, (Session.drain input remaining out consumed).1 = ⟨[], false⟩ :: rest := by
  induction input generalizing out consumed with
  | nil => exact .inl rfl
  | cons c rest induction =>
      have empty : c.bytes = [] := by
        have early : out ++ c.bytes.take (min remaining c.bytes.length) <+:
            (Session.drain (c :: rest) remaining out consumed).2.1 := by
          simp only [Session.drain]
          split_ifs
          · exact List.prefix_rfl
          · exact List.prefix_rfl
          · exact drain_prefix _ _ _ _
        rw [nothing] at early
        have length := early.length_le
        rw [List.length_append, List.length_take] at length
        exact List.eq_nil_of_length_eq_zero (by omega)
      rcases c with ⟨bytes, complete⟩
      cases empty
      simp only [Session.drain, List.length_nil, Nat.min_zero, List.drop_nil, List.take_nil,
        List.append_nil, Nat.sub_zero, if_neg some_] at nothing ⊢
      cases complete with
      | false => exact .inr ⟨rest, by simp⟩
      | true =>
          simp only [ne_eq, not_true_eq_false, Bool.true_eq_false, or_self, if_false]
            at nothing ⊢
          exact induction _ _ nothing

namespace Slot

/-- A read gets nothing: there is no block, or the first one has no bytes yet. -/
def Starved (st : Slot) : Prop :=
  st.input = [] ∧ st.remoteFin = false ∨ ∃ rest, st.input = ⟨[], false⟩ :: rest

/-- What makes a call wait; a server's `ready` may have been left by its caller. -/
def Blocks (server : Bool) (st : Slot) : Call → Prop
  | .read n => n ≠ 0 ∧ st.check = none ∧ st.consumed < st.creditAt ∧ st.Starved
  | .write buf => st.check = none ∧ st.opened = true ∧ st.localFin = false ∧ buf ≠ [] ∧
      sendBuffer ≤ st.queued
  | .flush => st.check = none ∧ ¬ (st.queued = 0 ∧ st.inflight = 0)
  | .shutdown => st.check = none ∧ st.finFlushed = false
  | .ready => st.check = none ∧ (st.opened = false ∨ server = true)
  | .finish | .cancelled => st.live = true

/-- A read of a starved slot changes nothing. -/
theorem drained_starved {st : Slot} {n : Nat} (starved : st.Starved) :
    Session.drain st.input n [] st.consumed = (st.input, [], st.consumed) := by
  rcases starved with ⟨empty, -⟩ | ⟨rest, stuck⟩
  · rw [empty]
    rfl
  · rw [stuck]
    simp [Session.drain]

theorem polled_starved {st : Slot} {n : Nat} (starved : st.Starved)
    (below : st.consumed < st.creditAt) :
    (st.polled n).Starved ∧ (st.polled n).consumed < (st.polled n).creditAt := by
  have same := drained_starved (n := n) starved
  have input : (st.polled n).input = st.input := congrArg Prod.fst same
  have left : (st.drained n).consumed = st.consumed := congrArg (·.2.2) same
  have consumed : (st.polled n).consumed = st.consumed := by
    simp only [polled, left, if_neg (not_le.mpr below)]
  refine ⟨?_, consumed ▸ below⟩
  rw [Starved, input]
  exact starved

/-- A read that returns pending leaves a starved slot. -/
theorem polled_pending {st : Slot} {n : Nat} (some_ : n ≠ 0) (positive : 0 < st.creditAt)
    (pending : st.answer n = .pending) :
    (st.polled n).Starved ∧ (st.polled n).consumed < (st.polled n).creditAt := by
  simp only [answer] at pending
  split_ifs at pending with readable
  simp only [ne_eq, not_or, not_not, not_and] at readable
  have input : (st.polled n).input = (st.drained n).input := rfl
  have consumed : (st.polled n).consumed =
      if st.creditAt ≤ (st.drained n).consumed then 0 else (st.drained n).consumed := rfl
  constructor
  · rcases drain_nothing st.input some_ [] st.consumed readable.1 with empty | stuck
    · refine .inl ⟨empty, ?_⟩
      by_contra ended
      exact readable.2 (by simpa [polled] using ended) empty
    · exact .inr stuck
  · show _ < st.creditAt
    rw [consumed]
    split_ifs <;> omega

end Slot

namespace Slot

/-- What a batch does to a slot: only its sending side moves on. -/
structure Drains (st st' : Slot) : Prop where
  terminal : st'.terminal = st.terminal
  opened : st'.opened = st.opened
  localFin : st'.localFin = st.localFin
  finFlushed : st'.finFlushed = st.finFlushed
  remoteFin : st'.remoteFin = st.remoteFin
  input : st'.input = st.input
  consumed : st'.consumed = st.consumed
  creditAt : st'.creditAt = st.creditAt
  output : (∀ p ∈ st.output, p ≠ []) → ∀ p ∈ st'.output, p ≠ []

theorem Drains.refl (st : Slot) : Drains st st :=
  ⟨rfl, rfl, rfl, rfl, rfl, rfl, rfl, rfl, id⟩

theorem Drains.trans {st st' st'' : Slot} (first : Drains st st') (second : Drains st' st'') :
    Drains st st'' where
  terminal := second.terminal.trans first.terminal
  opened := second.opened.trans first.opened
  localFin := second.localFin.trans first.localFin
  finFlushed := second.finFlushed.trans first.finFlushed
  remoteFin := second.remoteFin.trans first.remoteFin
  input := second.input.trans first.input
  consumed := second.consumed.trans first.consumed
  creditAt := second.creditAt.trans first.creditAt
  output := second.output ∘ first.output

theorem drains_sentData {st : Slot} {p : List Byte} {rest : List (List Byte)} (n : Nat)
    (pending : st.output = p :: rest) (available : n ≤ p.length) :
    Drains st (st.sentData n p rest) := by
  refine ⟨rfl, rfl, rfl, rfl, rfl, rfl, rfl, rfl, fun full q member => ?_⟩
  rw [pending] at full
  simp only [sentData] at member
  split_ifs at member with whole
  · exact full q (List.mem_cons_of_mem _ member)
  · rcases List.mem_cons.mp member with rfl | later
    · rw [ne_eq, List.drop_eq_nil_iff]
      omega
    · exact full q (List.mem_cons_of_mem _ later)

end Slot

namespace Session

theorem emits_drains {s s' : Session} (emits : Emits s s') {k : Nat} {st : Slot}
    (here : s.slots k = some st) : ∃ st', s'.slots k = some st' ∧ st.Drains st' := by
  have replaced : ∀ {t : Session} {j : Nat} {old new : Slot},
      t.slots = (s.set j new).slots → s.slots j = some old → old.Drains new →
      ∃ st', t.slots k = some st' ∧ st.Drains st' := by
    intro t j old new slots found drains
    rw [slots]
    by_cases same : k = j
    · subst same
      cases here.symm.trans found
      exact ⟨new, set_slots_self s k new, drains⟩
    · exact ⟨st, (set_slots_other s new same).trans here, .refl st⟩
  cases emits with
  | shaped | control | served => exact ⟨st, here, .refl st⟩
  | data n drained found live opened pending some_ available =>
      exact replaced rfl found (Slot.drains_sentData n pending available)
  | fin drained found =>
      exact replaced rfl found ⟨rfl, rfl, rfl, rfl, rfl, rfl, rfl, rfl, id⟩

theorem emission_drains {s s' : Session} (emission : Emission s s') {k : Nat} {st : Slot}
    (here : s.slots k = some st) : ∃ st', s'.slots k = some st' ∧ st.Drains st' := by
  induction emission with
  | refl => exact ⟨st, here, .refl st⟩
  | tail _ last held =>
      rcases held with ⟨before, found, drains⟩
      rcases emits_drains last found with ⟨st', after, drains'⟩
      exact ⟨st', after, drains.trans drains'⟩

/-- A batch makes no slots. -/
theorem emission_slots {s s' : Session} (emission : Emission s s') {k : Nat}
    (missing : s.slots k = none) : s'.slots k = none := by
  induction emission with
  | refl => exact missing
  | tail _ last held =>
      have replaced : ∀ {t u : Session} {j : Nat} {new : Slot}, t.slots k = none →
          t.slots j ≠ none → u.slots = (t.set j new).slots → u.slots k = none := by
        intro t u j new gone found slots
        have other : k ≠ j := by
          rintro rfl
          exact found gone
        rw [slots, set_slots_other t new other, gone]
      cases last with
      | shaped | control | served => exact held
      | data n drained found => exact replaced held (by simp [found]) rfl
      | fin drained found => exact replaced held (by simp [found]) rfl

/-! ## What holds of every slot -/

/-- What the wakers rely on in a slot. -/
structure Orderly (st : Slot) : Prop where
  positive : 0 < st.creditAt
  /-- `poll_write` queues no empty piece, and `batch` leaves none. -/
  output : ∀ p ∈ st.output, p ≠ []

theorem Orderly.fail {st : Slot} (orderly : Orderly st) (e : ErrorKind) :
    Orderly (st.fail e) := by
  rcases st.fail_cases e with ⟨-, same⟩ | failed
  · rw [same]
    exact orderly
  · unfold Slot.fail
    split
    · exact orderly
    · exact ⟨orderly.positive, by simp⟩

theorem effect_orderly {s : Session} {k : Nat} {action : Action} {o o' : Option Slot}
    (effect : s.Effect k action o o') (before : ∀ st, o = some st → Orderly st)
    {st' : Slot} (after : o' = some st') : Orderly st' := by
  cases effect with
  | same => exact before st' after
  | reserve target draw client alive room above creditAt positive
  | arrive draw above creditAt positive =>
      cases after
      exact ⟨positive, by simp [Slot.new]⟩
  | accept | read | shutdown | check | publish =>
      cases after
      have orderly := before _ rfl
      exact ⟨orderly.positive, orderly.output⟩
  | reject | fail | expire =>
      cases after
      exact (before _ rfl).fail _
  | drop => cases after
  | @write st buf unfailed opened unended some_ =>
      cases after
      have orderly := before _ rfl
      refine ⟨orderly.positive, fun p member => ?_⟩
      rcases List.mem_append.mp member with old | new
      · exact orderly.output p old
      · rw [List.mem_singleton.mp new, ne_eq, List.take_eq_nil_iff, not_or]
        refine ⟨some_, ?_⟩
        rintro rfl
        exact some_ (by simp [Slot.room])
  | @deliver st _ draw hd p at_ whole own other live delivered =>
      cases after
      have orderly := before _ rfl
      generalize hd.kind = kind at delivered
      cases delivered with
      | opened | fin | finished | credit => exact ⟨orderly.positive, orderly.output⟩
      | failed | reset => exact orderly.fail _
  | batch d =>
      have emission := assembled_emits s d
      cases here : s.slots k with
      | none => cases (emission_slots emission here).symm.trans after
      | some st =>
          rcases emission_drains emission here with ⟨st'', found, drains⟩
          cases found.symm.trans after
          have orderly := before st here
          exact ⟨drains.creditAt ▸ orderly.positive, drains.output orderly.output⟩
  | @mark st =>
      cases after
      have orderly := before _ rfl
      have same := st.marked_same (s.touched.filter (·.id = k))
      exact ⟨same.creditAt ▸ orderly.positive, same.output ▸ orderly.output⟩

theorem reachable_orderly {server : Bool} {s : Session} (reached : (machine server).Reachable s)
    {k : Nat} {st : Slot} (here : s.slots k = some st) : Orderly st := by
  revert k st
  refine Machine.ReachableBy.invariant
    (P := fun s : Session => ∀ {k st}, s.slots k = some st → Orderly st) ?_ ?_ reached
  · rintro s ⟨traffic, draw, preamble, -, rfl⟩ k st here
    cases here
  · intro s action s' before held _ taken k st here
    exact effect_orderly (step_effect (reachable_wired before).2 taken k)
      (fun st here => held here) here

/-- A run of the session is a run with the history of its sending side. -/
theorem reachable_sender {server : Bool} {s : Session} (reached : (machine server).Reachable s) :
    ∃ x, (Sender.machine server).Reachable x ∧ x.session = s := by
  induction reached with
  | @start s initial =>
      exact ⟨⟨s, fun _ => [], fun _ => false, []⟩,
        .start ⟨initial, fun _ => rfl, fun _ => rfl, rfl⟩, rfl⟩
  | @step s s' action _ _ taken before =>
      rcases before with ⟨x, reached, rfl⟩
      have stepped : x.step action = some (x.after action s') := by
        have taken : x.session.step action = some s' := taken
        rw [Sender.step, taken, Option.map_some]
      exact ⟨x.after action s', .step reached trivial stepped, rfl⟩

/-- A FIN that has been flushed was asked for. -/
theorem reachable_flushed {server : Bool} {s : Session} (reached : (machine server).Reachable s)
    {k : Nat} {st : Slot} (here : s.slots k = some st) (unfailed : st.check = none)
    (flushed : st.finFlushed = true) : st.localFin = true := by
  rcases reachable_sender reached with ⟨x, sender, rfl⟩
  have books := Sender.reachable_books sender
  have tally := books.slots k st here unfailed
  rcases tally.finFlushed flushed with ⟨f, member, own, kind⟩
  rcases books.pending with ⟨pending, frames, -⟩
  have emitted : f ∈ x.session.emitted := by
    rw [frames]
    exact List.mem_append_left _ member
  rcases List.append_of_mem emitted with ⟨before, later, split_⟩
  have early : before ++ [f] <+: x.session.emitted :=
    ⟨later, by rw [split_, List.append_assoc, List.singleton_append]⟩
  exact (tally.sent (tally.fin before f early own kind).1).1

end Session

namespace Slot

/-- A stream that stays what it is when it fails was finished. -/
theorem fail_finished {st : Slot} (finished : st.unfinished = false) (e : ErrorKind) :
    st.fail e = st := by
  rcases st with ⟨opened, localFin, finSent, finFlushed, remoteFin, terminal⟩
  rcases terminal with _ | _ | _
  · cases finished
  · cases finished
  · rfl

/-- A batch only ends the wait of the calls that wait for room or for a flush. -/
theorem Drains.blocks {server : Bool} {st st' : Slot} (drains : Drains st st') {call : Call}
    (other : call.place ≠ .write) (blocks : st.Blocks server call) : st'.Blocks server call := by
  have check : st'.check = st.check := by simp only [Slot.check, drains.terminal]
  have live : st'.live = st.live := by simp only [Slot.live, drains.terminal]
  cases call with
  | read n =>
      simpa only [Blocks, Starved, check, drains.consumed, drains.creditAt, drains.input,
        drains.remoteFin] using blocks
  | write | flush | shutdown => exact (other rfl).elim
  | ready => simpa only [Blocks, check, drains.opened] using blocks
  | finish | cancelled => exact live.trans blocks

end Slot

namespace Session

section Waking

variable {s s' : Session} {k : Nat} {st : Slot} {call : Call}

/-- A slot whose wakers are not woken by a failure of the session does not change in it. -/
theorem failsAt_false (here : s.slots k = some st) (alive : s.failure = none)
    (unwoken : s.failsAt k = false) : st.unfinished = false := by
  simpa [failsAt, here, alive] using unwoken

/-- Whatever a control frame other than CREDIT does to its stream wakes it. -/
theorem Delivered.isOk {st' : Slot} {kind : Kind} (delivered : s.Delivered st kind st')
    (other : kind ≠ .credit) (p : List Byte) : (s.deliver st kind p).isOk = true := by
  cases delivered with
  | opened client waiting | failed client waiting => simp [deliver, client, waiting, Except.isOk,
      Except.toBool]
  | fin opened first => simp [deliver, opened, first, Except.isOk, Except.toBool]
  | reset => rfl
  | finished client sent ended =>
      simp [deliver, client, sent, ended, Except.isOk, Except.toBool]
  | credit => exact (other rfl).elim

/-- A call stays blocked by a step, unless its waker is woken or replaced. -/
theorem effect_blocks {action : Action} {o o' : Option Slot} (effect : s.Effect k action o o')
    (calm : ∀ d, action ≠ .batch d) (at_ : s.slots k = o) (here : o = some st)
    (flushed : st.check = none → st.finFlushed = true → st.localFin = true)
    (blocks : st.Blocks s.server call) (unwoken : s.woken k call.place action = false)
    {st' : Slot} (after : o' = some st') :
    st'.Blocks s.server call ∨
      ∃ new, s.registered k action = some new ∧ new.place = call.place := by
  cases effect with
  | same =>
      cases here.symm.trans after
      exact .inl blocks
  | reserve | arrive => cases here
  | drop => cases after
  | accept server =>
      cases here
      cases after
      left
      cases call with
      | ready => exact ⟨blocks.1, .inr server⟩
      | write => exact ⟨blocks.1, rfl, blocks.2.2⟩
      | _ => exact blocks
  | reject code server waiting =>
      cases here
      cases after
      have finished : st.unfinished = false := by
        simpa [woken, at_, server, waiting] using unwoken
      rw [Slot.fail_finished finished]
      exact .inl blocks
  | read n some_ unfailed =>
      cases here
      cases after
      left
      cases call with
      | read m =>
          have starved := Slot.polled_starved (n := n) blocks.2.2.2 blocks.2.2.1
          exact ⟨blocks.1, blocks.2.1, starved.2, starved.1⟩
      | _ => exact blocks
  | write buf unfailed opened unended some_ =>
      cases here
      cases after
      left
      cases call with
      | write old =>
          have full := blocks.2.2.2.2
          refine (some_ ?_).elim
          simp only [Slot.room]
          omega
      | flush =>
          refine ⟨blocks.1, fun done => some_ ?_⟩
          have empty : st.queued + (buf.take (st.room buf)).length = 0 := done.1
          have length : (buf.take (st.room buf)).length = st.room buf :=
            List.length_take_of_le ((min_le_left _ _).trans (min_le_left _ _))
          omega
      | _ => exact blocks
  | shutdown unfailed =>
      cases here
      cases after
      cases done : st.finFlushed with
      | false =>
          by_cases own : call.place = .write
          · refine .inr ⟨.shutdown, ?_, own.symm⟩
            simp [registered, pending, pollShutdown_eq at_ unfailed, done]
          · left
            cases call with
            | write | flush | shutdown => exact (own rfl).elim
            | _ => exact blocks
      | true =>
          left
          cases call with
          | write => cases blocks.2.2.1.symm.trans (flushed unfailed done)
          | shutdown => cases done.symm.trans blocks.2
          | _ => exact blocks
  | fail e cause alive =>
      cases here
      cases after
      have finished : st.unfinished = false := by
        apply failsAt_false at_ alive
        cases action <;> first | exact unwoken | cases cause
      rw [Slot.fail_finished finished]
      exact .inl blocks
  | check live window =>
      cases here
      cases after
      left
      cases call with
      | read n =>
          refine ⟨blocks.1, blocks.2.1, blocks.2.2.1, .inr ?_⟩
          rcases blocks.2.2.2 with ⟨empty, -⟩ | ⟨rest, stuck⟩
          · exact ⟨[], by simp [Slot.awaiting, empty]⟩
          · exact ⟨rest ++ [⟨[], false⟩], by simp [Slot.awaiting, stuck]⟩
      | _ => exact blocks
  | publish bs hd got complete reader own live last =>
      cases here
      cases after
      left
      cases call with
      | read n =>
          have some_ : st.input ≠ [] := by
            intro empty
            rw [empty] at last
            cases last
          simp [woken, Call.place, reader, own, at_, live, some_] at unwoken
      | _ => exact blocks
  | deliver draw hd p reader whole own other live delivered =>
      cases here
      cases after
      left
      by_cases credit : hd.kind = .credit
      · rw [credit] at delivered
        cases delivered
        cases call <;> exact blocks
      · have ok := delivered.isOk credit p
        simp [woken, reader, own, at_, live, credit, ok] at unwoken
  | batch d => exact (calm d rfl).elim
  | mark =>
      cases here
      cases after
      have untouched : s.touched.filter (·.id = k) = [] := by
        simpa [woken, List.filter_eq_nil_iff] using unwoken
      rw [untouched]
      exact .inl blocks
  | expire expired idle late alive live =>
      cases here
      simp [woken, at_, alive, liveAt, live, late] at unwoken

end Waking

end Session

namespace Session

/-! ## A blocked call is pending -/

section Pending

variable {s : Session} {k : Nat} {st : Slot} (here : s.slots k = some st)
include here

/-- `poll_write` is pending exactly when there is no room. -/
theorem pending_write {server : Bool} {buf : List Byte} :
    s.pending k (.write buf) = true ↔ st.Blocks server (.write buf) := by
  simp only [pending, pollWrite, here, Slot.Blocks]
  cases st.check with
  | some e => simp
  | none =>
      simp only
      split_ifs with state empty none_
      · simp only [Bool.or_eq_true, Bool.not_eq_true'] at state
        rcases state with unopened | ended
        · simp [unopened]
        · simp [ended]
      · simp [empty]
      · simp only [Bool.or_eq_true, Bool.not_eq_true', not_or, Bool.not_eq_false,
          Bool.not_eq_true] at state
        have length : buf.length ≠ 0 := by simpa using empty
        have room : sendBuffer ≤ st.queued := by
          rw [batchBytes] at none_
          omega
        simp [state, empty, room]
      · have room : ¬ sendBuffer ≤ st.queued := by
          intro full
          apply none_
          omega
        simp [room]

/-- The condition that a blocked call waits for is false, unless `accept` has opened the stream. -/
theorem pending_of_blocks {call : Call}
    (blocks : st.Blocks s.server call) :
    s.pending k call = true ∨
      call = .ready ∧ s.server = true ∧ st.opened = true ∧ st.check = none := by
  cases call with
  | read n =>
      left
      rcases blocks with ⟨some_, unfailed, below, starved⟩
      have same := Slot.drained_starved (n := n) starved
      have nothing : st.copied n = [] := congrArg (·.2.1) same
      have input : (st.drained n).input = st.input := congrArg Prod.fst same
      have left : (st.drained n).consumed = st.consumed := congrArg (·.2.2) same
      have none_ : st.granting n = 0 := by
        simp only [Slot.granting, grant, left, if_neg (not_le.mpr below)]
      have answer : st.answer n = .pending := by
        rw [Slot.answer, nothing, input]
        apply if_neg
        simp only [ne_eq, not_true_eq_false, false_or, not_and]
        intro ended empty
        rcases starved with ⟨-, unended⟩ | ⟨rest, stuck⟩
        · cases ended.symm.trans unended
        · cases stuck.symm.trans empty
      simp [pending, pollRead_eq here some_ unfailed, none_, answer]
  | write buf => exact .inl ((pending_write here).mpr blocks)
  | flush =>
      left
      have busy : (st.queued == 0 && st.inflight == 0) = false := by
        have busy := blocks.2
        simpa using busy
      simp [pending, pollFlush, here, blocks.1, busy]
  | shutdown => simp [pending, pollShutdown_eq here blocks.1, blocks.2]
  | ready =>
      rcases blocks with ⟨unfailed, waits⟩
      cases opened : st.opened with
      | false => simp [pending, pollReady, here, unfailed, opened]
      | true =>
          rcases waits with unopened | server
          · cases opened.symm.trans unopened
          · exact .inr ⟨rfl, server, rfl, unfailed⟩
  | finish =>
      left
      have live : st.live = true := blocks
      have unended : st.terminal = none := Option.isNone_iff_eq_none.mp live
      simp [pending, pollFinish, here, Slot.check_of_live live, Slot.unfinished, unended]
  | cancelled =>
      left
      have live : st.live = true := blocks
      simp [pending, pollCancelled, here, live]

/-- A call that only waits is blocked when it returns pending. -/
theorem blocks_of_pending {call : Call} (waits : call.waits = true)
    (pending_ : s.pending k call = true) : st.Blocks s.server call := by
  cases call with
  | read | write | shutdown => cases waits
  | flush =>
      simp only [pending, pollFlush, here, Option.map_some] at pending_
      cases failed : st.check with
      | some e => simp [failed] at pending_
      | none =>
          refine ⟨failed, fun done => ?_⟩
          simp [failed, done] at pending_
  | ready =>
      simp only [pending, pollReady, here, Option.map_some] at pending_
      cases failed : st.check with
      | some e => simp [failed] at pending_
      | none =>
          refine ⟨failed, .inl ?_⟩
          by_contra opened
          simp [failed, opened] at pending_
  | finish =>
      simp only [pending, pollFinish, here, Option.map_some] at pending_
      show st.terminal.isNone = true
      cases ended : st.terminal with
      | none => rfl
      | some result => cases result <;> simp [Slot.check, Slot.unfinished, ended] at pending_
  | cancelled =>
      show st.live = true
      by_contra ended
      simp [pending, pollCancelled, here, ended] at pending_

end Pending

end Session

namespace Session

/-! ## The streams a batch comes to -/

section Visits

variable {k : Nat}

theorem takeControls_slots (limit lead : Nat) (controls : List Frame) (s : Session) :
    (takeControls limit lead controls s).slots = s.slots := by
  induction controls generalizing s with
  | nil => rfl
  | cons c rest induction =>
      simp only [takeControls]
      split_ifs
      · rfl
      · exact induction _

theorem sendData_other (limit lead credit share : Nat) {j : Nat} (other : k ≠ j) (s : Session) :
    (sendData j limit lead credit share s).1.slots k = s.slots k := by
  induction credit generalizing share s with
  | zero => rfl
  | succ credit induction =>
      simp only [sendData]
      split
      · rfl
      next st here =>
      split
      · rfl
      next p rest pending =>
      split_ifs
      · rfl
      · rw [induction]
        exact if_neg other

theorem sendFin_other {j : Nat} (other : k ≠ j) (s : Session) :
    (s.sendFin j).1.slots k = s.slots k := by
  unfold sendFin
  split
  · rfl
  · split_ifs
    · exact if_neg other
    · rfl

/-- A turn only changes the stream whose turn it is, and only if it is not skipped. -/
theorem turn_slots (limit lead share j : Nat) (s : Session)
    (away : k ≠ j ∨ (s.slots j).any (fun st => st.live && st.opened) = false) :
    (turn limit lead share j s).1.slots k = s.slots k := by
  unfold turn
  split
  · rfl
  next st here =>
  split_ifs with skipped
  · rfl
  · simp only [Bool.or_eq_true, Bool.not_eq_true', not_or, Bool.not_eq_false] at skipped
    have other : k ≠ j := by
      apply away.resolve_right
      simp [here, skipped]
    show ((sendData j limit lead st.sendCredit share s).1.sendFin j).1.slots k = s.slots k
    rw [sendFin_other other, sendData_other limit lead _ _ other]

theorem round_slots (limit lead : Nat) (share : Nat → Nat) (ids : List Nat) (progress : Bool)
    (s : Session) (away : k ∉ roundVisits limit lead share ids s) :
    (round limit lead share ids progress s).1.slots k = s.slots k := by
  induction ids generalizing progress s with
  | nil => rfl
  | cons j rest induction =>
      simp only [roundVisits] at away
      simp only [round]
      split_ifs at away ⊢ with full taken
      · rfl
      · simp only [List.singleton_append, List.mem_cons, not_or] at away
        rw [induction _ _ away.2]
        exact turn_slots _ _ _ _ _ (.inl away.1)
      · rw [induction _ _ away]
        exact turn_slots _ _ _ _ _ (.inr (by simpa using taken))

theorem rounds_slots (limit lead : Nat) (share : Nat → Nat) (ids : List Nat) (fuel : Nat)
    (s : Session) (away : k ∉ roundsVisits limit lead share ids fuel s) :
    (rounds limit lead share ids fuel s).slots k = s.slots k := by
  induction fuel generalizing s with
  | zero => rfl
  | succ fuel induction =>
      simp only [roundsVisits, List.mem_append, not_or] at away
      have first := round_slots limit lead share ids false s away.1
      rw [rounds]
      split
      · next after ran =>
        rw [ran] at first
        have later := away.2
        rw [ran] at later
        exact (induction after later).trans first
      · next after ran =>
        rw [ran] at first
        exact first

/-- A batch leaves the streams alone that it does not come to. -/
theorem assembled_slots (s : Session) (d : Draws) (away : k ∉ s.visits d) :
    (s.assembled d).slots k = s.slots k := by
  have rounds := rounds_slots (s.limit d) s.lead (s.share d) _ (s.limit d) (s.withControls d) away
  exact rounds.trans (congrFun (takeControls_slots _ _ _ _) k)

end Visits

/-- A call stays blocked by a batch, unless its waker is woken. -/
theorem batch_blocks {s s' : Session} {k : Nat} {st : Slot} {call : Call} {d : Draws}
    (taken : s.batch d = some s') (here : s.slots k = some st)
    (blocks : st.Blocks s.server call) (unwoken : s.woken k call.place (.batch d) = false) :
    ∃ st', s'.slots k = some st' ∧ st'.Blocks s.server call := by
  unfold batch at taken
  split at taken
  · cases taken
  split at taken
  · cases taken
    exact ⟨st, here, blocks⟩
  next alive =>
  split at taken
  · cases taken
    exact ⟨st, here, blocks⟩
  next busy =>
  cases taken
  have busy : ¬ s.Idle := busy
  by_cases own : call.place = .write
  · have away : k ∉ s.visits d := by
      simpa [woken, own, alive, busy] using unwoken
    exact ⟨st, (assembled_slots s d away).trans here, blocks⟩
  · rcases emission_drains (assembled_emits s d) here with ⟨st', found, drains⟩
    exact ⟨st', found, drains.blocks own blocks⟩

/-- A call whose waker a step stores is blocked after it. -/
theorem registered_blocks {s s' : Session} {k : Nat} {call : Call} {action : Action}
    (orderly : ∀ st, s.slots k = some st → Orderly st)
    (taken : s.step action = some s') (registers : s.registered k action = some call) :
    ∃ st', s'.slots k = some st' ∧ st'.Blocks s.server call := by
  cases action with
  | pollRead j n =>
      rcases Option.map_eq_some_iff.mp (call_some taken) with ⟨⟨_, result⟩, polled, rfl⟩
      simp only [registered] at registers
      split_ifs at registers with waits
      cases registers
      rcases waits with ⟨rfl, some_, waits⟩
      cases here : s.slots j with
      | none => simp [here] at waits
      | some st =>
          simp only [here, Option.any_some, Bool.and_eq_true, Option.isNone_iff_eq_none,
            beq_iff_eq] at waits
          have starved := Slot.polled_pending some_ (orderly st here).positive waits.2
          refine ⟨st.polled n, ?_, some_, waits.1, starved.2, starved.1⟩
          rw [pollRead_eq here some_ waits.1, Option.some.injEq] at polled
          have slots := congrArg (·.1.slots j) polled
          rw [← slots]
          split_ifs
          · have queue := control_slots (s.set j (st.polled n)) .credit j
              (bigEndian 2 (st.granting n))
            split <;> next outcome =>
              rw [outcome] at queue
              exact (congrFun queue j).trans (set_slots_self s j _)
          · exact set_slots_self s j _
  | pollWrite j buf =>
      rcases Option.map_eq_some_iff.mp (call_some taken) with ⟨⟨_, result⟩, polled, rfl⟩
      simp only [registered] at registers
      split_ifs at registers with waits
      cases registers
      rcases waits with ⟨rfl, waits⟩
      simp only [pending, polled] at waits
      rcases pollWrite_cases polled with
        ⟨st, here, ⟨rfl, ⟨e, rfl⟩ | ⟨-, rfl⟩ | ⟨unfailed, room, rfl⟩⟩ |
          ⟨unfailed, opened, unended, some_, rfl, rfl⟩⟩
      · cases waits
      · cases waits
      · exact ⟨st, here, (pending_write here).mp (by simp [pending, polled])⟩
      · cases waits
  | pollShutdown j =>
      rcases Option.map_eq_some_iff.mp (call_some taken) with ⟨⟨_, result⟩, polled, rfl⟩
      simp only [registered] at registers
      split_ifs at registers with waits
      cases registers
      rcases waits with ⟨rfl, waits⟩
      cases here : s.slots j with
      | none => simp [pollShutdown, here] at polled
      | some st =>
          cases unfailed : st.check with
          | some e => simp [pending, pollShutdown, here, unfailed] at waits
          | none =>
              rw [pollShutdown_eq here unfailed] at polled
              cases polled
              refine ⟨_, set_slots_self s j _, unfailed, ?_⟩
              cases done : st.finFlushed with
              | true => simp [pending, pollShutdown_eq here unfailed, done] at waits
              | false => rfl
  | _ => cases registers

end Session

namespace Waiting

/-- A waker that is stored belongs to a call that is blocked. -/
def Stored (x : Waiting) : Prop :=
  ∀ k p call, x.stored k p = some call →
    call.place = p ∧ ∃ st, x.session.slots k = some st ∧ st.Blocks x.session.server call

theorem session_reached {server : Bool} {x : Waiting} (reached : (machine server).Reachable x) :
    (Session.machine server).Reachable x.session := by
  induction reached with
  | start initial => exact .start initial.1
  | @step x x' action before _ taken held =>
      cases action with
      | session action =>
          simp only [machine, step] at taken
          split_ifs at taken
          rcases Option.map_eq_some_iff.mp taken with ⟨s', stepped, rfl⟩
          exact .step held trivial stepped
      | poll k call =>
          simp only [machine, step] at taken
          split_ifs at taken
          · cases taken
            exact held
          · cases taken
            exact held
      | rest =>
          simp only [machine, step] at taken
          split_ifs at taken
          cases taken
          unfold resting
          split_ifs <;> exact held

/-- A step of the session keeps every stored waker with a call that is blocked. -/
theorem session_stored {server : Bool} {x : Waiting} {s' : Session} {action : Session.Action}
    (reached : (Session.machine server).Reachable x.session) (held : x.Stored)
    (stepped : x.session.step action = some s') : (x.after action s').Stored := by
  have sound := (Session.reachable_wired reached).2
  have same := (Session.step_carries sound stepped).server
  intro k p call found
  show call.place = p ∧ ∃ st, s'.slots k = some st ∧ st.Blocks s'.server call
  rw [same]
  have found : x.keeping action s' k p = some call := found
  unfold keeping at found
  split at found
  · next new registers =>
    cases found
    rcases Option.filter_eq_some_iff.mp registers with ⟨registers, place⟩
    refine ⟨of_decide_eq_true place, ?_⟩
    exact Session.registered_blocks (fun st => Session.reachable_orderly reached) stepped registers
  next unregistered =>
  split_ifs at found with lost
  simp only [Bool.or_eq_true, not_or, Bool.not_eq_true, Option.isNone_eq_false_iff] at lost
  rcases held k p call found with ⟨place, st, here, blocks⟩
  refine ⟨place, ?_⟩
  subst place
  by_cases batch : ∃ d, action = .batch d
  · rcases batch with ⟨d, rfl⟩
    exact Session.batch_blocks (Session.task_some stepped).2 here blocks lost.1
  · rcases Option.isSome_iff_exists.mp lost.2 with ⟨st', after⟩
    refine ⟨st', after, ?_⟩
    have effect := Session.step_effect sound stepped k
    rcases Session.effect_blocks effect (fun d same => batch ⟨d, same⟩) rfl here
      (Session.reachable_flushed reached here) blocks lost.1 after with kept | ⟨new, registers, own⟩
    · exact kept
    · rw [registers, Option.filter_some, if_pos (decide_eq_true own)] at unregistered
      cases unregistered

theorem reachable_stored {server : Bool} {x : Waiting} (reached : (machine server).Reachable x) :
    x.Stored := by
  induction reached with
  | start initial =>
      intro k p call found
      cases (initial.2.1 k p).symm.trans found
  | @step x x' action before _ taken held =>
      have session := session_reached before
      cases action with
      | session action =>
          simp only [machine, step] at taken
          split_ifs at taken
          rcases Option.map_eq_some_iff.mp taken with ⟨s', stepped, rfl⟩
          exact session_stored session held stepped
      | poll k call =>
          simp only [machine, step] at taken
          split_ifs at taken with polled waits
          · cases taken
            rcases Option.isSome_iff_exists.mp polled.2.2 with ⟨st, here⟩
            intro i p old found
            simp only [store] at found
            split_ifs at found with own
            · cases found
              rcases own with ⟨rfl, rfl⟩
              exact ⟨rfl, st, here, Session.blocks_of_pending here polled.1 waits⟩
            · exact held i p old found
          · cases taken
            exact held
      | rest =>
          simp only [machine, step] at taken
          split_ifs at taken
          cases taken
          unfold resting
          split_ifs <;> exact held

end Waiting

end Veil.Rust

import Veil.Rust.Invariant

/-!
# What one step does to one slot

A track says everything a session holds about a stream, but not which action a
move comes from.  `Effect` lists, for every action, what the slot of a stream can
be before and after it; `Emits` lists what assembling a batch is made of.  A
statement about slots that depends on the action is a case analysis on these.
-/

namespace Veil.Rust

open Veil.Lib
open Veil.Mux (Byte Kind Header Frame blockSize headerSize maxStreams)

namespace Slot

/-- The bytes `poll_read` copies into a buffer with room for `n`. -/
def copied (st : Slot) (n : Nat) : List Byte := (Session.drain st.input n [] st.consumed).2.1

/-- What `poll_read` grants. -/
def granting (st : Slot) (n : Nat) : Nat :=
  Session.grant st.creditAt (st.drained n).consumed

/-- What `poll_read` makes of a slot. -/
def polled (st : Slot) (n : Nat) : Slot :=
  { st with
    input := (st.drained n).input
    consumed :=
      if st.creditAt ≤ (st.drained n).consumed then 0 else (st.drained n).consumed
    recvCredit := u16Add st.recvCredit (st.granting n) }

/-- What `poll_read` answers when it has no CREDIT to queue, or has queued it. -/
def answer (st : Slot) (n : Nat) : Session.Poll :=
  if st.copied n ≠ [] ∨ st.remoteFin = true ∧ (st.drained n).input = [] then
    .ready (st.copied n)
  else .pending

theorem granting_of_due {st : Slot} {n : Nat} (due : (st.drained n).due) :
    st.granting n = (st.drained n).consumed :=
  if_pos due.1

theorem due_of_granting {st : Slot} {n : Nat} (positive : 0 < st.granting n) :
    (st.drained n).due := by
  simp only [granting, Session.grant] at positive
  split_ifs at positive with enough
  · exact ⟨enough, positive⟩
  · exact absurd positive (lt_irrefl 0)

/-- What `poll_write` makes of a slot when it queues the bytes `p`. -/
def writing (st : Slot) (p : List Byte) : Slot :=
  { st with output := st.output ++ [p], queued := st.queued + p.length }

/-- The bytes `poll_write` has room for. -/
def room (st : Slot) (buf : List Byte) : Nat :=
  min (min buf.length (sendBuffer - st.queued)) (batchBytes - 32)

/-- The FIN has gone into a batch. -/
def sentFin (st : Slot) : Slot := { st with finSent := true, inflight := st.inflight + 1 }

end Slot

namespace Session

/-! ## Slots -/

/-- The actions that reach `Inner::fail`. -/
def Action.fails : Action → Bool
  | .close | .fail _ | .failTask => true
  | _ => false

/-- What a control frame makes of the live slot it is addressed to. -/
inductive Delivered (s : Session) (st : Slot) : Kind → Slot → Prop where
  | opened (client : s.server = false) (waiting : st.opened = false) :
      Delivered s st .opened { st with opened := true }
  | failed (client : s.server = false) (waiting : st.opened = false) (e : ErrorKind) :
      Delivered s st .failed (st.fail e)
  | fin (opened : st.opened = true) (first : st.remoteFin = false) :
      Delivered s st .fin { st with remoteFin := true }
  | reset : Delivered s st .reset (st.fail .connectionReset)
  | finished (client : s.server = false) (sent : st.finSent = true)
      (ended : st.remoteFin = true) :
      Delivered s st .finished { st with terminal := some (.ok ()) }
  | credit (amount : Nat) :
      Delivered s st .credit { st with sendCredit := u16Add st.sendCredit amount }

theorem deliver_delivered {s : Session} {st st' : Slot} {kind : Kind} {p : List Byte}
    (taken : s.deliver st kind p = .ok st') : s.Delivered st kind st' := by
  cases kind <;> simp only [deliver, reduceCtorEq] at taken
  case opened =>
    split_ifs at taken with legal
    cases taken
    rw [Bool.and_eq_true, Bool.not_eq_true', Bool.not_eq_true'] at legal
    exact .opened legal.1 legal.2
  case failed =>
    split_ifs at taken with legal
    cases taken
    rw [Bool.and_eq_true, Bool.not_eq_true', Bool.not_eq_true'] at legal
    exact .failed legal.1 legal.2 _
  case fin =>
    split_ifs at taken with legal
    cases taken
    rw [Bool.and_eq_true, Bool.not_eq_true'] at legal
    exact .fin legal.1 legal.2
  case reset =>
    cases taken
    exact .reset
  case finished =>
    split_ifs at taken with legal
    cases taken
    rw [Bool.and_eq_true, Bool.and_eq_true, Bool.not_eq_true'] at legal
    exact .finished legal.1.1 legal.1.2 legal.2
  case credit =>
    split_ifs at taken
    cases taken
    exact .credit _

/-- What an action can make of the slot of stream `k`. -/
inductive Effect (s : Session) (k : Nat) : Action → Option Slot → Option Slot → Prop where
  | same {action : Action} {o : Option Slot} : Effect s k action o o
  | reserve (target : Target) (draw : Nat) (client : s.server = false) (alive : s.failure = none)
      (room : s.active < maxStreams) (above : s.high < k) (creditAt : Nat)
      (positive : 0 < creditAt) :
      Effect s k (.reserve target draw) none (some (Slot.new creditAt))
  | arrive (draw : Nat) (above : s.high < k) (creditAt : Nat) (positive : 0 < creditAt) :
      Effect s k (.dispatch draw) none (some (Slot.new creditAt))
  | accept {st : Slot} (server : s.server = true) (unfailed : st.check = none)
      (waiting : st.opened = false) :
      Effect s k (.accept k) (some st) (some { st with opened := true })
  | reject {st : Slot} (code : Byte) (server : s.server = true) (waiting : st.opened = false) :
      Effect s k (.reject k code) (some st) (some (st.fail .connectionRefused))
  | drop {action : Action} {st : Slot} (own : action = .drop k ∨ action = .dropIncoming) :
      Effect s k action (some st) none
  | read {st : Slot} (n : Nat) (some_ : n ≠ 0) (unfailed : st.check = none) :
      Effect s k (.pollRead k n) (some st) (some (st.polled n))
  | write {st : Slot} (buf : List Byte) (unfailed : st.check = none) (opened : st.opened = true)
      (unended : st.localFin = false) (some_ : st.room buf ≠ 0) :
      Effect s k (.pollWrite k buf) (some st) (some (st.writing (buf.take (st.room buf))))
  | shutdown {st : Slot} (unfailed : st.check = none) :
      Effect s k (.pollShutdown k) (some st) (some { st with localFin := true })
  | fail {action : Action} {st : Slot} (e : ErrorKind) (cause : action.fails = true)
      (alive : s.failure = none) : Effect s k action (some st) (some (st.fail e))
  /-- A DATA header has passed its check. -/
  | check {st : Slot} (live : st.live = true) (window : 0 < st.recvCredit) :
      Effect s k .check (some st) (some st.awaiting)
  | publish {st : Slot} {c : Chunk} (bs : List Byte) (hd : Header) (got : List Byte)
      (complete : Bool) (at_ : s.reader = .data hd got) (own : hd.id = k)
      (live : st.live = true) (last : st.input.getLast? = some c) :
      Effect s k (.recv bs) (some st) (some (st.published c bs complete))
  | deliver {st st' : Slot} (draw : Nat) (hd : Header) (p : List Byte)
      (at_ : s.reader = .payload hd p) (whole : p.length = hd.length) (own : hd.id = k)
      (other : hd.kind ≠ .open) (live : st.live = true)
      (delivered : s.Delivered st hd.kind st') :
      Effect s k (.dispatch draw) (some st) (some st')
  | batch (draws : Draws) (alive : s.failure = none) :
      Effect s k (.batch draws) (s.slots k) ((s.assembled draws).slots k)
  | mark {st : Slot} :
      Effect s k (.written none) (some st) (some (st.marked (s.touched.filter (·.id = k))))
  | expire {st : Slot} (expired : List Nat) (idle : Bool) (late : k ∈ expired)
      (alive : s.failure = none) (live : st.live = true) :
      Effect s k (.watchdog expired idle) (some st) (some (st.fail .timedOut))

@[simp]
theorem set_slots_self (s : Session) (k : Nat) (st : Slot) : (s.set k st).slots k = some st :=
  if_pos rfl

theorem set_slots_other (s : Session) {k j : Nat} (st : Slot) (other : j ≠ k) :
    (s.set k st).slots j = s.slots j :=
  if_neg other

theorem control_slots (s : Session) (kind : Kind) (id : Nat) (p : List Byte) :
    (s.control kind id p).1.slots = s.slots := by
  unfold control
  split
  · rfl
  · rfl
  · split <;> rfl

theorem Effect.still {s : Session} {k : Nat} {action : Action} {o o' : Option Slot}
    (same : o' = o) : Effect s k action o o' := by
  subst same
  exact .same

/-- One slot is replaced. -/
theorem Effect.set {s t : Session} {k j : Nat} {action : Action} {st st' : Slot}
    (slots : t.slots = (s.set j st').slots) (here : s.slots j = some st)
    (own : j = k → Effect s k action (some st) (some st')) :
    Effect s k action (s.slots k) (t.slots k) := by
  rw [slots]
  by_cases same : j = k
  · subst same
    rw [here, set_slots_self]
    exact own rfl
  · exact .still (set_slots_other s st' (Ne.symm same))

section Calls

variable {s s' : Session} (k : Nat)

theorem reserve_effect (sound : s.Sound) (target : Target) (draw : Nat) :
    Effect s k (.reserve target draw) (s.slots k) ((s.reserve target draw).1.slots k) := by
  rw [reserve]
  split
  · exact .same
  next role =>
  split
  · exact .same
  next room =>
  simp only [Bool.or_eq_true, not_or, Bool.not_eq_true, Option.isSome_eq_false_iff,
    Option.isNone_iff_eq_none] at role
  simp only [not_or, not_le] at room
  have new := (s.nextID_facts sound.odd).2
  rcases control_plain s .open (by simp) s.nextID target.payload with
    ⟨-, outcome⟩ | ⟨-, outcome⟩ <;> rw [outcome]
  · exact .same
  · by_cases same : k = s.nextID
    · subst same
      have absent : s.slots s.nextID = none := by
        rw [← Option.not_isSome_iff_eq_none, ← sound.keyed.keys]
        intro known
        exact absurd (sound.keyed.below _ known) (not_le.mpr new)
      rw [absent]
      simpa [insert, set] using
        Effect.reserve (k := s.nextID) target draw role.1 role.2 room.1 new _
          (sound.traffic.credit_mem draw).1
    · apply Effect.still
      simp [insert, set, raise, queued, same]

theorem accept_effect {j : Nat} {e : Option ErrorKind} (taken : s.accept j = some (s', e)) :
    Effect s k (.accept j) (s.slots k) (s'.slots k) := by
  unfold accept at taken
  split at taken
  · cases taken
  next st here =>
  split at taken
  · cases taken
    exact .same
  next unfailed =>
  split at taken
  · cases taken
    exact .same
  next role =>
  simp only [Bool.or_eq_true, Bool.not_eq_true', not_or, Bool.not_eq_false,
    Bool.not_eq_true] at role
  have result := congrArg Prod.fst (Option.some.inj taken)
  have slots := (congrArg Session.slots result).symm.trans (control_slots _ _ _ _)
  apply Effect.set slots here
  rintro rfl
  exact .accept role.1 unfailed role.2

theorem reject_effect {j : Nat} {code : Byte} {e : Option ErrorKind}
    (taken : s.reject j code = some (s', e)) :
    Effect s k (.reject j code) (s.slots k) (s'.slots k) := by
  unfold reject at taken
  split at taken
  · cases taken
  next st here =>
  split at taken
  · cases taken
    exact .same
  next role =>
  simp only [Bool.or_eq_true, Bool.not_eq_true', not_or, Bool.not_eq_false,
    Bool.not_eq_true] at role
  have result := congrArg Prod.fst (Option.some.inj taken)
  have slots := (congrArg Session.slots result).symm.trans (control_slots _ _ _ _)
  apply Effect.set slots here
  rintro rfl
  exact .reject code role.1 role.2

theorem finish_slots {j : Nat} {e : Option ErrorKind} (taken : s.finish j = some (s', e)) :
    s'.slots = s.slots := by
  unfold finish at taken
  split at taken
  · cases taken
  split at taken
  · split at taken
    · cases taken
      rfl
    split at taken
    · cases taken
      rfl
    · have result := congrArg Prod.fst (Option.some.inj taken)
      exact (congrArg Session.slots result).symm.trans (control_slots _ _ _ _)
  · cases taken
    rfl

/-- A dropped stream is removed from the map, whatever becomes of its RESET. -/
theorem drop_slots {j : Nat} (taken : s.drop j = some s') :
    (s.slots j).isSome = true ∧ s'.slots = (s.remove j).slots := by
  unfold drop at taken
  split at taken
  · cases taken
  next st here =>
  refine ⟨by simp [here], ?_⟩
  have queue := control_slots (s.remove j) .reset j []
  split at taken
  · split at taken <;> next outcome =>
      cases taken
      rw [outcome] at queue
      exact queue
  · cases taken
    rfl

theorem drop_effect {t : Session} {j : Nat} {action : Action}
    (own : action = .drop j ∨ action = .dropIncoming) (slots : t.slots = s.slots)
    (taken : t.drop j = some s') : Effect s k action (s.slots k) (s'.slots k) := by
  have dropped := drop_slots taken
  rw [dropped.2]
  by_cases same : k = j
  · subst same
    rcases Option.isSome_iff_exists.mp dropped.1 with ⟨st, here⟩
    rw [slots] at here
    rw [here]
    have dropped : Effect s k action (some st) none := .drop own
    simpa [remove] using dropped
  · apply Effect.still
    simp [remove, same, slots]

omit k in
/-- `poll_read` of a stream that has not failed, into a buffer that is not full. -/
theorem pollRead_eq {k n : Nat} {st : Slot} (here : s.slots k = some st) (some_ : n ≠ 0)
    (unfailed : st.check = none) :
    s.pollRead k n = some (if 0 < st.granting n then
      match (s.set k (st.polled n)).control .credit k (bigEndian 2 (st.granting n)) with
      | (s, some e) => (s, .error e)
      | (s, none) => (s, st.answer n)
      else (s.set k (st.polled n), st.answer n)) := by
  simp only [pollRead, here, if_neg some_, unfailed]
  rw [apply_ite some]
  congr 1
  split <;> next outcome => exact outcome ▸ rfl

omit k in
/-- Everything `poll_read` can do. -/
theorem pollRead_cases {k n : Nat} {poll : Poll} (taken : s.pollRead k n = some (s', poll)) :
    (∃ st, s.slots k = some st ∧ s' = s ∧ (n = 0 ∧ poll = .ready [] ∨
      ∃ e, st.check = some e ∧ poll = .error e)) ∨
    ∃ st, s.slots k = some st ∧ n ≠ 0 ∧ st.check = none ∧
      ((st.granting n = 0 ∧ s' = s.set k (st.polled n) ∧ poll = st.answer n) ∨
        (0 < st.granting n ∧
          (s.set k (st.polled n)).control .credit k (bigEndian 2 (st.granting n)) =
            (s', none) ∧ poll = st.answer n) ∨
        ∃ e, 0 < st.granting n ∧
          (s.set k (st.polled n)).control .credit k (bigEndian 2 (st.granting n)) =
            (s', some e) ∧ poll = .error e) := by
  cases here : s.slots k with
  | none => simp [pollRead, here] at taken
  | some st =>
      by_cases some_ : n = 0
      · simp only [pollRead, here, some_, if_true] at taken
        cases taken
        exact .inl ⟨st, rfl, rfl, .inl ⟨some_, rfl⟩⟩
      cases unfailed : st.check with
      | some e =>
          simp only [pollRead, here, if_neg some_, unfailed] at taken
          cases taken
          exact .inl ⟨st, rfl, rfl, .inr ⟨e, unfailed, rfl⟩⟩
      | none =>
          refine .inr ⟨st, rfl, some_, unfailed, ?_⟩
          rw [pollRead_eq here some_ unfailed, Option.some.injEq] at taken
          split at taken
          · next positive =>
            split at taken <;> next queued =>
              cases taken
              first
                | exact .inr (.inr ⟨_, positive, queued, rfl⟩)
                | exact .inr (.inl ⟨positive, queued, rfl⟩)
          · next zero =>
            cases taken
            exact .inl ⟨Nat.eq_zero_of_not_pos zero, rfl, rfl⟩

theorem pollRead_effect {j n : Nat} {result : Poll} (taken : s.pollRead j n = some (s', result)) :
    Effect s k (.pollRead j n) (s.slots k) (s'.slots k) := by
  rcases pollRead_cases taken with ⟨st, -, rfl, -⟩ | ⟨st, here, some_, unfailed, outcome⟩
  · exact .same
  have slots : s'.slots = (s.set j (st.polled n)).slots := by
    rcases outcome with ⟨-, rfl, -⟩ | ⟨-, queued, -⟩ | ⟨e, -, queued, -⟩
    · rfl
    · exact (congrArg (·.1.slots) queued).symm.trans (control_slots _ _ _ _)
    · exact (congrArg (·.1.slots) queued).symm.trans (control_slots _ _ _ _)
  apply Effect.set slots here
  rintro rfl
  exact .read n some_ unfailed

omit k in
/-- Everything `poll_write` can do. -/
theorem pollWrite_cases {k : Nat} {buf : List Byte} {result : Except ErrorKind (Option Nat)}
    (taken : s.pollWrite k buf = some (s', result)) :
    ∃ st, s.slots k = some st ∧
      ((s' = s ∧ ((∃ e, result = .error e) ∨ (buf = [] ∧ result = .ok (some 0)) ∨
        (st.check = none ∧ st.room buf = 0 ∧ result = .ok none))) ∨
      (st.check = none ∧ st.opened = true ∧ st.localFin = false ∧ st.room buf ≠ 0 ∧
        s' = s.set k (st.writing (buf.take (st.room buf))) ∧
        result = .ok (some (st.room buf)))) := by
  unfold pollWrite at taken
  split at taken
  · cases taken
  next st here =>
  refine ⟨st, here, ?_⟩
  split at taken
  · next e _ =>
    cases taken
    exact .inl ⟨rfl, .inl ⟨e, rfl⟩⟩
  next unfailed =>
  split at taken
  · cases taken
    exact .inl ⟨rfl, .inl ⟨_, rfl⟩⟩
  next state =>
  simp only [Bool.or_eq_true, Bool.not_eq_true', not_or, Bool.not_eq_false,
    Bool.not_eq_true] at state
  split at taken
  · next empty =>
    cases taken
    exact .inl ⟨rfl, .inr (.inl ⟨empty, rfl⟩)⟩
  simp only at taken
  split at taken
  · next none_ =>
    cases taken
    exact .inl ⟨rfl, .inr (.inr ⟨unfailed, none_, rfl⟩)⟩
  next some_ =>
  cases taken
  have room : st.room buf ≤ buf.length := (min_le_left _ _).trans (min_le_left _ _)
  refine .inr ⟨unfailed, state.1, state.2, some_, ?_, rfl⟩
  rw [Slot.writing, List.length_take_of_le room]
  rfl

theorem pollWrite_effect {j : Nat} {buf : List Byte}
    {result : Except ErrorKind (Option Nat)} (taken : s.pollWrite j buf = some (s', result)) :
    Effect s k (.pollWrite j buf) (s.slots k) (s'.slots k) := by
  rcases pollWrite_cases taken with
    ⟨st, here, ⟨rfl, -⟩ | ⟨unfailed, opened, unended, some_, rfl, -⟩⟩
  · exact .same
  apply Effect.set rfl here
  rintro rfl
  exact .write buf unfailed opened unended some_

omit k in
/-- `poll_shutdown` of a stream that has not failed. -/
theorem pollShutdown_eq {k : Nat} {st : Slot} (here : s.slots k = some st)
    (unfailed : st.check = none) :
    s.pollShutdown k = some (s.set k { st with localFin := true }, .ok st.finFlushed) := by
  simp only [pollShutdown, here, unfailed]

theorem pollShutdown_effect {j : Nat} {result : Except ErrorKind Bool}
    (taken : s.pollShutdown j = some (s', result)) :
    Effect s k (.pollShutdown j) (s.slots k) (s'.slots k) := by
  cases here : s.slots j with
  | none => simp [pollShutdown, here] at taken
  | some st =>
      cases unfailed : st.check with
      | some e =>
          simp only [pollShutdown, here, unfailed] at taken
          cases taken
          exact .same
      | none =>
          rw [pollShutdown_eq here unfailed] at taken
          cases taken
          apply @Effect.set _ _ _ _ _ _ { st with localFin := true } rfl here
          rintro rfl
          exact .shutdown unfailed

theorem fail_effect {t : Session} (slots : t.slots = s.slots) (failure : t.failure = s.failure)
    (e : ErrorKind) {action : Action} (cause : action.fails = true) :
    Effect s k action (s.slots k) ((t.fail e).slots k) := by
  unfold fail
  split
  · exact .still (congrFun slots k)
  next alive =>
  rw [failure] at alive
  cases here : s.slots k with
  | none => exact .still (by simp [slots, here])
  | some st =>
      have failed : Effect s k action (some st) (some (st.fail e)) := .fail e cause alive
      simpa [slots, here] using failed

end Calls

/-! ## The loops -/

section Loops

variable {s s' : Session} (k : Nat)

theorem check_effect (taken : s.check = some s') : Effect s k .check (s.slots k) (s'.slots k) := by
  unfold check at taken
  split at taken
  · split at taken
    · cases taken
    split at taken
    · cases taken
      exact .same
    · next checked =>
      cases taken
      rcases Option.bind_eq_some_iff.mp checked with ⟨hd, -, passed⟩
      unfold checkHeader at passed
      split at passed
      · split at passed
        · split at passed
          · next st found =>
            rcases Option.filter_eq_some_iff.mp found with ⟨here, live⟩
            split at passed
            · cases passed
            next legal =>
            simp only [Bool.or_eq_true, beq_iff_eq, not_or] at legal
            cases passed
            apply @Effect.set _ _ _ _ _ _ st.awaiting rfl here
            intro _
            exact .check live (Nat.pos_of_ne_zero legal.2)
          · cases passed
            exact .same
        · cases passed
          exact .same
      · cases passed
  · cases taken

theorem recv_effect {bs : List Byte} (taken : s.recv bs = some s') :
    Effect s k (.recv bs) (s.slots k) (s'.slots k) := by
  unfold recv at taken
  split at taken
  · cases taken
  split at taken
  · split at taken <;> cases taken
    exact .same
  · split at taken <;> cases taken
    exact .same
  · next hd got at_ =>
    split at taken <;> cases taken
    unfold recvData
    rcases publish_cases (s.took bs) hd.id bs ((got ++ bs).length == hd.length) with
      ⟨-, outcome⟩ | ⟨st, here, live, ⟨-, outcome⟩ | ⟨c, last, outcome⟩⟩ <;>
      rw [outcome] <;> simp only
    · split_ifs <;> exact .same
    · exact .same
    · have replaced : ∀ t : Session, t.slots = (s.set hd.id (st.published c bs
          ((got ++ bs).length == hd.length))).slots →
          Effect s k (.recv bs) (s.slots k) (t.slots k) := by
        intro t slots
        apply Effect.set slots here
        intro own
        exact .publish bs hd got _ at_ own live last
      split_ifs <;> exact replaced _ rfl

theorem dispatch_effect {draw : Nat} (sound : s.Sound) (running : s.ended = none)
    (taken : s.dispatch draw = some s') :
    Effect s k (.dispatch draw) (s.slots k) (s'.slots k) := by
  unfold dispatch at taken
  split at taken
  · next hd p at_ =>
    split at taken
    · cases taken
    next whole =>
    by_cases open_ : hd.kind = .open
    · have new := sound.fresh running hd p at_ open_
      have absent : s.slots hd.id = none := by
        rw [← Option.not_isSome_iff_eq_none, ← sound.keyed.keys]
        intro known
        exact absurd (sound.keyed.below _ known) (not_le.mpr new)
      have inserted : ∀ t : Session, t.slots = ((s.raise hd.id).insert hd.id
          (Slot.new (s.traffic.creditBlocks.choose draw))).slots →
          Effect s k (.dispatch draw) (s.slots k) (t.slots k) := by
        intro t slots
        rw [slots]
        by_cases same : k = hd.id
        · subst same
          rw [absent]
          simpa [insert, set] using
            Effect.arrive draw new _ (sound.traffic.credit_mem draw).1
        · exact .still (by simp [insert, set, raise, same])
      rcases takeEffect_open s open_ p draw with outcome | outcome | outcome | outcome <;>
        rw [outcome] at taken <;> cases taken
      · exact .same
      · exact .same
      · exact inserted _ rfl
      · exact inserted _ rfl
    · simp only [takeEffect, if_neg open_] at taken
      cases found : (s.slots hd.id).filter Slot.live with
      | none =>
          rw [found] at taken
          cases taken
          exact .same
      | some st =>
          rcases Option.filter_eq_some_iff.mp found with ⟨here, live⟩
          rw [found] at taken
          cases delivered : s.deliver st hd.kind p with
          | error e =>
              simp only [delivered] at taken
              cases taken
              exact .same
          | ok st' =>
              simp only [delivered] at taken
              cases taken
              apply @Effect.set _ _ _ _ _ _ st' rfl here
              intro own
              exact .deliver draw hd p at_ (not_not.mp whole) own open_ live
                (deliver_delivered delivered)
  · cases taken

theorem batch_effect {d : Draws} (taken : s.batch d = some s') :
    Effect s k (.batch d) (s.slots k) (s'.slots k) := by
  rcases (batch_cases taken).2 with rfl | ⟨e, -, rfl⟩ | ⟨alive, rfl⟩
  · exact .same
  · exact .same
  · exact .batch d alive

theorem written_effect {e : Option ErrorKind} (taken : s.written e = some s') :
    Effect s k (.written e) (s.slots k) (s'.slots k) := by
  unfold written at taken
  split at taken
  · split at taken
    · split at taken <;> cases taken
      exact .same
    · split at taken <;> cases taken
      rw [markAll, foldl_mark]
      cases here : s.slots k with
      | none => exact .still (by simp [marking, here])
      | some st =>
          have marked : Effect s k (.written none) (some st)
              (some (st.marked (s.touched.filter (·.id = k)))) := .mark
          simpa [marking, here] using marked
  · cases taken

theorem watchdog_effect {expired : List Nat} {idle : Bool}
    (taken : s.watchdog expired idle = some s') :
    Effect s k (.watchdog expired idle) (s.slots k) (s'.slots k) := by
  unfold watchdog at taken
  split at taken
  · cases taken
    exact .same
  next alive =>
  simp only at taken
  have slots : s'.slots =
      (s.expire fun k => s.liveAt k && expired.contains k).slots := by
    rcases resetAll_cases (s.ids.filter fun k => s.liveAt k && expired.contains k)
      (s.expire fun k => s.liveAt k && expired.contains k) with
      outcome | ⟨early, j, late, -, outcome⟩ <;> rw [outcome] at taken <;> simp only at taken
    · split at taken <;> cases taken <;> rfl
    · cases taken
      rfl
  rw [slots]
  cases here : s.slots k with
  | none => exact .still (by simp [expire, here])
  | some st =>
      simp only [expire, here, Option.map_some]
      split_ifs with late
      · rw [Bool.and_eq_true, List.contains_iff_mem, liveAt, here] at late
        exact .expire expired idle late.2 alive late.1
      · exact .same

end Loops

/-- What one step does to one slot. -/
theorem step_effect {s s' : Session} {action : Action} (sound : s.Sound)
    (taken : s.step action = some s') (k : Nat) :
    Effect s k action (s.slots k) (s'.slots k) := by
  cases action with
  | reserve target draw =>
      cases taken
      exact reserve_effect k sound target draw
  | accept j =>
      rcases Option.map_eq_some_iff.mp (call_some taken) with ⟨⟨_, e⟩, accepted, rfl⟩
      exact accept_effect k accepted
  | reject j code =>
      rcases Option.map_eq_some_iff.mp (call_some taken) with ⟨⟨_, e⟩, rejected, rfl⟩
      exact reject_effect k rejected
  | finish j =>
      rcases Option.map_eq_some_iff.mp (call_some taken) with ⟨⟨_, e⟩, finished, rfl⟩
      exact .still (congrFun (finish_slots finished) k)
  | drop j => exact drop_effect k (.inl rfl) rfl (call_some taken)
  | pollRead j n =>
      rcases Option.map_eq_some_iff.mp (call_some taken) with ⟨⟨_, result⟩, polled, rfl⟩
      exact pollRead_effect k polled
  | pollWrite j buf =>
      rcases Option.map_eq_some_iff.mp (call_some taken) with ⟨⟨_, result⟩, polled, rfl⟩
      exact pollWrite_effect k polled
  | pollShutdown j =>
      rcases Option.map_eq_some_iff.mp (call_some taken) with ⟨⟨_, result⟩, polled, rfl⟩
      exact pollShutdown_effect k polled
  | close =>
      cases taken
      exact fail_effect k rfl rfl _ rfl
  | incoming =>
      simp only [step] at taken
      split at taken <;> cases taken
      exact .same
  | hangUp =>
      cases taken
      exact .same
  | dropIncoming =>
      simp only [step] at taken
      split at taken
      · next j rest hungUp queue =>
        exact @drop_effect s s' k { s with incoming := rest } j _ (.inr rfl) rfl taken
      · cases taken
  | fail i =>
      simp only [step] at taken
      split at taken <;> cases taken
      next e _ =>
      have cause : (Action.fail i).fails = true := rfl
      exact @fail_effect s k { s with failing := s.failing.eraseIdx i } rfl rfl e _ cause
  | failTask =>
      rcases Option.map_eq_some_iff.mp taken with ⟨e, -, rfl⟩
      have cause : Action.failTask.fails = true := rfl
      exact fail_effect k rfl rfl e cause
  | recv bs => exact recv_effect k (task_some taken).2
  | recvError e =>
      have ended := (task_some taken).2
      unfold recvError at ended
      split at ended <;> cases ended
      exact .same
  | check => exact check_effect k (task_some taken).2
  | dispatch draw => exact dispatch_effect k sound (task_some taken).1 (task_some taken).2
  | batch draws => exact batch_effect k (task_some taken).2
  | send n =>
      have sent := (task_some taken).2
      unfold send at sent
      split at sent <;> cases sent
      exact .same
  | written e => exact written_effect k (task_some taken).2
  | watchdog expired idle => exact watchdog_effect k (task_some taken).2

/-! ## What the writer has recorded -/

theorem drop_writer {s s' : Session} {k : Nat} (taken : s.drop k = some s') :
    s'.emitted = s.emitted ∧ s'.touched = s.touched := by
  unfold drop at taken
  split at taken
  · cases taken
  have quiet := (control_quiet (s.remove k) .reset k []).1
  split at taken
  · split at taken <;> next outcome =>
      cases taken
      rw [outcome] at quiet
      exact ⟨quiet.emitted, quiet.touched⟩
  · cases taken
    exact ⟨rfl, rfl⟩

theorem read_writer {s s' : Session} {bs : List Byte} (taken : s.recv bs = some s') :
    s'.emitted = s.emitted ∧ s'.touched = s.touched := by
  unfold recv at taken
  split at taken
  · cases taken
  split at taken
  · split at taken <;> cases taken
    exact ⟨rfl, rfl⟩
  · split at taken <;> cases taken
    exact ⟨rfl, rfl⟩
  · next hd got at_ =>
    split at taken <;> cases taken
    unfold recvData
    rcases publish_cases (s.took bs) hd.id bs ((got ++ bs).length == hd.length) with
      ⟨-, outcome⟩ | ⟨st, here, live, ⟨-, outcome⟩ | ⟨c, last, outcome⟩⟩ <;>
      rw [outcome] <;> simp only
    · split_ifs <;> exact ⟨rfl, rfl⟩
    · exact ⟨rfl, rfl⟩
    · split_ifs <;> exact ⟨rfl, rfl⟩

theorem check_writer {s s' : Session} (taken : s.check = some s') :
    s'.emitted = s.emitted ∧ s'.touched = s.touched := by
  unfold check at taken
  split at taken
  · split at taken
    · cases taken
    split at taken
    · cases taken
      exact ⟨rfl, rfl⟩
    · next checked =>
      cases taken
      rcases Option.bind_eq_some_iff.mp checked with ⟨hd, -, passed⟩
      unfold checkHeader at passed
      split_ifs at passed
      · split at passed
        · split_ifs at passed
          cases passed
          exact ⟨rfl, rfl⟩
        · cases passed
          exact ⟨rfl, rfl⟩
      · cases passed
        exact ⟨rfl, rfl⟩
  · cases taken

theorem dispatch_writer {s s' : Session} {draw : Nat} (taken : s.dispatch draw = some s') :
    s'.emitted = s.emitted ∧ s'.touched = s.touched := by
  unfold dispatch at taken
  split at taken
  · next hd p at_ =>
    split at taken
    · cases taken
    by_cases open_ : hd.kind = .open
    · rcases takeEffect_open s open_ p draw with outcome | outcome | outcome | outcome <;>
        rw [outcome] at taken <;> cases taken <;> exact ⟨rfl, rfl⟩
    · simp only [takeEffect, if_neg open_] at taken
      cases found : (s.slots hd.id).filter Slot.live with
      | none =>
          rw [found] at taken
          cases taken
          exact ⟨rfl, rfl⟩
      | some st =>
          rw [found] at taken
          cases delivered : s.deliver st hd.kind p <;> simp only [delivered] at taken <;>
            cases taken <;> exact ⟨rfl, rfl⟩
  · cases taken

/-- Only a batch and its end change what the writer has recorded. -/
theorem step_writer {s s' : Session} {action : Action} (sound : s.Sound)
    (taken : s.step action = some s') (other : ∀ d, action ≠ .batch d) :
    s'.emitted = s.emitted ∧ (action ≠ .written none → s'.touched = s.touched) := by
  have of_same : s'.emitted = s.emitted ∧ s'.touched = s.touched →
      s'.emitted = s.emitted ∧ (action ≠ .written none → s'.touched = s.touched) :=
    fun same => ⟨same.1, fun _ => same.2⟩
  have of_quiet : Quiet s s' →
      s'.emitted = s.emitted ∧ (action ≠ .written none → s'.touched = s.touched) :=
    fun quiet => of_same ⟨quiet.emitted, quiet.touched⟩
  cases action with
  | reserve target draw =>
      cases taken
      exact of_quiet (reserve_quiet sound target draw).1
  | accept k =>
      rcases Option.map_eq_some_iff.mp (call_some taken) with ⟨r, accepted, rfl⟩
      exact of_quiet (accept_quiet accepted).1
  | reject k code =>
      rcases Option.map_eq_some_iff.mp (call_some taken) with ⟨r, rejected, rfl⟩
      exact of_quiet (reject_quiet rejected).1
  | finish k =>
      rcases Option.map_eq_some_iff.mp (call_some taken) with ⟨r, finished, rfl⟩
      exact of_quiet (finish_quiet finished).1
  | drop k => exact of_same (drop_writer (call_some taken))
  | pollRead k n =>
      rcases Option.map_eq_some_iff.mp (call_some taken) with ⟨r, polled, rfl⟩
      exact of_quiet (pollRead_quiet polled).1
  | pollWrite k buf =>
      rcases Option.map_eq_some_iff.mp (call_some taken) with ⟨r, polled, rfl⟩
      exact of_quiet (pollWrite_quiet polled).1
  | pollShutdown k =>
      rcases Option.map_eq_some_iff.mp (call_some taken) with ⟨r, polled, rfl⟩
      exact of_quiet (pollShutdown_quiet polled).1
  | close =>
      cases taken
      exact of_quiet (fail_quiet s _).1
  | incoming =>
      simp only [step] at taken
      split at taken <;> cases taken
      exact of_same ⟨rfl, rfl⟩
  | hangUp =>
      cases taken
      exact of_same ⟨rfl, rfl⟩
  | dropIncoming =>
      simp only [step] at taken
      split at taken
      · next j rest hungUp queue =>
        exact of_same (@drop_writer { s with incoming := rest } s' j taken)
      · cases taken
  | fail i =>
      simp only [step] at taken
      split at taken <;> cases taken
      exact of_quiet (failing_quiet s i _).1
  | failTask =>
      rcases Option.map_eq_some_iff.mp taken with ⟨e, -, rfl⟩
      exact of_quiet (fail_quiet s e).1
  | recv bs => exact of_same (read_writer (task_some taken).2)
  | recvError e =>
      have ended := (task_some taken).2
      unfold recvError at ended
      split at ended <;> cases ended
      exact of_same ⟨rfl, rfl⟩
  | check => exact of_same (check_writer (task_some taken).2)
  | dispatch draw => exact of_same (dispatch_writer (task_some taken).2)
  | batch draws => exact (other draws rfl).elim
  | send n =>
      have sent := (task_some taken).2
      unfold send at sent
      split at sent <;> cases sent
      exact of_same ⟨rfl, rfl⟩
  | written e =>
      have written := (task_some taken).2
      unfold Session.written at written
      split at written
      · split at written
        · split at written <;> cases written
          exact of_same ⟨rfl, rfl⟩
        · split at written <;> cases written
          rw [markAll, foldl_mark]
          exact ⟨rfl, fun other => (other rfl).elim⟩
      · cases written
  | watchdog expired idle => exact of_quiet (watchdog_quiet (task_some taken).2).1

/-! ## Assembling a batch -/

/-- The pieces of `batch`; frames of streams come when the control queue is empty. -/
inductive Emits : Session → Session → Prop where
  | shaped (s : Session) (d : Draws) : Emits s (s.shaped d)
  | control {s : Session} {c : Frame} {rest : List Frame} (queue : s.controls = c :: rest) :
      Emits s ((s.leave rest).push c (controlTouch c))
  | data {s : Session} {k : Nat} {st : Slot} {p : List Byte} {rest : List (List Byte)} (n : Nat)
      (drained : s.controls = []) (here : s.slots k = some st) (live : st.live = true)
      (opened : st.opened = true) (pending : st.output = p :: rest) (some_ : 0 < n)
      (available : n ≤ p.length) (small : n ≤ blockSize) (credit : 0 < st.sendCredit) :
      Emits s ((s.set k (st.sentData n p rest)).push ⟨.data, k, p.take n⟩ [⟨k, false, false⟩])
  | fin {s : Session} {k : Nat} {st : Slot} (drained : s.controls = [])
      (here : s.slots k = some st) (live : st.live = true) (opened : st.opened = true)
      (ended : st.localFin = true) (first : st.finSent = false) (empty : st.output = []) :
      Emits s ((s.set k st.sentFin).push ⟨.fin, k, []⟩ [⟨k, true, false⟩])
  | served (s : Session) (k : Nat) : Emits s (s.served k)

/-- Zero or more pieces of a batch. -/
abbrev Emission : Session → Session → Prop := Relation.ReflTransGen Emits

/-- The control queue is empty, or the batch has its bytes. -/
def Drained (s : Session) (limit lead : Nat) : Prop :=
  s.controls = [] ∨ limit ≤ lead + s.out.length

theorem takeControls_emits (limit lead : Nat) (controls : List Frame) {s : Session}
    (queue : s.controls = controls) :
    Emission s (takeControls limit lead controls s) ∧
      (takeControls limit lead controls s).Drained limit lead := by
  induction controls generalizing s with
  | nil =>
      have same : s.leave [] = s := by rw [leave, ← queue]
      rw [takeControls, same]
      exact ⟨.refl, .inl queue⟩
  | cons c rest induction =>
      have first : Emits s ((s.leave rest).push c (controlTouch c)) := .control queue
      simp only [takeControls]
      split_ifs with full
      · exact ⟨.single first, .inr full⟩
      · have later := induction (s := (s.leave rest).push c (controlTouch c)) rfl
        exact ⟨.head first later.1, later.2⟩

theorem sendData_emits (k limit lead credit share : Nat) {s : Session} {st : Slot}
    (drained : s.controls = []) (here : s.slots k = some st) (live : st.live = true)
    (opened : st.opened = true) (funds : st.sendCredit = credit) :
    Emission s (sendData k limit lead credit share s).1 ∧
      (sendData k limit lead credit share s).1.controls = [] ∧
      ∃ st', (sendData k limit lead credit share s).1.slots k = some st' ∧
        st'.live = true ∧ st'.opened = true := by
  induction credit generalizing share s st with
  | zero => exact ⟨.refl, drained, st, here, live, opened⟩
  | succ credit induction =>
      simp only [sendData, here]
      cases pending : st.output with
      | nil => exact ⟨.refl, drained, st, here, live, opened⟩
      | cons p rest =>
          simp only
          generalize size : min (min (min p.length blockSize) share)
            (limit - (lead + s.out.length + headerSize)) = n
          have sized : n ≤ min p.length blockSize := by
            rw [← size]
            exact (min_le_left _ _).trans (min_le_left _ _)
          split_ifs with none_
          · exact ⟨.refl, drained, st, here, live, opened⟩
          · have first : Emits s (s.emitData k n st p rest) :=
              .data n drained here live opened pending (Nat.pos_of_ne_zero none_)
                (sized.trans (min_le_left _ _)) (sized.trans (min_le_right _ _)) (by omega)
            have after : (s.emitData k n st p rest).slots k = some (st.sentData n p rest) := by
              simp [emitData, push, set, Slot.sentData]
            have left : (st.sentData n p rest).sendCredit = credit := by
              simp [Slot.sentData, funds]
            have later := induction (share - n) (s := s.emitData k n st p rest) drained after
              live opened left
            exact ⟨.head first later.1, later.2⟩

theorem turn_emits (limit lead share k : Nat) {s : Session} (drained : s.controls = []) :
    Emission s (turn limit lead share k s).1 ∧
      (turn limit lead share k s).1.controls = [] := by
  unfold turn
  cases here : s.slots k with
  | none => exact ⟨.refl, drained⟩
  | some st =>
      simp only
      split_ifs with skipped
      · exact ⟨.refl, drained⟩
      simp only [Bool.or_eq_true, Bool.not_eq_true', not_or, Bool.not_eq_false] at skipped
      rcases sendData_emits k limit lead st.sendCredit share drained here skipped.1 skipped.2
        rfl with ⟨data, still, st', after, live, opened⟩
      have fin : Emission (sendData k limit lead st.sendCredit share s).1
          ((sendData k limit lead st.sendCredit share s).1.sendFin k).1 ∧
          ((sendData k limit lead st.sendCredit share s).1.sendFin k).1.controls = [] := by
        simp only [sendFin, after]
        split_ifs with due
        · simp only [Bool.and_eq_true, Bool.not_eq_true', List.isEmpty_iff] at due
          exact ⟨.single (.fin still after live opened due.1.1 due.1.2 due.2), still⟩
        · exact ⟨.refl, still⟩
      exact ⟨(data.trans fin.1).tail (.served _ k), fin.2⟩

theorem round_emits (limit lead : Nat) (share : Nat → Nat) (ids : List Nat) (progress : Bool)
    {s : Session} (drained : s.Drained limit lead) :
    Emission s (round limit lead share ids progress s).1 ∧
      (round limit lead share ids progress s).1.Drained limit lead := by
  induction ids generalizing s progress with
  | nil => exact ⟨.refl, drained⟩
  | cons k rest induction =>
      simp only [round]
      split_ifs with full
      · exact ⟨.refl, drained⟩
      · have empty : s.controls = [] := drained.resolve_right fun past => full (by omega)
        have first := turn_emits limit lead (share (lead + s.out.length)) k empty
        have later := induction
          (progress || (turn limit lead (share (lead + s.out.length)) k s).2) (.inl first.2)
        exact ⟨first.1.trans later.1, later.2⟩

theorem rounds_emits (limit lead : Nat) (share : Nat → Nat) (ids : List Nat) (fuel : Nat)
    {s : Session} (drained : s.Drained limit lead) :
    Emission s (rounds limit lead share ids fuel s) := by
  induction fuel generalizing s with
  | zero => exact .refl
  | succ fuel induction =>
      have first := round_emits limit lead share ids false drained
      rw [rounds]
      split
      · next after ran =>
        rw [ran] at first
        exact first.1.trans (induction first.2)
      · next after ran =>
        rw [ran] at first
        exact first.1

/-- A batch is made of the pieces. -/
theorem assembled_emits (s : Session) (d : Draws) : Emission s (s.assembled d) := by
  have controls := takeControls_emits (s.limit d) s.lead s.controls (s := s.shaped d) rfl
  exact .head (.shaped s d) (controls.1.trans (rounds_emits _ _ _ _ _ controls.2))

end Session

end Veil.Rust

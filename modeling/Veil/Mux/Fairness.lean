import Veil.Mux.Isolation
import Veil.Lib.Rotation

/-!
# The writer takes the streams in turn

A batch goes around the streams that are ready when it is assembled, in the
order of their identifiers and on from the stream that was sent for last.  It
ends wherever its limit is reached, and the next batch sees another set of
ready streams.  All the same no DATA frame passes a stream that is ready: from
one frame of a stream to its next one, every stream that stays ready sends one.
-/

namespace Veil.Mux

open Veil.Lib

namespace Session

/-! ## The turns of a run -/

/-- The stream that DATA was sent for last, if any. -/
def cursor (s : Session) : Option Nat :=
  if s.lastSent = 0 then none else some s.lastSent

/-- A DATA frame is put into a batch: the session before the batch, and the frames before it. -/
structure Turn where
  session : Session
  sent : List Frame
  frame : Frame

/-- The stream that has its turn. -/
def Turn.who (turn : Turn) : Nat := turn.frame.id

end Session

/-- A stream after a DATA frame of `n` bytes of it has gone into a batch. -/
def Stream.spend (st : Stream) (n : Nat) : Stream :=
  { st with
    request := st.request.map fun r => { r with off := r.off + n }
    sendCredit := st.sendCredit - 1
    transferred := st.transferred + n }

namespace Session

/-- Stream `k` after those of the given frames that carry data of it. -/
def spent (s : Session) (sent : List Frame) (k : Nat) : Option Stream :=
  (s.objs k).map fun st =>
    (sent.filter fun f => f.kind = .data ∧ f.id = k).foldl
      (fun st f => st.spend f.payload.length) st

/-- At this turn stream `k` has bytes to send, credit for them and no error. -/
def Turn.Ready (turn : Turn) (k : Nat) : Prop :=
  k ∈ turn.session.streams ∧
    ∃ st, turn.session.spent turn.sent k = some st ∧ st.wantsToSend = true

instance (turn : Turn) (k : Nat) : Decidable (turn.Ready k) :=
  decidable_of_iff (k ∈ turn.session.streams ∧
      (turn.session.spent turn.sent k).any Stream.wantsToSend = true) <| by
    rw [Turn.Ready, Option.any_eq_true]

/-- The DATA frames of a batch, each with the frames before it. -/
def turns (s : Session) : List Frame → List Frame → List Turn
  | _, [] => []
  | sent, f :: rest =>
      if f.kind = .data then ⟨s, sent, f⟩ :: s.turns (sent ++ [f]) rest
      else s.turns (sent ++ [f]) rest

/-- The DATA frames of a run, as far as its actions are possible. -/
def log (s : Session) : List Action → List Turn
  | [] => []
  | action :: rest =>
      match s.step action with
      | none => []
      | some s' => s.turns [] (s'.emitted.drop s.emitted.length) ++ s'.log rest

theorem turns_append (s : Session) (sent first second : List Frame) :
    s.turns sent (first ++ second) = s.turns sent first ++ s.turns (sent ++ first) second := by
  induction first generalizing sent with
  | nil => simp [turns]
  | cons f rest induction =>
      rw [List.cons_append, turns, turns, induction, List.append_assoc, List.singleton_append]
      split_ifs <;> rfl

theorem turns_control (s : Session) {sent frames : List Frame}
    (control : ∀ f ∈ frames, f.kind ≠ .data) : s.turns sent frames = [] := by
  induction frames generalizing sent with
  | nil => rfl
  | cons f rest induction =>
      rw [turns, if_neg (control f List.mem_cons_self)]
      exact induction fun g member => control g (List.mem_cons_of_mem _ member)

/-! ## One batch -/

/-- A DATA frame goes into a batch and passes no ready stream of the given ones. -/
def Serve (order : List Nat) (work work' : Session × Assembly) : Prop :=
  EmitStep work work' ∧
    ∀ x, work.1.cursor = some x → ∀ j ∈ order, work.1.Wants j → ¬ Ahead x j work'.1.lastSent

/-- Any number of them do. -/
def Serves (order : List Nat) : Session × Assembly → Session × Assembly → Prop :=
  Relation.ReflTransGen (Serve order)

theorem Serves.emits {order : List Nat} {work work' : Session × Assembly}
    (serves : Serves order work work') : Emits work work' :=
  Relation.ReflTransGen.mono (fun _ _ serve => serve.1) _ _ serves

/-- What the data loop relies on: the streams it serves have sent no more than they were given. -/
structure Servable (order : List Nat) (s : Session) : Prop where
  able : Sendable s order
  bounded : ∀ k ∈ order, ∀ st r, s.objs k = some st → st.request = some r →
    r.off ≤ r.p.length

/-- The streams still to come in a round, and those of the next one, in the order they have. -/
def InTurn (s : Session) (rest passed : List Nat) : Prop :=
  ∀ x, s.cursor = some x → (rest ++ passed).Pairwise fun k j => s.Wants j → ¬ Ahead x j k

/-- A stream that has nothing to send lets its turn pass. -/
theorem InTurn.skip {s : Session} {k : Nat} {rest passed : List Nat}
    (held : s.InTurn (k :: rest) passed) (idle : ¬ s.Wants k) :
    s.InTurn rest (passed ++ [k]) := by
  intro x last
  have ordered := held x last
  rw [List.cons_append, List.pairwise_cons] at ordered
  rw [← List.append_assoc, List.pairwise_append]
  refine ⟨ordered.2, List.pairwise_singleton _ _, ?_⟩
  intro i _ j member wants
  obtain rfl := List.mem_singleton.mp member
  exact (idle wants).elim

/-- Behind the stream that was sent for last, the others come in their order. -/
theorem InTurn.after {s : Session} {x : Nat} {rest passed : List Nat}
    (ordered : (passed ++ s.lastSent :: rest).Pairwise (Ahead x)) :
    s.InTurn rest (passed ++ [s.lastSent]) := by
  intro y last
  have same : s.lastSent = y := by
    unfold cursor at last
    split_ifs at last
    exact Option.some.inj last
  subst same
  exact (pairwise_rebase ordered).imp fun ahead _ => ahead.asymm

theorem wantsToSend_of {s : Session} {k : Nat} {st : Stream} {r : WriteRequest}
    (wants : s.Wants k) (here : s.objs k = some st) (pending : st.request = some r) :
    r.finished = false ∧ r.off < r.p.length ∧ 0 < st.sendCredit := by
  obtain ⟨-, st', found, busy⟩ := wants
  cases here.symm.trans found
  simp only [Stream.wantsToSend, pending, Bool.and_eq_true, Bool.not_eq_true',
    decide_eq_true_eq] at busy
  exact ⟨busy.1.1.1, busy.1.1.2, busy.1.2⟩

theorem Servable.emit {order : List Nat} {work work' : Session × Assembly}
    (held : Servable order work.1) (step : EmitStep work work') : Servable order work'.1 := by
  rcases step with ⟨k, st, r, n, -, here, pending, -, -, available, -, window, unfailed, rfl⟩
  constructor
  · exact emitData_sendable held.able unfailed window
  · intro j member st' r' found pending'
    simp only [emitData, set] at found
    split at found
    · next own =>
        subst own
        cases found
        cases pending'
        have within := held.bounded j member st r here pending
        simp only
        omega
    · exact held.bounded j member st' r' found pending'

/--
One round of the data loop.  It comes to the end of the ready streams, unless
the batch is full.
-/
theorem dataRound_serves {l x : Nat} {share : Nat → Nat} {order : List Nat}
    (positive : ∀ size, 0 < share size) (small : ∀ size, share size ≤ blockSize)
    (ordered : order.Pairwise (Ahead x)) (passed rest : List Nat) (work : Session × Assembly)
    (whole : order = passed ++ rest) (held : Servable order work.1)
    (turn : work.1.InTurn rest passed) :
    Serves order work (dataRound l share rest work).1 ∧
      Servable order (dataRound l share rest work).1.1 ∧
      (((dataRound l share rest work).1.1.InTurn [] order) ∨
        l ≤ (dataRound l share rest work).1.2.size + headerSize) := by
  induction rest generalizing passed work with
  | nil =>
      rw [List.append_nil] at whole
      subst whole
      exact ⟨.refl, held, .inl turn⟩
  | cons k rest induction =>
      have on : order = passed ++ [k] ++ rest := by
        rw [whole, List.append_assoc, List.singleton_append]
      have idle (nothing : ¬ work.1.Wants k) := induction _ work on held (turn.skip nothing)
      rw [dataRound]
      split
      · next none_ =>
          apply idle
          rintro ⟨-, st, here, busy⟩
          simp only [here, Option.bind_some, Option.map_eq_none_iff] at none_
          simp [Stream.wantsToSend, none_] at busy
      next st r found =>
      rw [Option.bind_eq_some_iff] at found
      rcases found with ⟨st', here, pending⟩
      rw [Option.map_eq_some_iff] at pending
      rcases pending with ⟨r', request, same⟩
      cases same
      split
      · next done =>
          apply idle
          intro wants
          have busy := wantsToSend_of wants here request
          rcases done with finished | complete | broke
          · rw [busy.1] at finished
            cases finished
          · omega
          · omega
      next unfinished =>
      simp only [not_or, Bool.not_eq_true] at unfinished
      have member : k ∈ order := by simp [whole]
      have within := held.bounded k member st r here request
      simp only
      split
      · next full =>
          refine ⟨.refl, held, .inr ?_⟩
          have some_ := positive work.2.size
          show l ≤ work.2.size + headerSize
          omega
      next progress =>
      rcases held.able k member with ⟨listed, fine⟩
      rcases fine st here with ⟨unfailed, credit⟩
      have window : 0 < st.sendCredit := lt_of_le_of_ne credit (Ne.symm unfinished.2.2)
      have step : EmitStep work (emitData k st r (min (share work.2.size)
          (min (r.p.length - r.off) (l - work.2.size - headerSize))) work) :=
        ⟨k, st, r, _, listed, here, request, unfinished.1, by omega, by omega,
          (min_le_left _ _).trans (small _), window, unfailed, rfl⟩
      have next := induction (passed ++ [k]) _ on (held.emit step)
        (InTurn.after (x := x) (whole ▸ ordered))
      refine ⟨.head ⟨step, ?_⟩ next.1, next.2⟩
      intro y last j listed wants
      have first := turn y last
      rw [List.cons_append, List.pairwise_cons] at first
      rw [whole] at listed
      rcases List.mem_append.mp listed with before | after
      · exact first.1 j (List.mem_append_right _ before) wants
      rcases List.mem_cons.mp after with rfl | later
      · exact Ahead.irrefl y j
      · exact first.1 j (List.mem_append_left _ later) wants

theorem dataLoop_serves {l x : Nat} {share : Nat → Nat} {order : List Nat}
    (positive : ∀ size, 0 < share size) (small : ∀ size, share size ≤ blockSize)
    (ordered : order.Pairwise (Ahead x)) (fuel : Nat) (work : Session × Assembly)
    (held : Servable order work.1) (turn : work.1.InTurn [] order) :
    Serves order work (dataLoop l share order fuel work) := by
  induction fuel generalizing work with
  | zero => exact .refl
  | succ fuel induction =>
      have start : work.1.InTurn order [] := fun y last => by
        simpa only [List.nil_append, List.append_nil] using turn y last
      have round := dataRound_serves (l := l) positive small ordered [] order work rfl held start
      rw [dataLoop]
      split
      · split
        · next work' progressed =>
            rw [progressed] at round
            refine round.1.trans ?_
            rcases round.2.2 with again | full
            · exact induction work' round.2.1 again
            · have full : l ≤ work'.2.size + headerSize := full
              cases fuel with
              | zero => exact .refl
              | succ fuel => rw [dataLoop, if_neg (fun room => by omega)]
        · next work' stuck =>
            rw [stuck] at round
            exact round.1
      · exact .refl

/-! ### The order of a batch -/

theorem nodup_ready {s : Session} (distinct : s.streams.Nodup) : s.ready.Nodup :=
  distinct.filter _

/-- The sorted streams, with those behind the last sender in front. -/
theorem sorted_increasing {ready : List Nat} (distinct : ready.Nodup) :
    (ready.insertionSort (· ≤ ·)).Pairwise (· < ·) := by
  have sorted := ready.pairwise_insertionSort (· ≤ ·)
  have apart : (ready.insertionSort (· ≤ ·)).Nodup :=
    (List.perm_insertionSort (· ≤ ·) ready).nodup_iff.mpr distinct
  exact (sorted.and apart).imp fun both => lt_of_le_of_ne both.1 both.2

/-- The position of the first stream behind `x` cuts the sorted streams at `x`. -/
theorem findIdx_cut {sorted : List Nat} (increasing : sorted.Pairwise (· < ·)) {x i : Nat}
    (found : sorted.findIdx? (x < ·) = some i) :
    (∀ a ∈ sorted.take i, a ≤ x) ∧ ∀ b ∈ sorted.drop i, x < b := by
  rw [List.findIdx?_eq_some_iff_getElem] at found
  obtain ⟨within, beyond, before⟩ := found
  constructor
  · intro a member
    obtain ⟨j, small, rfl⟩ := List.mem_take_iff_getElem.mp member
    simpa using before j (by omega)
  · intro b member
    obtain ⟨j, small, rfl⟩ := List.mem_drop_iff_getElem.mp member
    have beyond : x < sorted[i] := by simpa using beyond
    rcases Nat.eq_zero_or_pos j with rfl | positive
    · simpa using beyond
    · have less := List.pairwise_iff_getElem.mp increasing i (i + j) within (by omega)
        (by omega)
      omega

/-- An increasing list that starts behind one of its members goes around from it. -/
theorem cut_ahead {sorted : List Nat} (increasing : sorted.Pairwise (· < ·)) {i : Nat}
    (within : i < sorted.length) :
    (sorted.drop (i + 1) ++ sorted.take (i + 1)).Pairwise (Ahead sorted[i]) := by
  apply pairwise_ahead
  · rwa [List.take_append_drop]
  · intro a member
    obtain ⟨j, small, rfl⟩ := List.mem_take_iff_getElem.mp member
    rcases Nat.lt_or_ge j i with less | same
    · exact (List.pairwise_iff_getElem.mp increasing j i _ _ less).le
    · obtain rfl : j = i := by omega
      exact le_rfl
  · intro b member
    obtain ⟨j, small, rfl⟩ := List.mem_drop_iff_getElem.mp member
    exact List.pairwise_iff_getElem.mp increasing i (i + 1 + j) _ _ (by omega)

/-- Wherever it starts, it goes around from some member. -/
theorem rotated_ahead {sorted : List Nat} (increasing : sorted.Pairwise (· < ·)) {i : Nat}
    (within : i < sorted.length) : ∃ x, (sorted.rotate i).Pairwise (Ahead x) := by
  rw [List.rotate_eq_drop_append_take within.le]
  cases i with
  | zero =>
      obtain ⟨last, length⟩ : ∃ last, sorted.length = last + 1 :=
        Nat.exists_eq_succ_of_ne_zero within.ne'
      have cut := cut_ahead increasing (i := last) (by omega)
      rw [← length, List.drop_length, List.take_length] at cut
      exact ⟨_, by simpa using cut⟩
  | succ i => exact ⟨_, cut_ahead increasing (i := i) (by omega)⟩

/-- The sending order goes around, from behind the last sender if there is one. -/
theorem sendingOrder_ahead {s : Session} (rotation : Nat) {ready : List Nat}
    (distinct : ready.Nodup) :
    ∃ x, (s.sendingOrder rotation ready).Pairwise (Ahead x) ∧ ∀ y, s.cursor = some y → y = x := by
  unfold sendingOrder
  split
  · next few =>
      refine ⟨s.lastSent, ?_, ?_⟩
      · match ready, few with
        | [], _ => exact List.Pairwise.nil
        | [k], _ => exact List.pairwise_singleton _ _
      · intro y last
        unfold cursor at last
        split_ifs at last
        exact (Option.some.inj last).symm
  next many =>
  have increasing := sorted_increasing distinct
  have length : (ready.insertionSort (· ≤ ·)).length = ready.length :=
    List.length_insertionSort _ _
  simp only
  split
  · next none_ =>
      obtain ⟨x, ordered⟩ := rotated_ahead increasing
        (Nat.mod_lt rotation (show 0 < (ready.insertionSort (· ≤ ·)).length by omega))
      refine ⟨x, ordered, fun y last => ?_⟩
      simp [cursor, none_] at last
  · next some_ =>
      refine ⟨s.lastSent, ?_, ?_⟩
      · cases found : (ready.insertionSort (· ≤ ·)).findIdx? (s.lastSent < ·) with
        | none =>
            rw [List.findIdx?_eq_none_iff] at found
            rw [Option.getD_none, List.rotate_zero]
            have cut := @pairwise_ahead _ _ s.lastSent (ready.insertionSort (· ≤ ·)) []
              (by simpa using increasing) (fun a member => by simpa using found a member)
              (by simp)
            simpa using cut
        | some i =>
            obtain ⟨below, above⟩ := findIdx_cut increasing found
            rw [List.findIdx?_eq_some_iff_getElem] at found
            rw [Option.getD_some, List.rotate_eq_drop_append_take found.1.le]
            exact pairwise_ahead (by rwa [List.take_append_drop]) below above
      · intro y last
        unfold cursor at last
        split_ifs at last
        exact (Option.some.inj last).symm

/-! ### The turns of a batch -/

theorem spent_append (s : Session) (sent : List Frame) (f : Frame) (k : Nat) :
    s.spent (sent ++ [f]) k =
      if f.kind = .data ∧ f.id = k then (s.spent sent k).map (·.spend f.payload.length)
      else s.spent sent k := by
  by_cases own : f.kind = .data ∧ f.id = k
  · simp [spent, List.filter_append, own, Function.comp_def]
  · have none_ : [f].filter (fun f => f.kind = .data ∧ f.id = k) = [] := by
      simpa using own
    rw [if_neg own, spent, List.filter_append, none_, List.append_nil]
    rfl

/-- Control frames spend nothing. -/
theorem spent_control (s : Session) {sent : List Frame} (control : ∀ f ∈ sent, f.kind ≠ .data)
    (k : Nat) : s.spent sent k = s.objs k := by
  have none_ : sent.filter (fun f => f.kind = .data ∧ f.id = k) = [] := by
    rw [List.filter_eq_nil_iff]
    intro f member
    simp [control f member]
  rw [spent, none_]
  exact Option.map_id'

/-- A stream has spent what the frames put into the batch carry. -/
theorem spent_emitData {s : Session} {work : Session × Assembly} {sent : List Frame} {k n : Nat}
    {st : Stream} {r : WriteRequest} (same : ∀ j, work.1.objs j = s.spent sent j)
    (here : work.1.objs k = some st) (pending : st.request = some r)
    (available : n ≤ r.p.length - r.off) (j : Nat) :
    (emitData k st r n work).1.objs j =
      s.spent (sent ++ [⟨.data, k, (r.p.drop r.off).take n⟩]) j := by
  have length : ((r.p.drop r.off).take n).length = n := by
    rw [List.length_take, List.length_drop]
    omega
  rw [spent_append]
  by_cases own : k = j
  · subst own
    rw [if_pos ⟨rfl, rfl⟩, ← same, here, Option.map_some, length]
    simp [emitData, set, Stream.spend, pending]
  · rw [if_neg (fun both => own both.2), ← same]
    exact if_neg (Ne.symm own)

/-- The turns of the data loop, behind the frames that are in the batch already. -/
theorem serves_rotates {s : Session} {order : List Nat} {work work' : Session × Assembly}
    {sent : List Frame} (serves : Serves order work work')
    (same : ∀ k, work.1.objs k = s.spent sent k) (streams : work.1.streams = s.streams)
    (all : ∀ k, work.1.Wants k → k ∈ order) (named : ∀ k st, s.objs k = some st → k ≠ 0) :
    ∃ new, work'.1.emitted = work.1.emitted ++ new ∧
      (∀ k, work'.1.objs k = s.spent (sent ++ new) k) ∧
      Rotates Turn.who Turn.Ready work.1.cursor (s.turns sent new) work'.1.cursor := by
  induction serves with
  | refl => exact ⟨[], (List.append_nil _).symm, by simpa using same, .nil _⟩
  | @tail middle final before last induction =>
      obtain ⟨new, emitted, spent_, turns_⟩ := induction
      obtain ⟨step, keeps⟩ := last
      have emits := Serves.emits before
      rcases step with ⟨k, st, r, n, listed, here, pending, -, -, available, -, -, -, rfl⟩
      refine ⟨new ++ [⟨.data, k, (r.p.drop r.off).take n⟩], ?_, ?_, ?_⟩
      · rw [← List.append_assoc, ← emitted]
        rfl
      · intro j
        rw [← List.append_assoc]
        exact spent_emitData spent_ here pending available j
      · rw [turns_append]
        refine turns_.append ?_
        have nonzero : k ≠ 0 := by
          rw [spent_, spent, Option.map_eq_some_iff] at here
          obtain ⟨first, found, -⟩ := here
          exact named k first found
        have cursor_ : (emitData k st r n middle).1.cursor = some k := if_neg nonzero
        rw [cursor_]
        refine .cons ?_ (.nil _)
        rintro x passed j ⟨member, st', found, busy⟩
        have wants : middle.1.Wants j := by
          refine ⟨?_, st', ?_, busy⟩
          · rw [emits.emitted.streams, streams]
            exact member
          · rw [spent_]
            exact found
        exact keeps x passed j (all j (emits.wants wants)) wants

theorem ready_sendingOrder {s : Session} {rotation : Nat} {ready : List Nat} {k : Nat}
    (member : k ∈ ready) : k ∈ s.sendingOrder rotation ready := by
  unfold sendingOrder
  split
  · exact member
  · simpa using member

/-- What holds of every session and matters for the turns of its writer. -/
structure Orderly (s : Session) : Prop where
  distinct : s.streams.Nodup
  named : ∀ k st, s.objs k = some st → k ≠ 0
  bounded : ∀ k st r, s.objs k = some st → st.request = some r → r.off ≤ r.p.length
  plain : ∀ c ∈ s.controls, c.frame.kind ≠ .data

theorem batch_rotates {s s' : Session} {d : Draws} (sound : s.Sound) (orderly : s.Orderly)
    (taken : s.batch d = some s') :
    Rotates Turn.who Turn.Ready s.cursor (s.turns [] (s'.emitted.drop s.emitted.length))
      s'.cursor := by
  rcases batch_assembled taken with ⟨-, ⟨-, rfl⟩ | ⟨-, -, -, rfl⟩ | ⟨alive, sentControls, rest, a,
    work, more, padding, queue, -, -, -, looped, rfl⟩⟩
  · rw [List.drop_length]
    exact .nil _
  · rw [List.drop_length]
    exact .nil _
  have control : ∀ f ∈ sentControls.map Control.frame, f.kind ≠ .data := by
    intro f member
    obtain ⟨c, sent, rfl⟩ := List.mem_map.mp member
    exact orderly.plain c (queue ▸ List.mem_append_left _ sent)
  obtain ⟨x, ordered, start⟩ := s.sendingOrder_ahead d.rotation (nodup_ready orderly.distinct)
  have held : Servable (s.sendingOrder d.rotation s.ready)
      (s.withControls d sentControls rest) :=
    ⟨ready_sendable s d.rotation, fun k _ st r => orderly.bounded k st r⟩
  have turn : (s.withControls d sentControls rest).InTurn []
      (s.sendingOrder d.rotation s.ready) := by
    intro y last
    obtain rfl := start y last
    exact ordered.imp fun ahead _ => ahead.asymm
  have serves := dataLoop_serves (l := s.limit d) (share_pos sound.shape d)
    (share_small sound.shape d) ordered (s.limit d)
    (s.withControls d sentControls rest, a) held turn
  rw [← looped] at serves
  obtain ⟨new, emitted, -, turns_⟩ := @serves_rotates s _ _ _
    (sentControls.map Control.frame) serves (fun k => (spent_control s control k).symm)
    rfl (fun k wants => ready_sendingOrder (mem_ready.mpr wants)) orderly.named
  have all : work.1.emitted.drop s.emitted.length = sentControls.map Control.frame ++ new := by
    have first : (s.withControls d sentControls rest).emitted =
        s.emitted ++ sentControls.map Control.frame := rfl
    rw [emitted, first, List.append_assoc, List.drop_left]
  simp only [all]
  rw [turns_append, turns_control s control, List.nil_append, List.nil_append]
  exact turns_

/-! ## The other steps -/

/-- A step that sends nothing. -/
structure Steady (s s' : Session) : Prop where
  emitted : s'.emitted = s.emitted
  lastSent : s'.lastSent = s.lastSent
  distinct : s.streams.Nodup → s'.streams.Nodup

theorem Steady.refl (s : Session) : Steady s s where
  emitted := rfl
  lastSent := rfl
  distinct := id

theorem Steady.trans {s t u : Session} (before : Steady s t) (after : Steady t u) :
    Steady s u where
  emitted := after.emitted.trans before.emitted
  lastSent := after.lastSent.trans before.lastSent
  distinct apart := after.distinct (before.distinct apart)

theorem Kept.steady {s s' : Session} (kept : Kept s s') (lastSent : s'.lastSent = s.lastSent) :
    Steady s s' where
  emitted := kept.emitted
  lastSent := lastSent
  distinct apart := by
    rcases kept.streams with same | ⟨k, same⟩
    · rwa [same]
    · rw [same]
      exact apart.filter _

theorem controlLocked_lastSent (s : Session) (t : Kind) (id : Nat) (p : List Byte)
    (done : Waiter) : (s.controlLocked t id p done).1.lastSent = s.lastSent := by
  unfold controlLocked
  split
  · rfl
  · split
    · rfl
    · rfl
    · split_ifs <;> rfl

theorem drain_lastSent (k : Nat) (draw : Nat → Nat) (fuel room : Nat) (got : List Byte)
    (s : Session) : (drain k draw fuel room got s).1.lastSent = s.lastSent := by
  induction fuel generalizing room got s with
  | zero => rfl
  | succ fuel induction =>
      rw [drain]
      split
      · rfl
      next st here =>
      split
      · rfl
      next c rest front =>
      split
      · rfl
      simp only
      split
      · rfl
      split
      · have same := (s.set k (st.pop (c.rest.take room))).controlLocked_lastSent .credit k
          (bigEndian 2 (st.pop (c.rest.take room)).refund.toNat) .nobody
        split
        · next refused =>
            rw [refused] at same
            exact same
        · next granted =>
            rw [granted] at same
            exact (induction _ _ _).trans same
      · exact induction _ _ _

theorem open_steady {s : Session} (old : ∀ k ∈ s.streams, k ≤ s.lastID) (metadata : List Byte)
    (draw : Nat) : Steady s (s.open metadata draw).1 := by
  have above : s.lastID < s.nextID := by
    rw [nextID]
    split_ifs <;> omega
  have apart : s.streams.Nodup → (s.streams ++ [s.nextID]).Nodup := by
    intro apart
    refine apart.append (List.nodup_singleton _) ?_
    intro k member last
    obtain rfl := List.mem_singleton.mp last
    exact absurd (old _ member) (not_le.mpr above)
  rcases s.open_cases metadata draw with
    same | ⟨-, -, -, -, -, -, ⟨-, outcome⟩ | ⟨-, outcome⟩⟩
  · rw [same]
    exact .refl s
  · rw [outcome]
    exact ⟨rfl, rfl, apart⟩
  · rw [outcome]
    exact ⟨rfl, rfl, apart⟩

theorem recv_steady {s s' : Session} {bs : List Byte} {e : Option Err}
    (taken : s.recv bs e = some s') : Steady s s' := by
  unfold recv at taken
  split at taken
  · cases taken
  simp only at taken
  split at taken
  · rcases recvHeader_cases taken with ⟨-, -, ⟨-, rfl⟩ | ⟨-, cause, -, rfl⟩⟩ <;>
      exact ⟨rfl, rfl, id⟩
  · rcases recvPayload_cases taken with ⟨-, -, ⟨-, -, rfl⟩ | ⟨cause, -, rfl⟩⟩ <;>
      exact ⟨rfl, rfl, id⟩
  · next hd got discard position =>
      have published_ : ∀ complete,
          Steady s ((s.hears bs).published hd.id bs discard complete) := by
        intro complete
        unfold published
        split <;> exact ⟨rfl, rfl, id⟩
      rcases recvData_cases (s := s.hears bs) taken with
        ⟨-, ⟨-, -, rfl⟩ | ⟨-, -, rfl⟩ | ⟨cause, -, rfl⟩⟩
      · exact (published_ true).trans ⟨rfl, rfl, id⟩
      · exact (published_ false).trans ⟨rfl, rfl, id⟩
      · exact (published_ true).trans ⟨rfl, rfl, id⟩
  · cases taken

theorem dispatch_steady {s s' : Session} {draw : Nat} (sound : s.Sound)
    (old : ∀ k ∈ s.streams, k ≤ s.lastID) (taken : s.dispatch draw = some s') :
    Steady s s' := by
  rcases dispatch_cases taken with ⟨hd, live, p, position, -, outcome⟩
  have fits := sound.reading
  rw [position] at fits
  rcases outcome with ⟨open_, outcome⟩ | ⟨-, -, rfl⟩ | ⟨-, st, -, ⟨-, rfl⟩ | ⟨-, rfl⟩⟩
  · have admitted : Steady s (s.admission hd.id p draw).1 := by
      rcases admission_cases s hd.id p draw with
        ⟨-, ⟨-, outcome⟩ | ⟨e, -, outcome⟩⟩ | ⟨-, outcome⟩
      · rw [outcome]
        exact ⟨rfl, rfl, fun apart => apart.filter _⟩
      · rw [outcome]
        exact ⟨rfl, rfl, fun apart => apart.filter _⟩
      · rw [outcome]
        refine ⟨rfl, rfl, fun apart => ?_⟩
        refine (apart.filter _).append (List.nodup_singleton _) ?_
        intro k member last
        obtain rfl := List.mem_singleton.mp last
        have small := old _ (List.mem_filter.mp member).1
        exact absurd small (not_le.mpr (fits.2.2.2 open_).2)
    rcases outcome with ⟨-, rfl⟩ | ⟨e, -, rfl⟩ <;> exact admitted.trans ⟨rfl, rfl, id⟩
  · exact ⟨rfl, rfl, id⟩
  · exact ⟨rfl, rfl, id⟩
  · have taken := (afterFrame_kept s hd.id st hd.kind p).steady (by cases hd.kind <;> rfl)
    exact taken.trans ⟨rfl, rfl, id⟩

theorem step_steady {s s' : Session} {action : Action} (sound : s.Sound)
    (old : ∀ k ∈ s.streams, k ≤ s.lastID) (other : ∀ d, action ≠ .batch d)
    (taken : s.step action = some s') : Steady s s' := by
  cases action with
  | «open» metadata draw =>
      cases taken
      exact open_steady old metadata draw
  | accept =>
      rcases Option.map_eq_some_iff.mp taken with ⟨⟨_, result⟩, made, rfl⟩
      unfold accept at made
      split at made <;> cases made
      exact ⟨rfl, rfl, id⟩
  | respond k code =>
      rcases Option.map_eq_some_iff.mp taken with ⟨⟨_, result⟩, made, rfl⟩
      refine (respond_kept made).steady ?_
      rcases respond_cases made with
        ⟨st, -, -, ⟨rfl, -⟩ | ⟨-, -, -, -, ⟨-, -, rfl⟩ | ⟨-, -, -, rfl⟩⟩⟩ <;> rfl
  | callReturn k wake =>
      rcases Option.map_eq_some_iff.mp taken with ⟨⟨_, result⟩, made, rfl⟩
      refine (callReturn_kept made).steady ?_
      rcases callReturn_cases made with
        ⟨st, -, ⟨-, -, rest, -, rfl⟩ | ⟨-, -, rest, -, rfl⟩ | ⟨-, -, -, -, rfl⟩⟩ <;> rfl
  | read k n draw =>
      rcases Option.map_eq_some_iff.mp taken with ⟨⟨_, result⟩, made, rfl⟩
      refine (read_kept made).steady ?_
      unfold read at made
      split at made
      · cases made
      split at made
      · cases made
        rfl
      · cases made
        exact drain_lastSent _ _ _ _ _ _
  | write k p =>
      rcases Option.map_eq_some_iff.mp taken with ⟨⟨_, result⟩, made, rfl⟩
      refine (write_kept made).steady ?_
      rcases write_cases made with ⟨st, -, -, ⟨rfl, -⟩ | ⟨-, -, -, -, -, -, rfl⟩⟩ <;> rfl
  | writeReturn k =>
      rcases Option.map_eq_some_iff.mp taken with ⟨⟨_, n, result⟩, made, rfl⟩
      refine (writeReturn_kept made).steady ?_
      rcases writeReturn_cases made with ⟨st, r, rest, -, -, -, -, rfl⟩
      rfl
  | closeWrite k =>
      rcases Option.map_eq_some_iff.mp taken with ⟨⟨_, result⟩, made, rfl⟩
      refine (closeWrite_kept made).steady ?_
      rcases closeWrite_cases made with ⟨st, -, -, ⟨rfl, -⟩ | ⟨-, -, -, -, ⟨-, -, -, rfl⟩ |
        ⟨-, ⟨-, -, rfl⟩ | ⟨-, -, rfl⟩⟩⟩⟩ <;> rfl
  | finish k =>
      rcases Option.map_eq_some_iff.mp taken with ⟨⟨_, result⟩, made, rfl⟩
      refine (finish_kept made).steady ?_
      rcases finish_cases made with ⟨st, -, -, ⟨rfl, -⟩ | ⟨-, -, -, -, -,
        ⟨e, pending, -, known, -, rfl⟩ | ⟨-, -, rfl⟩⟩⟩
      · rfl
      · cases pending <;> rfl
      · cases st.pendingFIN <;> rfl
  | close k =>
      refine (close_kept taken).steady ?_
      rcases close_cases taken with ⟨st, -, ⟨-, rfl⟩ | ⟨-, ⟨-, -, -, -, -, rfl⟩ |
        ⟨-, -, -, -, -, rfl⟩ | ⟨-, e, -, rfl⟩⟩⟩ <;> rfl
  | closeSession =>
      cases taken
      unfold fail
      split <;> exact ⟨rfl, rfl, id⟩
  | cancel =>
      simp only [step] at taken
      split at taken <;> cases taken
      exact ⟨rfl, rfl, id⟩
  | fail i =>
      simp only [step] at taken
      split at taken <;> cases taken
      unfold fail
      split <;> exact ⟨rfl, rfl, id⟩
  | recv bs e => exact recv_steady taken
  | check =>
      rcases check_cases taken with ⟨h, -, -, ⟨-, rfl⟩ | ⟨hd, -, ⟨-, -, -, rfl⟩ |
        ⟨-, -, st, -, -, -, -, rfl⟩ | ⟨-, -, -, rfl⟩⟩⟩ <;> exact ⟨rfl, rfl, id⟩
  | takeChunk =>
      rcases takeChunk_cases taken with ⟨hd, live, -, ⟨st, -, -, -, -, rfl⟩ | ⟨-, rfl⟩⟩ <;>
        exact ⟨rfl, rfl, id⟩
  | dispatch draw => exact dispatch_steady sound old taken
  | wakeUp =>
      simp only [step, wakeUp] at taken
      split at taken
      · split at taken
        · cases taken
          exact ⟨rfl, rfl, id⟩
        · split at taken <;> cases taken
          exact ⟨rfl, rfl, id⟩
      · cases taken
  | batch draws => exact (other draws rfl).elim
  | send n =>
      simp only [step, send] at taken
      split at taken
      · split at taken <;> cases taken
        exact ⟨rfl, rfl, id⟩
      · cases taken
  | writeEnd e =>
      rcases writeEnd_cases taken with ⟨b, -, ⟨-, -, rfl⟩ | ⟨cause, -, -, -, rfl⟩⟩ <;>
        exact ⟨rfl, rfl, id⟩

/-! ## Whole runs -/

/-- The identifiers in the map have been used. -/
theorem listed_old {s : Session} {k : Nat} (inv : (s.track k).Inv) (listed : k ∈ s.streams) :
    k ≤ s.lastID := by
  by_contra above
  have new := inv.placed.new ((trackWith_above _ _ _ _).mpr (not_le.mp above))
  have there : (s.track k).listed = true := (trackWith_listed _ _ _ _).mpr listed
  cases new.2.1.symm.trans there

theorem any_distinct {s : Session} (reached : anyMachine.Reachable s) : s.streams.Nodup := by
  refine reached.invariant (P := fun s => s.streams.Nodup) ?_ ?_
  · rintro s ⟨server, profile, draw, preamble, -, rfl⟩
    exact List.nodup_nil
  · intro s action s' before distinct _ taken
    by_cases assembles : ∃ d, action = .batch d
    · obtain ⟨d, rfl⟩ := assembles
      rcases batch_cases (any_sound before).shape taken with ⟨-, ⟨-, rfl⟩ | ⟨-, -, -, rfl⟩ |
        ⟨-, sentControls, rest, a, work, more, padding, -, -, -, -, emits, rfl⟩⟩
      · exact distinct
      · exact distinct
      · rw [show (_ : Session).streams = s.streams from emits.emitted.streams]
        exact distinct
    · have steady := step_steady (any_sound before) (fun k => listed_old (any_inv before k))
        (fun d same => assembles ⟨d, same⟩) taken
      exact steady.distinct distinct

theorem any_orderly {s : Session} (reached : anyMachine.Reachable s) : s.Orderly where
  distinct := any_distinct reached
  named k st here := by
    rintro rfl
    have odd := (any_inv reached 0).formed.started (.inl (by
      rw [show (s.track 0).st = some st from here]
      simp))
    cases odd.1
  bounded k st r here pending := ((any_inv reached k).flags st here).offset r pending
  plain c member :=
    (any_inv reached c.frame.id).sent.plain c (List.mem_filter.mpr ⟨member, by simp⟩)

/-- In every run the writer goes around the streams that are ready. -/
theorem log_rotates {s : Session} (reached : anyMachine.Reachable s) (actions : List Action) :
    ∃ last, Rotates Turn.who Turn.Ready s.cursor (s.log actions) last := by
  induction actions generalizing s with
  | nil => exact ⟨_, .nil _⟩
  | cons action rest induction =>
      rw [log]
      split
      · exact ⟨_, .nil _⟩
      next s' taken =>
      have next : anyMachine.Reachable s' := .step reached trivial taken
      obtain ⟨last, later⟩ := induction next
      refine ⟨last, ?_⟩
      by_cases assembles : ∃ d, action = .batch d
      · obtain ⟨d, rfl⟩ := assembles
        exact (batch_rotates (any_sound reached) (any_orderly reached) taken).append later
      · have steady := step_steady (any_sound reached) (fun k => listed_old (any_inv reached k))
          (fun d same => assembles ⟨d, same⟩) taken
        have same : s'.cursor = s.cursor := by rw [cursor, cursor, steady.lastSent]
        rw [steady.emitted, List.drop_length, ← same]
        exact later

/--
In every run, between two DATA frames of a stream every other stream sends one,
if it is ready to at each DATA frame from the first to the second of the two.
-/
theorem writer_fair {s : Session} (reached : anyMachine.Reachable s) {actions : List Action}
    {before middle after : List Turn} {first second : Turn} {a b : Nat}
    (turns : s.log actions = before ++ first :: middle ++ second :: after) (apart : a ≠ b)
    (once : first.who = a) (again : second.who = a)
    (ready : ∀ turn ∈ middle ++ [second], turn.Ready b) : ∃ turn ∈ middle, turn.who = b := by
  obtain ⟨last, rotates⟩ := log_rotates reached actions
  rw [turns] at rotates
  exact rotates.fair apart once again ready

/-- A server has answered two streams. -/
def answering : List Action :=
  readsIn ⟨.open, 1, [7]⟩ ++ readsIn ⟨.open, 3, [7]⟩ ++ [.respond 1 0, .respond 3 0] ++
    writesOut 16 ++ [.callReturn 1 .token, .callReturn 3 .token]

/-- It writes a byte to each of them, and another one. -/
def writing : List Action :=
  [.write 1 [7], .write 3 [7]] ++ writesOut 18 ++ [.writeReturn 1, .writeReturn 3,
    .write 1 [8], .write 3 [8], .batch ⟨0, 0, 0, 0, 0, 0, fun _ => 0⟩]

theorem writer_fair_two : ∃ s first between second after,
    anyMachine.run waiting answering = some s ∧
      s.log writing = [first, between, second, after] ∧ first.who = 1 ∧ second.who = 1 ∧
      ∃ turn ∈ [between], turn.who = 3 := by
  have seen : (anyMachine.run waiting answering).any (fun s =>
      (s.log writing).map (fun turn => (turn.who, decide (turn.Ready 3))) ==
        [(1, true), (3, true), (1, true), (3, true)]) = true := by
    decide +kernel
  simp only [Option.any_eq_true, beq_iff_eq] at seen
  obtain ⟨s, ran, turns⟩ := seen
  simp only [List.map_eq_cons_iff, List.map_eq_nil_iff, Prod.mk.injEq, decide_eq_true_eq] at turns
  obtain ⟨first, _, all, ⟨once, -⟩, between, _, rfl, ⟨-, ready⟩, second, _, rfl, ⟨again, still⟩,
    after, _, rfl, -, rfl⟩ := turns
  have reached := Machine.run_reachable (.start waiting_start) ran
  refine ⟨s, first, between, second, after, ran, all, once, again, ?_⟩
  refine @writer_fair s reached writing [] [between] [after] first second 1 3 all (by decide)
    once again ?_
  intro turn member
  rcases List.mem_cons.mp member with rfl | last
  · exact ready
  · obtain rfl := List.mem_singleton.mp last
    exact still

end Session

end Veil.Mux

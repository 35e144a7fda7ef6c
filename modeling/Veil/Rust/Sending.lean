import Veil.Rust.Atomic

/-!
# What a stream has accepted, sent and flushed

`Sender` is a session with three history variables: the bytes `poll_write` has
accepted on each stream, the streams `poll_shutdown` has been called on, and the
frames whose batch has been written and flushed.

For a stream that has not failed, the payloads of its DATA frames and its output
are together the bytes accepted, `queued` is the length of the output, and
`inflight` counts its frames that are in a batch and not flushed.  So
`poll_flush` and `poll_shutdown` report success only when everything accepted,
or the FIN, has been flushed.
-/

namespace Veil.Rust

open Veil.Lib
open Veil.Mux (Byte Kind Header Frame blockSize)

/-! ## Counting frames and marks -/

/-- The payloads of the DATA frames of stream `k`, in order. -/
def sentBytes (k : Nat) (frames : List Frame) : List Byte :=
  (frames.filter fun f => f.id = k ∧ f.kind = .data).flatMap Frame.payload

/-- The FIN frames of stream `k`. -/
def fins (k : Nat) (frames : List Frame) : Nat :=
  frames.countP fun f => f.id = k ∧ f.kind = .fin

/-- The DATA and FIN frames of stream `k`. -/
def dataAndFins (k : Nat) (frames : List Frame) : Nat :=
  frames.countP fun f => f.id = k ∧ (f.kind = .data ∨ f.kind = .fin)

/-- The marks of stream `k` that `inflight` counts. -/
def marks (k : Nat) (touched : List Touched) : Nat :=
  touched.countP fun t => t.id = k ∧ t.done = false

/-- What `batch` records about any frame. -/
def touchOf (f : Frame) : List Touched :=
  if f.kind = .data then [⟨f.id, false, false⟩]
  else if f.kind = .fin then [⟨f.id, true, false⟩]
  else Session.controlTouch f

section Counting

variable (k : Nat)

@[simp]
theorem sentBytes_append (first second : List Frame) :
    sentBytes k (first ++ second) = sentBytes k first ++ sentBytes k second := by
  simp [sentBytes]

@[simp]
theorem fins_append (first second : List Frame) :
    fins k (first ++ second) = fins k first + fins k second := by
  simp [fins]

@[simp]
theorem marks_append (first second : List Touched) :
    marks k (first ++ second) = marks k first + marks k second := by
  simp [marks]

theorem sentBytes_other {f : Frame} (other : ¬ (f.id = k ∧ f.kind = .data)) :
    sentBytes k [f] = [] := by
  simp [sentBytes, other]

theorem sentBytes_data {f : Frame} (own : f.id = k) (data : f.kind = .data) :
    sentBytes k [f] = f.payload := by
  simp [sentBytes, own, data]

theorem fins_other {f : Frame} (other : ¬ (f.id = k ∧ f.kind = .fin)) : fins k [f] = 0 := by
  simp [fins, other]

/-- The marks a frame leaves are those that `inflight` counts for it. -/
theorem marks_touchOf (f : Frame) : marks k (touchOf f) = dataAndFins k [f] := by
  cases kind : f.kind <;> by_cases own : f.id = k <;>
    simp [touchOf, marks, dataAndFins, Session.controlTouch, kind, own]

theorem marks_flatMap (frames : List Frame) :
    marks k (frames.flatMap touchOf) = dataAndFins k frames := by
  induction frames with
  | nil => rfl
  | cons f rest induction =>
      rw [List.flatMap_cons, marks_append, marks_touchOf, induction]
      simp [dataAndFins, List.countP_cons, Nat.add_comm]

/-- Without DATA among them, frames carry no bytes. -/
theorem sentBytes_of_none {frames : List Frame} (none_ : dataAndFins k frames = 0) :
    sentBytes k frames = [] := by
  rw [dataAndFins, List.countP_eq_zero] at none_
  have empty : frames.filter (fun f => f.id = k ∧ f.kind = .data) = [] := by
    rw [List.filter_eq_nil_iff]
    intro f member data
    have data := of_decide_eq_true data
    exact none_ f member (decide_eq_true ⟨data.1, .inl data.2⟩)
  rw [sentBytes, empty]
  rfl

/-- A mark of FIN comes from a FIN frame. -/
theorem fin_of_mark {frames : List Frame} {t : Touched}
    (member : t ∈ frames.flatMap touchOf) (fin : t.fin = true) :
    ∃ f ∈ frames, f.id = t.id ∧ f.kind = .fin := by
  rcases List.mem_flatMap.mp member with ⟨f, inside, marked⟩
  refine ⟨f, inside, ?_⟩
  unfold touchOf at marked
  split_ifs at marked with data ends
  · cases List.mem_singleton.mp marked
    cases fin
  · cases List.mem_singleton.mp marked
    exact ⟨rfl, ends⟩
  · unfold Session.controlTouch at marked
    split_ifs at marked
    · cases List.mem_singleton.mp marked
      cases fin
    · cases marked

end Counting

namespace Slot

theorem flushed_counts (st : Slot) (t : Touched) :
    (st.flushed t).inflight = st.inflight - (if t.done = false then 1 else 0) ∧
      (st.flushed t).queued = st.queued ∧
      ((st.flushed t).finFlushed = true → st.finFlushed = true ∨ t.fin = true) := by
  rcases t with ⟨id, fin, done⟩
  cases live : st.live <;> cases done <;> cases fin <;> simp [flushed, live]

/-- What the marks of a batch leave of the counters of a slot. -/
theorem marked_counts (st : Slot) (touched : List Touched) :
    (st.marked touched).inflight = st.inflight - touched.countP (·.done = false) ∧
      (st.marked touched).queued = st.queued ∧
      ((st.marked touched).finFlushed = true →
        st.finFlushed = true ∨ ∃ t ∈ touched, t.fin = true) := by
  induction touched generalizing st with
  | nil => exact ⟨rfl, rfl, .inl⟩
  | cons t rest induction =>
      have first := st.flushed_counts t
      have later := induction (st.flushed t)
      refine ⟨?_, later.2.1.trans first.2.1, fun done => ?_⟩
      · show ((st.flushed t).marked rest).inflight = _
        rw [later.1, first.1, List.countP_cons]
        simp only [decide_eq_true_eq]
        omega
      · rcases later.2.2 done with before | ⟨t', member, fin⟩
        · exact (first.2.2 before).imp id fun fin => ⟨t, List.mem_cons_self, fin⟩
        · exact .inr ⟨t', List.mem_cons_of_mem _ member, fin⟩

end Slot

/-! ## The machine -/

/-- `Stream::poll_flush`: whether everything queued has been flushed. -/
def Session.pollFlush (s : Session) (k : Nat) : Option (Except ErrorKind Bool) :=
  (s.slots k).map fun st =>
    match st.check with
    | some e => .error e
    | none => .ok (st.queued == 0 && st.inflight == 0)

/-- A session with the history of its sending side. -/
structure Sender where
  session : Session
  /-- History: the bytes `poll_write` has returned as written, by stream. -/
  accepted : Nat → List Byte
  /-- History: `poll_shutdown` has been called and has not failed. -/
  shut : Nat → Bool
  /-- History: the frames of all batches that have been written and flushed. -/
  flushed : List Frame

namespace Sender

/-- The bytes a step accepts on stream `k`. -/
def accepting (s : Session) (k : Nat) : Session.Action → List Byte
  | .pollWrite j buf =>
      match s.pollWrite j buf with
      | some (_, .ok (some n)) => if j = k then buf.take n else []
      | _ => []
  | _ => []

/-- A step that calls `poll_shutdown` on stream `k` without an error. -/
def shutting (s : Session) (k : Nat) : Session.Action → Bool
  | .pollShutdown j =>
      match s.pollShutdown j with
      | some (_, .ok _) => j == k
      | _ => false
  | _ => false

/-- The frames that have been flushed after a step. -/
def flushing (x : Sender) : Session.Action → List Frame
  | .written none => x.session.emitted
  | _ => x.flushed

/-- The session after a step, with what the step adds to the history. -/
def after (x : Sender) (action : Session.Action) (s : Session) : Sender where
  session := s
  accepted k := x.accepted k ++ accepting x.session k action
  shut k := x.shut k || shutting x.session k action
  flushed := x.flushing action

/-- One step of the session. -/
def step (x : Sender) (action : Session.Action) : Option Sender :=
  (x.session.step action).map (x.after action)

/-- A sender begins with an empty history. -/
def machine (server : Bool) : Machine Sender Session.Action where
  start x := (Session.machine server).start x.session ∧ (∀ k, x.accepted k = []) ∧
    (∀ k, x.shut k = false) ∧ x.flushed = []
  step := step

/-! ## The invariant -/

/-- The sending side of a slot agrees with the history of its stream. -/
structure Tally (s : Session) (flushed : List Frame) (accepted : List Byte) (shut : Bool)
    (k : Nat) (st : Slot) : Prop where
  bytes : sentBytes k s.emitted ++ st.output.flatten = accepted
  queued : st.queued = st.output.flatten.length
  room : st.queued ≤ sendBuffer
  inflight : st.inflight = marks k s.touched
  asked : st.localFin = true → shut = true
  sent : st.finSent = true → st.localFin = true ∧ st.output = []
  fins : fins k s.emitted = if st.finSent then 1 else 0
  fin : ∀ before f, before ++ [f] <+: s.emitted → f.id = k → f.kind = .fin →
    st.finSent = true ∧ sentBytes k before = accepted ∧ Rust.fins k before = 0
  finFlushed : st.finFlushed = true → ∃ f ∈ flushed, f.id = k ∧ f.kind = .fin

/-- Two slots have the same sending side. -/
structure SameSide (st st' : Slot) : Prop where
  output : st'.output = st.output
  queued : st'.queued = st.queued
  inflight : st'.inflight = st.inflight
  localFin : st'.localFin = st.localFin
  finSent : st'.finSent = st.finSent
  finFlushed : st'.finFlushed = st.finFlushed

section Tallies

variable {s s' : Session} {flushed : List Frame} {accepted : List Byte} {shut : Bool} {k : Nat}
  {st st' : Slot} (tally : Tally s flushed accepted shut k st)
include tally

theorem Tally.keep (emitted : s'.emitted = s.emitted) (touched : s'.touched = s.touched)
    (same : SameSide st st') : Tally s' flushed accepted shut k st' where
  bytes := by
    rw [emitted, same.output]
    exact tally.bytes
  queued := by
    rw [same.queued, same.output]
    exact tally.queued
  room := by
    rw [same.queued]
    exact tally.room
  inflight := by
    rw [same.inflight, touched]
    exact tally.inflight
  asked := by
    rw [same.localFin]
    exact tally.asked
  sent := by
    rw [same.finSent, same.localFin, same.output]
    exact tally.sent
  fins := by
    rw [emitted, same.finSent]
    exact tally.fins
  fin := by
    rw [emitted, same.finSent]
    exact tally.fin
  finFlushed := by
    rw [same.finFlushed]
    exact tally.finFlushed

/-- A frame goes out that is no DATA or FIN of this stream. -/
theorem Tally.push_other {f : Frame} {touch : List Touched}
    (other : ¬ (f.id = k ∧ (f.kind = .data ∨ f.kind = .fin))) (unmarked : marks k touch = 0)
    (emitted : s'.emitted = s.emitted ++ [f]) (touched : s'.touched = s.touched ++ touch) :
    Tally s' flushed accepted shut k st where
  bytes := by
    rw [emitted, sentBytes_append, sentBytes_other k fun own => other ⟨own.1, .inl own.2⟩,
      List.append_nil]
    exact tally.bytes
  queued := tally.queued
  room := tally.room
  inflight := by
    rw [touched, marks_append, unmarked]
    exact tally.inflight
  asked := tally.asked
  sent := tally.sent
  fins := by
    rw [emitted, fins_append, fins_other k fun own => other ⟨own.1, .inr own.2⟩]
    exact tally.fins
  fin before g early own kind := by
    rw [emitted] at early
    rcases List.prefix_concat_iff.mp early with whole | part
    · cases List.singleton_inj.mp (List.append_inj' whole rfl).2
      exact (other ⟨own, .inr kind⟩).elim
    · exact tally.fin before g part own kind
  finFlushed := tally.finFlushed

/-- DATA of this stream goes out. -/
theorem Tally.push_data {p : List Byte} {rest : List (List Byte)} {n : Nat}
    (pending : st.output = p :: rest) (available : n ≤ p.length)
    (emitted : s'.emitted = s.emitted ++ [⟨.data, k, p.take n⟩])
    (touched : s'.touched = s.touched ++ [⟨k, false, false⟩]) :
    Tally s' flushed accepted shut k (st.sentData n p rest) := by
  have unsent : st.finSent = false := by
    by_contra done
    have empty := (tally.sent (by simpa using done)).2
    rw [pending] at empty
    cases empty
  have left : (st.sentData n p rest).output.flatten = p.drop n ++ rest.flatten := by
    simp only [Slot.sentData]
    split_ifs with whole
    · simp [whole]
    · simp
  have length := tally.queued
  rw [pending, List.flatten_cons, List.length_append] at length
  have counted : (st.sentData n p rest).queued = st.queued - n := rfl
  refine ⟨?_, ?_, ?_, ?_, tally.asked, fun done => ?_, ?_, fun before g early own kind => ?_,
    tally.finFlushed⟩
  · have bytes := tally.bytes
    rw [pending, List.flatten_cons] at bytes
    rw [emitted, sentBytes_append, sentBytes_data k rfl rfl, left, List.append_assoc,
      ← List.append_assoc (p.take n), List.take_append_drop]
    exact bytes
  · rw [left, counted, List.length_append, List.length_drop]
    omega
  · have room := tally.room
    rw [counted]
    omega
  · have before := tally.inflight
    rw [touched, marks_append]
    simp only [Slot.sentData, before]
    simp [marks]
  · cases unsent.symm.trans done
  · rw [emitted, fins_append, fins_other k (by simp)]
    exact tally.fins
  · rw [emitted] at early
    rcases List.prefix_concat_iff.mp early with whole | part
    · cases List.singleton_inj.mp (List.append_inj' whole rfl).2
      cases kind
    · cases unsent.symm.trans (tally.fin before g part own kind).1

/-- The FIN of this stream goes out. -/
theorem Tally.push_fin (ended : st.localFin = true) (first : st.finSent = false)
    (empty : st.output = []) (emitted : s'.emitted = s.emitted ++ [⟨.fin, k, []⟩])
    (touched : s'.touched = s.touched ++ [⟨k, true, false⟩]) :
    Tally s' flushed accepted shut k st.sentFin := by
  have bytes := tally.bytes
  have count := tally.fins
  rw [empty, List.flatten_nil, List.append_nil] at bytes
  rw [first] at count
  refine ⟨?_, tally.queued, tally.room, ?_, tally.asked, fun _ => ⟨ended, empty⟩, ?_,
    fun before g early own kind => ⟨rfl, ?_⟩, tally.finFlushed⟩
  · rw [emitted, sentBytes_append, sentBytes_other k (by simp), List.append_nil, bytes]
    simp [Slot.sentFin, empty]
  · have before := tally.inflight
    rw [touched, marks_append]
    simp only [Slot.sentFin, before]
    simp [marks]
  · rw [emitted, fins_append, count]
    simp [Rust.fins, Slot.sentFin]
  · rw [emitted] at early
    rcases List.prefix_concat_iff.mp early with whole | part
    · rw [(List.append_inj' whole rfl).1]
      exact ⟨bytes, count⟩
    · cases first.symm.trans (tally.fin before g part own kind).1

end Tallies

/-- The session `s` agrees with the history of `x`. -/
structure Books (x : Sender) (s : Session) : Prop where
  pending : ∃ pending, s.emitted = x.flushed ++ pending ∧ s.touched = pending.flatMap touchOf
  slots : ∀ k st, s.slots k = some st → st.check = none →
    Tally s x.flushed (x.accepted k) (x.shut k) k st
  above : ∀ k, s.high < k → x.accepted k = []

/-- Nothing that the books speak of has changed in the session. -/
theorem Books.still {x : Sender} {s s' : Session} (books : Books x s)
    (slots : s'.slots = s.slots) (emitted : s'.emitted = s.emitted)
    (touched : s'.touched = s.touched) (high : s'.high = s.high) : Books x s' where
  pending := by
    rw [emitted, touched]
    exact books.pending
  slots k st here unfailed :=
    (books.slots k st (slots ▸ here) unfailed).keep emitted touched
      ⟨rfl, rfl, rfl, rfl, rfl, rfl⟩
  above k := by
    rw [high]
    exact books.above k

/-- Only calls of `poll_shutdown` have been added to the history. -/
theorem Books.congr {x y : Sender} {s : Session} (books : Books x s)
    (flushed : y.flushed = x.flushed) (accepted : ∀ k, y.accepted k = x.accepted k)
    (shut : ∀ k, x.shut k = true → y.shut k = true) : Books y s where
  pending := by
    rw [flushed]
    exact books.pending
  slots k st here unfailed := by
    have tally := books.slots k st here unfailed
    rw [flushed, accepted]
    exact { tally with asked := fun ended => shut k (tally.asked ended) }
  above k passed := (accepted k).trans (books.above k passed)

/-- A frame joins the batch with the marks it leaves. -/
theorem pending_push {x : Sender} {s s' : Session} (books : Books x s) {f : Frame}
    (emitted : s'.emitted = s.emitted ++ [f]) (touched : s'.touched = s.touched ++ touchOf f) :
    ∃ pending, s'.emitted = x.flushed ++ pending ∧ s'.touched = pending.flatMap touchOf := by
  rcases books.pending with ⟨pending, frames, marked⟩
  refine ⟨pending ++ [f], ?_, ?_⟩
  · rw [emitted, frames, List.append_assoc]
  · rw [touched, marked, List.flatMap_append, List.flatMap_singleton]

/-- A frame of stream `k` joins the batch, and only the slot of `k` changes. -/
theorem Books.frame {x : Sender} {s s' : Session} (books : Books x s) {k : Nat} {st' : Slot}
    {f : Frame} (own : f.id = k) (slots : s'.slots = (s.set k st').slots)
    (high : s'.high = s.high) (emitted : s'.emitted = s.emitted ++ [f])
    (touched : s'.touched = s.touched ++ touchOf f)
    (tally : Tally s' x.flushed (x.accepted k) (x.shut k) k st') : Books x s' := by
  refine ⟨pending_push books emitted touched, fun j after found unfailed => ?_, fun j above => ?_⟩
  · rw [slots] at found
    by_cases same : j = k
    · subst same
      rw [Session.set_slots_self, Option.some.injEq] at found
      exact found ▸ tally
    · have away := (s.set_slots_other st' same).symm.trans found
      have foreign : ¬ (f.id = j ∧ (f.kind = .data ∨ f.kind = .fin)) :=
        fun both => same (both.1.symm.trans own)
      apply (books.slots j after away unfailed).push_other foreign ?_ emitted touched
      rw [marks_touchOf, dataAndFins, List.countP_singleton]
      simp [own, Ne.symm same]
  · exact books.above j (high ▸ above)

theorem emits_books {x : Sender} {s s' : Session} (emits : Session.Emits s s')
    (plain : ∀ f ∈ s.controls, f.kind ≠ .data ∧ f.kind ≠ .fin) (books : Books x s) :
    Books x s' ∧ ∀ f ∈ s'.controls, f.kind ≠ .data ∧ f.kind ≠ .fin := by
  cases emits with
  | shaped | served => exact ⟨books.still rfl rfl rfl rfl, plain⟩
  | @control c rest queue =>
      rw [queue] at plain
      have own := plain c List.mem_cons_self
      have touch : touchOf c = Session.controlTouch c := by
        rw [touchOf, if_neg own.1, if_neg own.2]
      refine ⟨⟨pending_push books rfl (touch ▸ rfl), fun k st here unfailed => ?_, books.above⟩,
        fun f member => plain f (List.mem_cons_of_mem _ member)⟩
      have foreign : ¬ (c.id = k ∧ (c.kind = .data ∨ c.kind = .fin)) :=
        fun both => both.2.elim own.1 own.2
      apply (books.slots k st here unfailed).push_other foreign ?_ rfl rfl
      rw [← touch, marks_touchOf, dataAndFins, List.countP_singleton]
      simp [own]
  | @data k st p rest n drained here live opened pending some_ available =>
      refine ⟨books.frame rfl rfl rfl rfl (by rfl) ?_, plain⟩
      exact (books.slots k st here (Slot.check_of_live live)).push_data pending available rfl rfl
  | @fin k st drained here live opened ended first empty =>
      refine ⟨books.frame rfl rfl rfl rfl (by rfl) ?_, plain⟩
      exact (books.slots k st here (Slot.check_of_live live)).push_fin ended first empty rfl rfl

theorem emission_books {x : Sender} {s s' : Session} (emission : Session.Emission s s')
    (plain : ∀ f ∈ s.controls, f.kind ≠ .data ∧ f.kind ≠ .fin) (books : Books x s) :
    Books x s' ∧ ∀ f ∈ s'.controls, f.kind ≠ .data ∧ f.kind ≠ .fin := by
  induction emission with
  | refl => exact ⟨books, plain⟩
  | tail _ last held => exact emits_books last held.2 held.1

/-! ## One step -/

section Steps

variable {x : Sender} (books : Books x x.session)
include books

/-- After a flush nothing of a batch is pending any more. -/
theorem Books.flush :
    Books { x with flushed := x.session.emitted } x.session.markAll := by
  rcases books.pending with ⟨pending, frames, marked⟩
  rw [Session.markAll, Session.foldl_mark]
  refine ⟨⟨[], (List.append_nil _).symm, rfl⟩, fun k after found unfailed => ?_, books.above⟩
  rcases Option.map_eq_some_iff.mp found with ⟨st, here, rfl⟩
  have same := st.marked_same (x.session.touched.filter (·.id = k))
  have counts := st.marked_counts (x.session.touched.filter (·.id = k))
  have tally := books.slots k st here (same.check ▸ unfailed)
  refine ⟨?_, ?_, ?_, ?_, ?_, ?_, ?_, ?_, fun done => ?_⟩
  · rw [same.output]
    exact tally.bytes
  · rw [counts.2.1, same.output]
    exact tally.queued
  · rw [counts.2.1]
    exact tally.room
  · have all : (x.session.touched.filter (·.id = k)).countP (·.done = false) =
        marks k x.session.touched := by
      rw [List.countP_filter, marks]
      simp only [Bool.decide_and, Bool.and_comm]
    rw [counts.1, all, tally.inflight, Nat.sub_self]
    rfl
  · rw [same.localFin]
    exact tally.asked
  · rw [same.finSent, same.localFin, same.output]
    exact tally.sent
  · rw [same.finSent]
    exact tally.fins
  · rw [same.finSent]
    exact tally.fin
  · rw [frames]
    rcases counts.2.2 done with before | ⟨t, member, fin⟩
    · rcases tally.finFlushed before with ⟨f, inside, own⟩
      exact ⟨f, List.mem_append_left _ inside, own⟩
    · have mine := List.mem_filter.mp member
      rcases fin_of_mark (marked ▸ mine.1) fin with ⟨f, inside, own, kind⟩
      exact ⟨f, List.mem_append_right _ inside, own.trans (of_decide_eq_true mine.2), kind⟩

/-- `poll_write` accepts what it appends to the output. -/
theorem Books.write {s : Session} {k : Nat} {buf : List Byte}
    {result : Except ErrorKind (Option Nat)} (keyed : x.session.Keyed)
    (taken : x.session.pollWrite k buf = some (s, result)) :
    Books { x with accepted := fun j => x.accepted j ++ accepting x.session j (.pollWrite k buf) }
      s := by
  have others : ∀ {j : Nat}, j ≠ k → accepting x.session j (.pollWrite k buf) = [] := by
    intro j other
    simp only [accepting]
    split
    · rw [if_neg (Ne.symm other)]
    · rfl
  rcases Session.pollWrite_cases taken with ⟨st, here, ⟨rfl, answer⟩ |
    ⟨unfailed, opened, unended, some_, rfl, rfl⟩⟩
  · have nothing : ∀ j, accepting x.session j (.pollWrite k buf) = [] := by
      intro j
      simp only [accepting, taken]
      rcases answer with ⟨e, rfl⟩ | ⟨rfl, rfl⟩ | ⟨-, -, rfl⟩ <;> simp
    simp only [nothing, List.append_nil]
    exact books
  have known : k ≤ x.session.high := keyed.below k ((keyed.keys k).mpr (by simp [here]))
  refine ⟨books.pending, fun j after found sound => ?_, fun j above => ?_⟩
  · by_cases same : j = k
    · subst same
      rw [Session.set_slots_self, Option.some.injEq] at found
      subst found
      have tally := books.slots j st here unfailed
      have unsent : st.finSent = false := by
        by_contra done
        cases unended.symm.trans (tally.sent (by simpa using done)).1
      have short : st.room buf ≤ buf.length := (min_le_left _ _).trans (min_le_left _ _)
      have fits : st.room buf ≤ sendBuffer - st.queued :=
        (min_le_left _ _).trans (min_le_right _ _)
      have length : (buf.take (st.room buf)).length = st.room buf := List.length_take_of_le short
      have accepted : accepting x.session j (.pollWrite j buf) = buf.take (st.room buf) := by
        simp only [accepting, taken, if_true]
      have bytes := tally.bytes
      have queued := tally.queued
      have room := tally.room
      refine ⟨?_, ?_, ?_, tally.inflight, tally.asked, fun done => ?_, tally.fins,
        fun before f early own kind => ?_, tally.finFlushed⟩
      · simp only [Slot.writing, List.flatten_append, List.flatten_singleton, accepted]
        rw [← bytes, List.append_assoc]
        rfl
      · simp only [Slot.writing, List.flatten_append, List.flatten_singleton, List.length_append]
        omega
      · simp only [Slot.writing, length]
        omega
      · cases unsent.symm.trans done
      · cases unsent.symm.trans (tally.fin before f early own kind).1
    · have away := (x.session.set_slots_other _ same).symm.trans found
      simp only [others same, List.append_nil]
      exact (books.slots j after away sound).keep rfl rfl ⟨rfl, rfl, rfl, rfl, rfl, rfl⟩
  · have other : j ≠ k := by
      have above : x.session.high < j := above
      omega
    simp only [others other, List.append_nil]
    exact books.above j above

end Steps

/-- The sending side of a slot only changes by the calls and the batches that concern it. -/
theorem effect_side {s : Session} {k : Nat} {action : Session.Action} {o o' : Option Slot}
    (effect : s.Effect k action o o') (calm : ∀ d, action ≠ .batch d)
    (unwritten : action ≠ .written none) (unasked : ∀ buf, action ≠ .pollWrite k buf)
    {st' : Slot} (after : o' = some st') (unfailed : st'.check = none) :
    (s.high < k ∧ ∃ creditAt, st' = Slot.new creditAt) ∨
      ∃ st, o = some st ∧ st.check = none ∧
        (SameSide st st' ∨ action = .pollShutdown k ∧ st' = { st with localFin := true }) := by
  have failing : ∀ (st : Slot) (e : ErrorKind), (st.fail e).check = none →
      st.check = none ∧ SameSide st (st.fail e) := by
    intro st e sound
    rcases st.fail_cases e with ⟨finished, same⟩ | failed
    · rw [same]
      exact ⟨Slot.check_of_ok finished, rfl, rfl, rfl, rfl, rfl, rfl⟩
    · cases failed.symm.trans sound
  cases effect with
  | same => exact .inr ⟨st', after, unfailed, .inl ⟨rfl, rfl, rfl, rfl, rfl, rfl⟩⟩
  | reserve target draw client alive room above creditAt | arrive draw above creditAt =>
      cases after
      exact .inl ⟨above, creditAt, rfl⟩
  | accept server sound =>
      cases after
      exact .inr ⟨_, rfl, sound, .inl ⟨rfl, rfl, rfl, rfl, rfl, rfl⟩⟩
  | reject | fail | expire =>
      cases after
      have kept := failing _ _ unfailed
      exact .inr ⟨_, rfl, kept.1, .inl kept.2⟩
  | drop => cases after
  | read n some_ sound =>
      cases after
      exact .inr ⟨_, rfl, sound, .inl ⟨rfl, rfl, rfl, rfl, rfl, rfl⟩⟩
  | write buf => exact (unasked buf rfl).elim
  | shutdown sound =>
      cases after
      exact .inr ⟨_, rfl, sound, .inr ⟨rfl, rfl⟩⟩
  | check live | publish bs hd got complete at_ own live =>
      cases after
      exact .inr ⟨_, rfl, Slot.check_of_live live, .inl ⟨rfl, rfl, rfl, rfl, rfl, rfl⟩⟩
  | @deliver st _ draw hd p at_ whole own other live delivered =>
      cases after
      refine .inr ⟨st, rfl, Slot.check_of_live live, .inl ?_⟩
      generalize hd.kind = kind at delivered
      cases delivered with
      | opened | fin | finished | credit => exact ⟨rfl, rfl, rfl, rfl, rfl, rfl⟩
      | failed | reset => exact (failing st _ unfailed).2
  | batch d => exact (calm d rfl).elim
  | mark => exact (unwritten rfl).elim

/-- Nothing has been counted for a stream that has just been opened. -/
theorem tally_new {s : Session} {k : Nat} (blank : (s.track k).Blank) {flushed : List Frame}
    {shut : Bool} (creditAt : Nat) : Tally s flushed [] shut k (Slot.new creditAt) := by
  have unsent : ∀ f ∈ s.emitted, f.id ≠ k := by
    intro f member own
    have mine : f ∈ (s.track k).out := List.mem_filter.mpr ⟨member, by simpa using own⟩
    rw [blank.out] at mine
    cases mine
  have unmarked : ∀ t ∈ s.touched, t.id ≠ k := by
    intro t member own
    have mine : t ∈ (s.track k).touched := List.mem_filter.mpr ⟨member, by simpa using own⟩
    rw [blank.touched] at mine
    cases mine
  have bytes : sentBytes k s.emitted = [] := by
    have none_ : s.emitted.filter (fun f => f.id = k ∧ f.kind = .data) = [] := by
      rw [List.filter_eq_nil_iff]
      intro f member data
      exact unsent f member (of_decide_eq_true data).1
    rw [sentBytes, none_]
    rfl
  refine ⟨by rw [bytes]; rfl, rfl, Nat.zero_le _, ?_, fun ended => ?_, fun sent => ?_, ?_,
    fun before f early own => ?_, fun done => ?_⟩
  · rw [marks, eq_comm]
    apply List.countP_eq_zero.mpr
    intro t member both
    exact unmarked t member (of_decide_eq_true both).1
  · cases ended
  · cases sent
  · apply List.countP_eq_zero.mpr
    intro f member both
    exact unsent f member (of_decide_eq_true both).1
  · exact (unsent f (early.subset (by simp)) own).elim
  · cases done

theorem batch_books {x : Sender} {s' : Session} {d : Session.Draws}
    (plain : ∀ f ∈ x.session.controls, f.kind ≠ .data ∧ f.kind ≠ .fin)
    (books : Books x x.session) (taken : x.session.batch d = some s') : Books x s' := by
  rcases (Session.batch_cases taken).2 with rfl | ⟨e, -, rfl⟩ | ⟨-, rfl⟩
  · exact books
  · exact books.still rfl rfl rfl rfl
  · have assembled := (emission_books (Session.assembled_emits x.session d) plain books).1
    exact assembled.still rfl rfl rfl rfl

theorem accepting_other {s : Session} {action : Session.Action}
    (unasked : ∀ k buf, action ≠ .pollWrite k buf) (k : Nat) : accepting s k action = [] := by
  cases action with
  | pollWrite j buf => exact (unasked j buf rfl).elim
  | _ => rfl

theorem flushing_other {x : Sender} {action : Session.Action}
    (unwritten : action ≠ .written none) : x.flushing action = x.flushed := by
  cases action with
  | written e =>
      cases e with
      | none => exact (unwritten rfl).elim
      | some e => rfl
  | _ => rfl

theorem after_shut {x : Sender} {k : Nat} (shut : x.shut k = true) (action : Session.Action)
    (s : Session) : (x.after action s).shut k = true := by
  show (x.shut k || _) = true
  rw [shut, Bool.true_or]

/-- `poll_shutdown` without an error has been recorded. -/
theorem shutting_of {s : Session} {k : Nat} {st : Slot} (here : s.slots k = some st)
    (unfailed : st.check = none) : shutting s k (.pollShutdown k) = true := by
  simp [shutting, Session.pollShutdown_eq here unfailed]

/-- A step that is no write, no batch and no flush. -/
theorem other_books {server : Bool} {x : Sender} {s' : Session} {action : Session.Action}
    (reached : (Session.machine server).Reachable x.session) (books : Books x x.session)
    (calm : ∀ d, action ≠ .batch d) (unwritten : action ≠ .written none)
    (unasked : ∀ k buf, action ≠ .pollWrite k buf)
    (stepped : x.session.step action = some s') : Books (x.after action s') s' := by
  have sound := (Session.reachable_wired reached).2
  have writer := Session.step_writer sound stepped calm
  have touched := writer.2 unwritten
  have accepted : ∀ k, (x.after action s').accepted k = x.accepted k := by
    intro k
    show x.accepted k ++ accepting x.session k action = x.accepted k
    rw [accepting_other unasked, List.append_nil]
  have flushed : (x.after action s').flushed = x.flushed := flushing_other unwritten
  refine ⟨?_, fun k st' found unfailed => ?_, fun k above => ?_⟩
  · rw [flushed, writer.1, touched]
    exact books.pending
  · have effect := Session.step_effect sound stepped k
    rw [flushed, accepted]
    rcases effect_side effect calm unwritten (unasked k) found unfailed with
      ⟨above, creditAt, rfl⟩ | ⟨st, here, intact, same⟩
    · have blank := (Session.reachable_placed reached k).blank
        ((x.session.track_above k).mpr above)
      rw [books.above k above]
      exact (tally_new blank creditAt).keep writer.1 touched ⟨rfl, rfl, rfl, rfl, rfl, rfl⟩
    · have same_ : SameSide st st := ⟨rfl, rfl, rfl, rfl, rfl, rfl⟩
      have tally := (books.slots k st here intact).keep writer.1 touched same_
      rcases same with same | ⟨rfl, rfl⟩
      · have kept := tally.keep rfl rfl same
        exact { kept with asked := fun ended => by simp [after, kept.asked ended] }
      · have called : (x.after (.pollShutdown k) s').shut k = true := by
          show (x.shut k || shutting x.session k (.pollShutdown k)) = true
          rw [shutting_of here intact, Bool.or_true]
        exact { tally with
          asked := fun _ => called
          sent := fun done => ⟨rfl, (tally.sent done).2⟩ }
  · have before : x.session.high < k := by
      by_contra passed
      have old : (x.session.track k).above = false :=
        (x.session.track_above_false k).mpr (not_lt.mp passed)
      have new := (Session.step_moves sound stepped k).invariant
        (P := fun t => t.above = false) (fun _ _ _ _ move => Track.above_move move) old
      exact absurd ((s'.track_above_false k).mp new) (not_le.mpr above)
    rw [accepted]
    exact books.above k before

/-- Every step keeps the history in agreement with the session. -/
theorem step_books {server : Bool} {x x' : Sender} {action : Session.Action}
    (reached : (Session.machine server).Reachable x.session) (books : Books x x.session)
    (taken : x.step action = some x') : Books x' x'.session := by
  rcases Option.map_eq_some_iff.mp taken with ⟨s', stepped, rfl⟩
  have sound := (Session.reachable_wired reached).2
  by_cases batch_ : ∃ d, action = .batch d
  · rcases batch_ with ⟨d, rfl⟩
    have batched := batch_books (Session.controls_plain reached) books
      (Session.task_some stepped).2
    exact batched.congr rfl (fun k => List.append_nil _) fun k shut => after_shut shut _ _
  by_cases written_ : action = .written none
  · subst written_
    have flushed := (Session.task_some stepped).2
    simp only [Session.written] at flushed
    split_ifs at flushed
    cases flushed
    exact books.flush.congr rfl (fun k => List.append_nil _) fun k shut => after_shut shut _ _
  by_cases write_ : ∃ k buf, action = .pollWrite k buf
  · rcases write_ with ⟨k, buf, rfl⟩
    rcases Option.map_eq_some_iff.mp (Session.call_some stepped) with ⟨⟨_, result⟩, polled, rfl⟩
    exact (books.write sound.keyed polled).congr rfl (fun _ => rfl)
      fun k shut => after_shut (x := x) shut _ _
  · exact other_books reached books (fun d same => batch_ ⟨d, same⟩) written_
      (fun k buf same => write_ ⟨k, buf, same⟩) stepped

/-! ## What holds in every state reached -/

theorem session_reached {server : Bool} {x : Sender} (reached : (machine server).Reachable x) :
    (Session.machine server).Reachable x.session := by
  induction reached with
  | start initial => exact .start initial.1
  | step _ _ taken before =>
      rcases Option.map_eq_some_iff.mp taken with ⟨s', stepped, rfl⟩
      exact .step before trivial stepped

theorem reachable_books {server : Bool} {x : Sender} (reached : (machine server).Reachable x) :
    Books x x.session := by
  induction reached with
  | start initial =>
      rcases initial with ⟨⟨traffic, draw, preamble, -, same⟩, accepted, -, flushed⟩
      rw [same]
      refine ⟨⟨[], ?_, rfl⟩, fun k st here => ?_, fun k _ => accepted k⟩
      · rw [flushed]
        rfl
      · cases here
  | step before _ taken books => exact step_books (session_reached before) books taken

/-- What the history of a stream says about its slot. -/
structure Sends (x : Sender) (k : Nat) (st : Slot) : Prop where
  bytes : sentBytes k x.session.emitted ++ st.output.flatten = x.accepted k
  queued : st.queued = st.output.flatten.length ∧ st.queued ≤ sendBuffer
  /-- `inflight` counts the frames in a batch that is not flushed, and so the marks to come. -/
  inflight : ∃ pending, x.session.emitted = x.flushed ++ pending ∧
    st.inflight = dataAndFins k pending ∧ st.inflight = marks k x.session.touched
  fin : ∀ before f, before ++ [f] <+: x.session.emitted → f.id = k → f.kind = .fin →
    x.shut k = true ∧ sentBytes k before = x.accepted k
  once : fins k x.session.emitted ≤ 1
  flush : x.session.pollFlush k = some (.ok true) → sentBytes k x.flushed = x.accepted k
  shutdown : ∀ s, x.session.pollShutdown k = some (s, .ok true) →
    ∃ f ∈ x.flushed, f.id = k ∧ f.kind = .fin

/--
In every state reached, for a stream that has not failed: its DATA and its output
are what was accepted, `queued` and `inflight` are exact, FIN is sent at most once
and behind everything accepted, and a flush or shutdown is done only when
everything accepted, or the FIN, has been flushed.
-/
theorem sends_accepted {server : Bool} {x : Sender} (reached : (machine server).Reachable x)
    {k : Nat} {st : Slot} (here : x.session.slots k = some st) (unfailed : st.check = none) :
    x.Sends k st := by
  have books := reachable_books reached
  have tally := books.slots k st here unfailed
  rcases books.pending with ⟨pending, frames, marked⟩
  have counted : st.inflight = dataAndFins k pending := by
    rw [tally.inflight, marked, marks_flatMap]
  refine ⟨tally.bytes, ⟨tally.queued, tally.room⟩, ⟨pending, frames, counted, tally.inflight⟩,
    fun before f early own kind => ?_, ?_, fun ready => ?_, fun s ready => ?_⟩
  · have ended := tally.fin before f early own kind
    exact ⟨tally.asked (tally.sent ended.1).1, ended.2.1⟩
  · rw [tally.fins]
    split_ifs <;> omega
  · simp only [Session.pollFlush, here, Option.map_some, unfailed, Option.some.injEq,
      Except.ok.injEq, Bool.and_eq_true, beq_iff_eq] at ready
    have empty : st.output.flatten = [] :=
      List.eq_nil_of_length_eq_zero (tally.queued.symm.trans ready.1)
    have bytes := tally.bytes
    rw [frames, sentBytes_append, sentBytes_of_none k (counted.symm.trans ready.2), empty,
      List.append_nil, List.append_nil] at bytes
    exact bytes
  · rw [Session.pollShutdown_eq here unfailed, Option.some.injEq, Prod.mk.injEq,
      Except.ok.injEq] at ready
    exact tally.finFlushed ready.2

/-- A server accepts stream 1, writes two bytes, ends its side and flushes. -/
def answering : List Session.Action :=
  Session.readsIn ⟨.open, 1, Target.loopback.payload⟩ ++
    [.incoming, .accept 1, .pollWrite 1 [7, 8], .pollShutdown 1, .batch ⟨0, 0, fun _ => 0⟩,
      .send 26, .written none]

theorem sends_accepted_answering : ∃ x st,
    (machine true).run ⟨Session.newServer, fun _ => [], fun _ => false, []⟩ answering = some x ∧
    x.session.slots 1 = some st ∧ st.finFlushed = true ∧ x.accepted 1 = [7, 8] ∧
    x.Sends 1 st := by
  have both : ((machine true).run ⟨Session.newServer, fun _ => [], fun _ => false, []⟩
      answering).bind (fun x => (x.session.slots 1).map fun st =>
        (st.check, st.finFlushed, x.accepted 1)) = some (none, true, [7, 8]) := by
    decide +kernel
  rcases Option.bind_eq_some_iff.mp both with ⟨x, ran, rest⟩
  rcases Option.map_eq_some_iff.mp rest with ⟨st, here, same⟩
  simp only [Prod.mk.injEq] at same
  have initial : (machine true).start ⟨Session.newServer, fun _ => [], fun _ => false, []⟩ :=
    ⟨Session.start_newServer, fun _ => rfl, fun _ => rfl, rfl⟩
  have reached := Machine.run_reachable (.start initial) ran
  exact ⟨x, st, ran, here, same.2.1, same.2.2, sends_accepted reached here same.1⟩

end Sender

end Veil.Rust

import Veil.Mux.Pair

/-!
# Calls whose frame finds the control queue full

`Respond` and `CloseWrite` change the flags of their stream before they queue
its frame.  When the queue is full they return an error and leave the flags as
they have set them: the stream counts as answered, or as ended, although
OPENED or FIN was never queued.

In runs without such calls a server sends DATA only for streams whose OPENED
has been queued, and a `CloseWrite` that reports success at once has its FIN
queued or left to `Finish`.
-/

namespace Veil.Mux

open Veil.Lib

/-- The flags of a stream that its frames announce. -/
def Stream.flags (st : Stream) : Bool × Bool × Bool :=
  (st.ready, st.localFIN, st.pendingFIN)

namespace Track

/-- What a stream has announced is in its queue or has been sent. -/
structure Backed (t : Track) : Prop where
  opened : t.server = true → t.err = none → ∀ st, t.st = some st → st.ready = true →
    Has t.frames .opened
  data : t.server = true → t.err = none → Has t.frames .data → Has t.frames .opened
  fin : t.err = none → ∀ st, t.st = some st → st.localFIN = true →
    st.pendingFIN = false → st.applicationDone = false → Has t.frames .fin

theorem backed_move {event : Event} {t t' : Track} (move : Move event t t')
    (spared : event ≠ .respondFull 0 ∧ event ≠ .closeWriteFull) (flags : t.FlagsOk)
    (placed : t.Placed) (held : t.Backed) : t'.Backed := by
  rcases held with ⟨opened, data, fin⟩
  have new := placed.new
  have ready := fun st here => (flags st here).writing
  have pending := fun st here => (flags st here).pending
  clear placed flags
  simp only [frames, waiting] at *
  cases move <;> constructor <;>
    first | assumption | grind -ring -linarith [frames, waiting, deferredFin]

end Track

namespace Session

/-- The control queue, and the flags of stream `k`, are as they were. -/
def Unchanged (s s' : Session) (k : Nat) : Prop :=
  s'.controls = s.controls ∧
    (s'.objs k).map Stream.flags = (s.objs k).map Stream.flags

/-- A call that returns an error because its frame finds the queue full. -/
def Overflows (s : Session) (action : Action) (k : Nat) (s' : Session) : Prop :=
  match action with
  | .respond j code =>
      j = k ∧ s.queueFull ∧ s.answers k ∧ s.respond k code = some (s', some .full)
  | .closeWrite j =>
      j = k ∧ s.queueFull ∧ s.endsWriting k ∧ s.closeWrite k = some (s', some (some .full))
  | _ => False

/-- With a full queue no stream is accepted by `Respond` or ended by `CloseWrite`. -/
def Spares (s : Session) (action : Action) : Prop :=
  match action with
  | .respond k code => code = 0 → ¬ (s.queueFull ∧ s.answers k)
  | .closeWrite k => ¬ (s.queueFull ∧ s.endsWriting k)
  | _ => True

/-- With a full queue `Respond` only sets its flag. -/
theorem respond_overflows {s : Session} {k : Nat} {st : Stream} {code : Byte}
    (full : s.queueFull) (answers : s.answers k) (here : s.objs k = some st) :
    s.respond k code = some (s.set k { st with ready := code == 0 }, some .full) := by
  rcases answers with ⟨alive, server, other, found, free, unfailed, waiting, unclosed⟩
  cases here.symm.trans found
  have plain : (if (code == 0) = true then Kind.opened else Kind.failed) ≠ Kind.credit := by
    split_ifs <;> decide
  have refused : ∀ p, (s.set k { st with ready := code == 0 }).controlLocked
      (if (code == 0) = true then .opened else .failed) k p .controlDone =
        (s.set k { st with ready := code == 0 }, some .full) := by
    intro p
    rcases controlLocked_plain (s.set k { st with ready := code == 0 }) plain k p
        .controlDone with ⟨e, failed, -⟩ | ⟨-, -, outcome⟩ | ⟨-, room, -⟩
    · cases alive.symm.trans failed
    · exact outcome
    · exact (not_lt.mpr full room).elim
  have pending : ¬ (!s.server || st.ready || st.closed) = true := by
    simp [server, waiting, unclosed]
  unfold respond
  rw [here]
  simp only
  rw [if_neg (not_not.mpr free)]
  split
  · next e failed => cases unfailed.symm.trans failed
  · rw [if_neg pending, refused]

/-- With a full queue `CloseWrite` only sets its flag. -/
theorem closeWrite_overflows {s : Session} {k : Nat} {st : Stream}
    (full : s.queueFull) (ends : s.endsWriting k) (here : s.objs k = some st) :
    s.closeWrite k = some (s.set k { st with localFIN := true, closedAt := some st.wrote },
      some (some .full)) := by
  rcases ends with ⟨alive, other, found, free, unfailed, unclosed, unended, opened, now⟩
  cases here.symm.trans found
  have plain : Kind.fin ≠ Kind.credit := by decide
  have refused : (s.set k { st with localFIN := true, closedAt := some st.wrote }).controlLocked
      .fin k [] .finDone =
        (s.set k { st with localFIN := true, closedAt := some st.wrote }, some .full) := by
    rcases controlLocked_plain (s.set k { st with
        localFIN := true, closedAt := some st.wrote }) plain k [] .finDone with
      ⟨e, failed, -⟩ | ⟨-, -, outcome⟩ | ⟨-, room, -⟩
    · cases alive.symm.trans failed
    · exact outcome
    · exact (not_lt.mpr full room).elim
  have sending : ¬ st.closed = true ∧ ¬ st.localFIN = true ∧ ¬ (!st.ready) = true := by
    simp [unclosed, unended, opened]
  have direct : ¬ (s.server && st.remoteFIN) = true := by
    simpa using now
  unfold closeWrite
  rw [here]
  simp only
  rw [if_neg (not_not.mpr free)]
  split
  · next e failed => cases unfailed.symm.trans failed
  · rw [if_neg sending.1, if_neg sending.2.1, if_neg sending.2.2, if_neg direct, refused]

/-- A call that overflows leaves the stream unchanged exactly when it is spared. -/
theorem overflows_unchanged {s s' : Session} {action : Action} {k : Nat}
    (overflows : s.Overflows action k s') : s.Unchanged s' k ↔ s.Spares action := by
  cases action with
  | respond j code =>
      rcases overflows with ⟨rfl, full, answers, taken⟩
      rcases answers with ⟨alive, server, st, here, free, unfailed, waiting, unclosed⟩
      have answers : s.answers j :=
        ⟨alive, server, st, here, free, unfailed, waiting, unclosed⟩
      rw [respond_overflows full answers here] at taken
      cases taken
      simp [Unchanged, Spares, Session.set, here, Stream.flags, waiting, full, answers]
  | closeWrite j =>
      rcases overflows with ⟨rfl, full, ends, taken⟩
      rcases ends with ⟨alive, st, here, free, unfailed, unclosed, unended, opened, now⟩
      have ends : s.endsWriting j :=
        ⟨alive, st, here, free, unfailed, unclosed, unended, opened, now⟩
      rw [closeWrite_overflows full ends here] at taken
      cases taken
      simp [Unchanged, Spares, Session.set, here, Stream.flags, unended, full, ends]
  | _ => exact overflows.elim

theorem initialTrack_backed (server : Bool) (k : Nat) : (initialTrack server k).Backed := by
  constructor <;> simp [initialTrack, Track.frames, Track.waiting]

theorem reachable_backed {server : Bool} {s : Session}
    (reached : (machine server).ReachableBy Spares s) (k : Nat) : (s.track k).Backed := by
  have both := reachable_track (P := fun t => t.Inv ∧ t.Backed)
    (A := fun event => event ≠ .respondFull 0 ∧ event ≠ .closeWriteFull) ?_ ?_ ?_ reached k
  · exact both.2
  · rintro s action j event spared occurs
    cases action with
    | respond i code =>
        rcases occurs with ⟨rfl, rfl | ⟨rfl, full, answers⟩⟩
        · simp
        · refine ⟨fun same => ?_, by simp⟩
          exact spared (Event.respondFull.inj same) ⟨full, answers⟩
    | closeWrite i =>
        rcases occurs with ⟨rfl, rfl | ⟨rfl, full, ends⟩⟩
        · simp
        · exact (spared ⟨full, ends⟩).elim
    | «open» => rcases occurs with rfl | rfl | ⟨rfl, -⟩ <;> simp
    | callReturn => rcases occurs with ⟨-, rfl | ⟨rfl, -⟩⟩ <;> simp
    | finish => rcases occurs with ⟨-, rfl | rfl⟩ <;> simp
    | close => rcases occurs with ⟨-, rfl | ⟨rfl, -⟩⟩ <;> simp
    | read => rcases occurs with ⟨-, rfl⟩; simp
    | write => rcases occurs with ⟨-, rfl⟩; simp
    | writeReturn => rcases occurs with ⟨-, rfl⟩; simp
    | _ => cases occurs; simp
  · exact fun j => ⟨Track.inv_initial server j, initialTrack_backed server j⟩
  · rintro event t t' spared move ⟨inv, held⟩
    exact ⟨Track.inv_move move inv,
      Track.backed_move move spared inv.flags inv.placed held⟩

/--
In every run that never accepts or ends a stream while the control queue is
full: a call whose frame finds the queue full leaves its stream and the queue
unchanged exactly when it does neither; a server has queued OPENED for every
stream it sends DATA for; and a `CloseWrite` that reports success at once has
its FIN queued or left to `Finish`.
-/
theorem overflow_contained {server : Bool} {s : Session}
    (reached : (machine server).ReachableBy Spares s) :
    (∀ action k s', s.Overflows action k s' → (s.Unchanged s' k ↔ s.Spares action)) ∧
      (s.server = true → s.err = none → ∀ f ∈ s.emitted, f.kind = .data →
        Has (s.track f.id).frames .opened) ∧
      ∀ k s', s.err = none → s.closeWrite k = some (s', some none) →
        ∃ st', s'.objs k = some st' ∧
          (Has (s'.track k).frames .fin ∨ st'.pendingFIN = true ∨
            st'.applicationDone = true) := by
  refine ⟨fun action k s' overflows => overflows_unchanged overflows, ?_, ?_⟩
  · intro isServer alive f member data
    refine (reachable_backed reached f.id).data isServer alive ⟨f, ?_, data⟩
    apply List.mem_append_left
    exact List.mem_filter.mpr ⟨member, by simp⟩
  · intro k s' alive taken
    have held := reachable_backed reached k
    rcases closeWrite_cases taken with ⟨st, here, -, ⟨rfl, -, again⟩ |
      ⟨-, -, -, -, ⟨-, -, -, rfl⟩ | ⟨-, ⟨-, ⟨e, failed⟩, -⟩ | ⟨-, waits, -⟩⟩⟩⟩
    · refine ⟨st, here, ?_⟩
      by_contra neither
      simp only [not_or, Bool.not_eq_true] at neither
      exact neither.1 (held.fin alive st here (again rfl).2.2 neither.2.1 neither.2.2)
    · exact ⟨{ st with localFIN := true, closedAt := some st.wrote, pendingFIN := true },
        by simp [Session.set], .inr (.inl rfl)⟩
    · cases failed
    · cases waits

/-- A server reads eight OPEN frames that it admits and sixty-four that it refuses. -/
def crowding : List Action :=
  (List.range 72).flatMap fun i => readsIn ⟨.open, 2 * i + 1, [7]⟩

theorem overflow_contained_crowded : ∃ s,
    (machine true).run (Session.new true (newShape .default fun _ => 0)) crowding = some s ∧
      s.queueFull ∧
      (∀ action k s', s.Overflows action k s' → (s.Unchanged s' k ↔ s.Spares action)) ∧
      (s.server = true → s.err = none → ∀ f ∈ s.emitted, f.kind = .data →
        Has (s.track f.id).frames .opened) ∧
      ∀ k s', s.err = none → s.closeWrite k = some (s', some none) →
        ∃ st', s'.objs k = some st' ∧
          (Has (s'.track k).frames .fin ∨ st'.pendingFIN = true ∨
            st'.applicationDone = true) := by
  have both : ((machine true).run (Session.new true (newShape .default fun _ => 0))
      crowding).map (fun s => decide s.queueFull) = some true := by
    decide +kernel
  rcases Option.map_eq_some_iff.mp both with ⟨s, ran, full⟩
  have initial : (machine true).start (Session.new true (newShape .default fun _ => 0)) :=
    ⟨_, newShape_valid Profile.validate_default _, rfl⟩
  have fine : ∀ action ∈ crowding, ∀ s, Spares s action := by
    intro action member s
    simp only [crowding, List.mem_flatMap, readsIn] at member
    rcases member with ⟨i, -, member⟩
    simp only [List.cons_append, List.nil_append, List.mem_cons, List.not_mem_nil, or_false,
      reduceCtorEq, if_false] at member
    rcases member with rfl | rfl | rfl | rfl <;> trivial
  have reached := Machine.run_reachableBy fine (.start initial) ran
  exact ⟨s, ran, of_decide_eq_true full, overflow_contained reached⟩

/--
With sixty-four refusals in the queue, the server accepts streams 1 and 3 and
ends stream 1, each time in vain, and then writes on stream 3.
-/
def overlooking : List Action :=
  [.respond 1 0, .closeWrite 1, .respond 3 0, .write 3 [5], .wakeUp,
    .batch ⟨0, 0, 0, 0, 0, 0, fun _ => 0⟩]

/-- Stream 1 waits for its answer and the queue is full. -/
def unanswered (s : Session) : Bool :=
  decide s.queueFull && s.err.isNone && s.server && (s.objs 1).any fun st =>
    st.call == .idle && st.err.isNone && !st.ready && !st.closed

theorem unanswered_answers {s : Session} (seen : s.unanswered = true) :
    s.queueFull ∧ s.answers 1 := by
  simp only [unanswered, Bool.and_eq_true, decide_eq_true_eq, Option.isNone_iff_eq_none,
    Option.any_eq_true] at seen
  rcases seen with ⟨⟨⟨full, alive⟩, server⟩, st, here, ⟨⟨free, unfailed⟩, waiting⟩, unclosed⟩
  refine ⟨full, alive, server, st, here, by simpa using free, unfailed, ?_, ?_⟩
  · simpa using waiting
  · simpa using unclosed

/-- DATA for stream 3 without OPENED, and stream 1 ended twice without FIN. -/
def misled (s : Session) : Bool :=
  s.emitted.any (fun f => f.id == 3 && f.kind == .data) &&
    !(s.track 3).frames.any (·.kind == .opened) &&
    (s.closeWrite 1).any (fun result => result.2 == some none) &&
    !(s.track 1).frames.any (·.kind == .fin) &&
    (s.objs 1).any fun st => !st.pendingFIN && !st.applicationDone

/-- A refused answer and a refused FIN leave a stream that sends without OPENED, ends without FIN. -/
theorem overflow_corrupts : ∃ crowded s' s,
    (machine true).run (Session.new true (newShape .default fun _ => 0)) crowding =
        some crowded ∧
      crowded.Overflows (.respond 1 0) 1 s' ∧ ¬ crowded.Unchanged s' 1 ∧
      (machine true).run crowded overlooking = some s ∧
      (∃ f ∈ s.emitted, f.id = 3 ∧ f.kind = .data) ∧ ¬ Has (s.track 3).frames .opened ∧
      (∃ again, s.closeWrite 1 = some (again, some none)) ∧
      ¬ Has (s.track 1).frames .fin ∧
      ∃ st, s.objs 1 = some st ∧ st.pendingFIN = false ∧ st.applicationDone = false := by
  have first : ((machine true).run (Session.new true (newShape .default fun _ => 0))
      crowding).map unanswered = some true := by
    decide +kernel
  have second : ((machine true).run (Session.new true (newShape .default fun _ => 0))
      (crowding ++ overlooking)).map misled = some true := by
    decide +kernel
  rcases Option.map_eq_some_iff.mp first with ⟨crowded, ran, seen⟩
  rw [Machine.run_append, ran, Option.bind_some] at second
  rcases Option.map_eq_some_iff.mp second with ⟨s, rest, last⟩
  rcases unanswered_answers seen with ⟨full, answers⟩
  have here := answers.2.2
  rcases here with ⟨st, here, -⟩
  have overflows : crowded.Overflows (.respond 1 0) 1 (crowded.set 1 { st with ready := true }) :=
    ⟨rfl, full, answers, respond_overflows full answers here⟩
  simp only [misled, Bool.and_eq_true, Bool.not_eq_true', List.any_eq_true, beq_iff_eq,
    List.any_eq_false, Option.any_eq_true] at last
  rcases last with ⟨⟨⟨⟨sent, opened⟩, ⟨again, result⟩, closed, success⟩, fin⟩,
    ended, found, pending, finished⟩
  refine ⟨crowded, _, s, ran, overflows, ?_, rest, sent, ?_, ⟨again, ?_⟩, ?_,
    ended, found, pending, finished⟩
  · intro same
    exact (overflows_unchanged overflows).mp same rfl ⟨full, answers⟩
  · rintro ⟨f, member, kind⟩
    exact opened f member (by simpa using kind)
  · rw [closed]
    exact congrArg (fun result => some (again, result)) success
  · rintro ⟨f, member, kind⟩
    exact fin f member (by simpa using kind)

end Session

end Veil.Mux

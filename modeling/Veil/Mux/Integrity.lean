import Veil.Mux.Pair

/-!
# Byte streams arrive as they were written

For each direction of each stream: what `Read` has returned is an initial part
of what the peer's `Write` calls have consumed, and a `Read` that returns
`io.EOF` has delivered everything written before the peer's `CloseWrite`.
-/

namespace Veil.Mux

open Veil.Lib

namespace Session

/-! ## What one pass of `Read` does -/

/-- The bytes a pass of `Read` returned. -/
def ReadResult.bytes : ReadResult → List Byte
  | .got bytes => bytes
  | _ => []

theorem set_objs_self (s : Session) (k : Nat) (st : Stream) :
    (s.set k st).objs k = some st := by
  simp [set]

/-- The drain loop returns exactly the bytes it marks as delivered. -/
theorem drain_delivers (k : Nat) (draw : Nat → Nat) (fuel room : Nat) (got : List Byte)
    {s : Session} {st : Stream} (here : s.objs k = some st) :
    ∃ st' new, (drain k draw fuel room got s).1.objs k = some st' ∧
      (drain k draw fuel room got s).2.1 = got ++ new ∧
      st'.delivered = st.delivered ++ new := by
  have nothing : ∃ st' new, s.objs k = some st' ∧ got = got ++ new ∧
      st'.delivered = st.delivered ++ new := ⟨st, [], here, by simp, by simp⟩
  induction fuel generalizing room got s st with
  | zero => exact nothing
  | succ fuel induction =>
      rw [drain]
      simp only [here]
      split
      · exact nothing
      next c rest front =>
      split
      · exact nothing
      split
      · exact ⟨_, _, set_objs_self s k _, rfl, rfl⟩
      -- A whole block has been taken; the loop goes on, with the refund queued or not.
      have more : ∀ {s' : Session} {st' : Stream}, s'.objs k = some st' →
          st'.delivered = (st.pop (c.rest.take room)).delivered →
          ∃ st'' new, (drain k draw fuel (room - (c.rest.take room).length)
              (got ++ c.rest.take room) s').1.objs k = some st'' ∧
            (drain k draw fuel (room - (c.rest.take room).length)
              (got ++ c.rest.take room) s').2.1 = got ++ new ∧
            st''.delivered = st.delivered ++ new := by
        intro s' st' here' delivered
        rcases induction (room - (c.rest.take room).length) (got ++ c.rest.take room) here'
          ⟨st', [], here', by simp, by simp⟩ with ⟨st'', new, found, bytes, whole⟩
        refine ⟨st'', c.rest.take room ++ new, found, ?_, ?_⟩
        · rw [bytes, List.append_assoc]
        · rw [whole, delivered, Stream.pop_delivered, List.append_assoc]
      split
      · split
        · next s' e refused =>
            refine ⟨st.pop (c.rest.take room), c.rest.take room, ?_, rfl,
              Stream.pop_delivered _ _⟩
            have same := congrArg (fun result => result.1.objs k) refused
            simp only [controlLocked_objs] at same
            exact same.symm.trans (set_objs_self s k _)
        · exact more (set_objs_self _ k _) rfl
      · exact more (set_objs_self s k _) rfl

/-- A refund is refused only while the stream itself has no error. -/
theorem drain_unfailed {k : Nat} {draw : Nat → Nat} {fuel room : Nat} {got : List Byte}
    {s : Session} {st : Stream} (here : s.objs k = some st)
    (refused : (drain k draw fuel room got s).2.2 ≠ none) : st.err = none := by
  induction fuel generalizing room got s st with
  | zero => exact (refused rfl).elim
  | succ fuel induction =>
      rw [drain] at refused
      simp only [here] at refused
      split at refused
      · exact (refused rfl).elim
      split at refused
      · exact (refused rfl).elim
      split at refused
      · exact (refused rfl).elim
      split at refused
      · next due => simpa using due.2.1
      · simpa using induction (set_objs_self s k _) refused

/-- A pass that copies nothing has found nothing to copy. -/
theorem drain_nothing {k : Nat} {draw : Nat → Nat} {room : Nat} {s : Session} {st : Stream}
    (here : s.objs k = some st) (some_ : 0 < room)
    (inside : ∀ c ∈ st.unread, c.start ≤ c.b.length)
    (nonempty : ∀ c ∈ st.unread, c.complete = true → c.start < c.b.length)
    (nothing : (drain k draw st.unread.length room [] s).2.1 = []) :
    (drain k draw st.unread.length room [] s).2.2 = none ∧
      ∀ c, st.unread.head? = some c → c.complete = false := by
  cases front : st.unread with
  | nil => exact ⟨rfl, by simp⟩
  | cons c rest =>
      rw [front] at inside nonempty nothing
      have start := inside c (by simp)
      have filled := nonempty c (by simp)
      simp only [List.length_cons, drain, here, front] at nothing ⊢
      by_cases stop : room = 0 ∨ c.start = c.b.length ∧ c.complete = false
      · rw [if_pos stop]
        refine ⟨rfl, ?_⟩
        rintro d ⟨⟩
        exact (stop.resolve_left (by omega)).2
      rw [if_neg stop] at nothing
      -- Otherwise at least one byte of the first block is copied.
      have copied : c.rest.take room ≠ [] := by
        intro empty
        have size := congrArg List.length empty
        simp only [Chunk.rest, List.length_take, List.length_drop, List.length_nil] at size
        refine stop (.inr ⟨by omega, ?_⟩)
        by_contra whole
        have := filled (by simpa using whole)
        omega
      exfalso
      have later : ∀ {s' : Session} {st' : Stream} {fuel room' : Nat},
          s'.objs k = some st' →
          (drain k draw fuel room' ([] ++ c.rest.take room) s').2.1 ≠ [] := by
        intro s' st' fuel room' here' empty
        rcases drain_delivers k draw fuel room' ([] ++ c.rest.take room) here' with
          ⟨-, new, -, bytes, -⟩
        rw [empty] at bytes
        simp [copied] at bytes
      split at nothing
      · exact copied nothing
      split at nothing
      · split at nothing
        · exact copied nothing
        · exact later (set_objs_self _ k _) nothing
      · exact later (set_objs_self _ k _) nothing

/-- `Read` returns exactly the bytes it marks as delivered. -/
theorem read_delivers {s s' : Session} {k n : Nat} {draw : Nat → Nat} {result : ReadResult}
    {st : Stream} (here : s.objs k = some st) (taken : s.read k n draw = some (s', result)) :
    ∃ st', s'.objs k = some st' ∧ st'.delivered = st.delivered ++ result.bytes := by
  simp only [read, here] at taken
  split at taken
  · cases taken
    exact ⟨st, here, (List.append_nil _).symm⟩
  · rcases drain_delivers k draw st.unread.length n [] here with
      ⟨st', new, found, bytes, delivered⟩
    cases taken
    refine ⟨st', found, ?_⟩
    rw [delivered, bytes, List.nil_append]
    cases new with
    | nil => split <;> rfl
    | cons => rfl

end Session

namespace Track

/-- A pass of `Read` that reports the end of input has delivered everything up to FIN. -/
theorem read_eof {s s' : Session} {k n : Nat} {draw : Nat → Nat} {st : Stream}
    (inv : (s.track k).Inv) (here : s.objs k = some st)
    (taken : s.read k n draw = some (s', .error .eof)) :
    st.closed = false ∧ st.remoteFIN = true ∧ st.unread = [] := by
  have flags := inv.flags st here
  have blocks := inv.chunks st here
  simp only [Session.read, here] at taken
  split at taken
  · cases taken
  next some_ =>
  simp only [Option.some.injEq, Prod.mk.injEq] at taken
  rcases taken with ⟨-, result⟩
  -- Behind FIN no block is being received, so none is unfinished or empty.
  have settled : st.remoteFIN = true → (∀ c ∈ st.unread, c.complete = true) ∧
      ∀ c ∈ st.unread, c.complete = true → c.start < c.b.length := by
    intro ended
    have resting : (s.track k).progress.taking = false := by
      by_contra taking
      rcases inv.placed.taking (by simpa using taking) with ⟨st', here', -, unended⟩
      cases here.symm.trans here'
      cases ended.symm.trans unended
    have tail := blocks.tail
    unfold Tail at tail
    split at tail
    · next at_ =>
        rw [at_] at resting
        cases resting
    · refine ⟨tail, fun c member whole => ?_⟩
      refine (blocks.nonempty c member whole).resolve_right ?_
      rintro ⟨got, at_⟩
      rw [at_] at resting
      cases resting
  have empty : st.remoteFIN = true → (Session.drain k draw st.unread.length n [] s).2.1 = [] →
      (Session.drain k draw st.unread.length n [] s).2.2 = none ∧ st.unread = [] := by
    intro ended nothing
    rcases settled ended with ⟨complete, filled⟩
    rcases Session.drain_nothing here (by omega) blocks.inside filled nothing with ⟨fine, first⟩
    refine ⟨fine, ?_⟩
    cases front : st.unread with
    | nil => rfl
    | cons c rest =>
        have whole := complete c (by simp [front])
        cases whole.symm.trans (first c (by simp [front]))
  cases bytes : (Session.drain k draw st.unread.length n [] s).2.1 with
  | cons => simp [bytes] at result
  | nil =>
      rw [bytes] at result
      cases refused : (Session.drain k draw st.unread.length n [] s).2.2 with
      | some e =>
          rw [refused] at result
          have same : e = .eof := by simpa using result
          subst same
          have known := (Session.drain_kept k draw st.unread.length n []
            (Session.Kept.refl s)).2 _ refused
          have failed : s.err = some .eof := by simpa using known
          have alive := Session.drain_unfailed here (by rw [refused]; simp)
          have ended := inv.ended.fin failed st here alive
          cases refused.symm.trans (empty ended bytes).1
      | none =>
          rw [refused] at result
          cases failed : st.err with
          | some e =>
              simp only [failed] at result
              have plain := flags.plain
              simp_all
          | none =>
              simp only [failed] at result
              cases closed : st.closed <;> cases ended : st.remoteFIN <;>
                simp [closed, ended] at result
              exact ⟨rfl, rfl, (empty ended bytes).2⟩

/-- Only `Read` delivers bytes. -/
theorem delivered_move {event : Event} {t t' : Track} {st : Stream} (move : Move event t t')
    (placed : t.Placed) (other : event ≠ .read) (here : t.st = some st) :
    ∃ st', t'.st = some st' ∧ st'.delivered = st.delivered := by
  have fresh : t.above = true → False := fun new => by
    cases here.symm.trans (placed.new new).1
  cases move with
  | failBare _ _ _ missing | reportBare missing => cases missing.symm.trans here
  | fail _ _ _ there =>
      cases here.symm.trans there
      split_ifs <;> exact ⟨_, rfl, rfl⟩
  | report _ there =>
      cases here.symm.trans there
      split_ifs <;> exact ⟨_, rfl, rfl⟩
  | «open» _ _ _ new | openFull _ _ _ new | arrive _ _ _ new => exact (fresh new).elim
  | pass | halt | sweep | refuse | control | ignore | checkedDead | dropChunk
  | publishDropped | completeDropped | cutDropped | emitControl => exact ⟨st, here, rfl⟩
  | advance | pop | grant | merge => exact (other rfl).elim
  | opened _ _ _ _ there | fin _ _ _ _ there | finished _ _ _ _ there
  | credit _ _ _ _ there | failed _ _ _ _ _ there | reset _ _ _ _ there
  | checked _ _ _ there | keepChunk _ _ there | publish _ _ there | complete _ _ there
  | cut _ _ there | respond _ there | respondFull _ there | respondOver _ there
  | controlReturn there | finReturn there | giveUp there | abandon there
  | write _ there | writeReturn there | closeWrite there | closeWriteLater there
  | closeWriteFull there | closeWriteOver there | finish there | finishFull _ there
  | close there | closeQuiet there | closeFull there | emitData _ _ _ there =>
      cases here.symm.trans there
      exact ⟨_, rfl, rfl⟩

/-- What has been read of the frames of a stream is an initial part of what was sent. -/
theorem Linked.payloads_read {a b : Track} (link : Linked a b) :
    payloads b.inn ++ b.progress.got <+: payloads a.out := by
  by_cases inside : b.progress.inData = true
  · rcases link.current inside with ⟨f, data, ⟨rest, split_⟩, got⟩
    rw [← split_, payloads_append, payloads_append, payloads_data data, List.append_assoc]
    exact (List.prefix_append_right_inj _).mpr (got.trans (List.prefix_append _ _))
  · have nothing : b.progress.got = [] := by
      cases at_ : b.progress <;> rw [at_] at inside <;> first | rfl | exact (inside rfl).elim
    rcases link.frames with ⟨rest, split_⟩
    rw [nothing, List.append_nil, ← split_, payloads_append]
    exact List.prefix_append _ _

/-- What a stream has delivered is an initial part of what its peer's writes consumed. -/
theorem Linked.delivered {a b : Track} (link : Linked a b) (sender : a.Inv)
    (receiver : b.Inv) {st : Stream} (here : b.st = some st) :
    st.delivered <+: (a.st.map Stream.consumed).getD [] := by
  have bound := (receiver.received st here).bound
  rw [← sender.sent.bytes]
  exact (List.prefix_append _ _).trans (bound.trans link.payloads_read)

/-- A stream that has read everything up to FIN has read what was written before it. -/
theorem Linked.complete {a b : Track} (link : Linked a b) (sender : a.Inv)
    (receiver : b.Inv) {st : Stream} (here : b.st = some st) (unclosed : st.closed = false)
    (ended : st.remoteFIN = true) (empty : st.unread = []) :
    ∃ peer, a.st = some peer ∧ peer.closedAt = some st.delivered := by
  have received := receiver.received st here
  rcases received.heard ended with ⟨f, member, fin⟩
  rcases link.frames with ⟨rest, split_⟩
  have sentFin : f ∈ a.out := by simp [← split_, member]
  rcases sender.sent.sent f sentFin fin with ⟨peer, there, closed⟩
  have flags := sender.flags peer there
  refine ⟨peer, there, ?_⟩
  have idle : peer.call ≠ .write := by
    intro writing
    cases closed.symm.trans (flags.writing writing).2
  have consumed : peer.consumed = peer.wrote := by
    simp [Stream.consumed, (flags.idle idle).1]
  -- Behind FIN there is no DATA, so the bytes before it are all bytes sent.
  have before : payloads (b.inn.takeWhile (·.kind ≠ .fin)) = payloads a.out := by
    have same : a.out.takeWhile (·.kind ≠ .fin) = b.inn.takeWhile (·.kind ≠ .fin) := by
      rw [← split_]
      exact Received.takeWhile_heard ⟨f, member, fin⟩
    have none_ : payloads (a.out.dropWhile (·.kind ≠ .fin)) = [] := by
      simp only [payloads, List.flatMap_eq_nil_iff, List.mem_filter]
      intro g after
      exact (sender.sent.last g after.1 (by simpa using after.2)).elim
    rw [← same, ← List.takeWhile_append_dropWhile (p := (·.kind ≠ .fin)) (l := a.out),
      payloads_append, List.takeWhile_append_dropWhile, none_, List.append_nil]
  have final := received.final unclosed ended
  rw [before, sender.sent.bytes, there, Stream.waiting, empty] at final
  rw [flags.marked.mp closed, ← consumed]
  simpa using final.symm

end Track

/-- A step that is no `Read` of the stream delivers nothing on it. -/
theorem Session.step_delivered {s s' : Session} {action : Action} {k : Nat} {st : Stream}
    (sound : s.Sound) (inv : (s.track k).Inv) (taken : s.step action = some s')
    (other : ∀ n draw, action ≠ .read k n draw) (here : s.objs k = some st) :
    ∃ st', s'.objs k = some st' ∧ st'.delivered = st.delivered := by
  have moves := step_moves sound taken k
  have kept := moves.invariant
    (P := fun t => t.Inv ∧ ∃ st', t.st = some st' ∧ st'.delivered = st.delivered)
    (fun event t t' occurs move held => by
      have plain : event ≠ .read := by
        rintro rfl
        unfold Occurs at occurs
        split at occurs <;> grind -ring -linarith
      rcases held with ⟨inv, st', here, same⟩
      rcases Track.delivered_move move inv.placed plain here with ⟨st'', found, kept⟩
      exact ⟨Track.inv_move move inv, st'', found, kept.trans same⟩)
    ⟨inv, st, here, rfl⟩
  exact kept.2

/-- One direction of one stream: what has been read is what was written. -/
structure Intact (sender receiver : Session) (k : Nat) : Prop where
  /-- What has been delivered is an initial part of what was consumed. -/
  bound : ∀ st, receiver.objs k = some st →
    st.delivered <+: ((sender.objs k).map Stream.consumed).getD []
  /-- A `Read` delivers exactly the bytes it returns. -/
  returned : ∀ st n draw after result, receiver.objs k = some st →
    receiver.read k n draw = some (after, result) →
    ∃ st', after.objs k = some st' ∧ st'.delivered = st.delivered ++ result.bytes
  /-- No other step delivers anything. -/
  others : ∀ st action after, receiver.objs k = some st → receiver.step action = some after →
    (∀ n draw, action ≠ .read k n draw) →
    ∃ st', after.objs k = some st' ∧ st'.delivered = st.delivered
  /-- At the end of input everything written before `CloseWrite` has been delivered. -/
  eof : ∀ st n draw after, receiver.objs k = some st →
    receiver.read k n draw = some (after, .error .eof) →
    ∃ peer, sender.objs k = some peer ∧ peer.closedAt = some st.delivered

theorem Track.Linked.intact {a b : Session} {k : Nat} (link : Linked (a.track k) (b.track k))
    (sender : (a.track k).Inv) (receiver : (b.track k).Inv) (sound : b.Sound) :
    Intact a b k where
  bound _ here := link.delivered sender receiver here
  returned _ _ _ _ _ here taken := Session.read_delivers here taken
  others _ _ _ here taken other := Session.step_delivered sound receiver taken other here
  eof st n draw after here taken := by
    rcases Track.read_eof receiver here taken with ⟨unclosed, ended, empty⟩
    exact link.complete sender receiver here unclosed ended empty

/--
In every run of a client and a server session, each direction of each stream
carries its bytes unchanged, however the transport splits them into reads.
-/
theorem Pair.bytes_intact {pair : Pair} (reached : Pair.machine.Reachable pair) (k : Nat) :
    Intact pair.left pair.right k ∧ Intact pair.right pair.left k := by
  have free : Pair.machine.ReachableBy
      (Endpoint.bothSides (fun _ _ => True) fun _ _ => True) pair :=
    reached.mono fun _ action _ => by cases action <;> trivial
  have links := Pair.linked free k
  have client := Session.reachable_inv (Pair.client_reached free) k
  have server := Session.reachable_inv (Pair.server_reached free) k
  exact ⟨links.1.intact client server (Session.reachable_sound (Pair.server_reached free)),
    links.2.intact server client (Session.reachable_sound (Pair.client_reached free))⟩

/-- The client writes two bytes, of which the server has read the first. -/
def firstByte : List (Session.Action ⊕ Session.Action) :=
  Session.opening ++ .inl (.write 1 [5, 6]) :: ((Session.writesOut 10).map .inl ++
    [.inl (.writeReturn 1), .inr (.recv (Header.bytes ⟨.data, 1, 2⟩) none), .inr .check,
      .inr .takeChunk, .inr (.recv [5] none), .inr (.read 1 4 fun _ => 0)])

theorem Pair.bytes_intact_firstByte : ∃ pair,
    Pair.machine.run Pair.new firstByte = some pair ∧
      (pair.right.objs 1).map Stream.delivered = some [5] ∧
      (pair.left.objs 1).map Stream.consumed = some [5, 6] ∧ Intact pair.left pair.right 1 := by
  have both : (Pair.machine.run Pair.new firstByte).map (fun pair =>
      ((pair.right.objs 1).map Stream.delivered, (pair.left.objs 1).map Stream.consumed)) =
      some (some [5], some [5, 6]) := by
    decide +kernel
  rcases Option.map_eq_some_iff.mp both with ⟨pair, ran, same⟩
  have reached := Machine.run_reachable (.start Pair.start_new) ran
  exact ⟨pair, ran, congrArg Prod.fst same, congrArg Prod.snd same,
    (Pair.bytes_intact reached 1).1⟩

end Veil.Mux

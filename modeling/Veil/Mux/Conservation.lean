import Veil.Mux.Integrity

/-!
# Credit is conserved

Each direction of a stream shares out one window of 256 blocks: what the sender
may still use, the DATA frames on their way, the blocks the receiver holds, the
refund it owes, and the CREDIT on its way back.  The bounds of both counters
follow, and with them that no CREDIT is ever refused and that two of them never
add up to more than the window.
-/

namespace Veil.Mux

open Veil.Lib

namespace Track

/-- A refund that would make a queued CREDIT exceed the window. -/
def Overflows (t : Track) : Prop := ∃ st c, t.st = some st ∧ st.closed = false ∧
  c ∈ t.queue ∧ c.frame.kind = .credit ∧
  windowBlocks < ((c.frame.amount + fromBigEndian (bigEndian 2 st.refund.toNat) : Nat) : Int)

/-- Reading leaves the frames of a stream and the read loop as they are. -/
theorem read_same {t t' : Track} (moves : Moves (· = .read) t t') :
    t'.id = t.id ∧ t'.out = t.out ∧ t'.inn = t.inn ∧ t'.progress = t.progress := by
  refine moves.invariant (P := fun t' => t'.id = t.id ∧ t'.out = t.out ∧
    t'.inn = t.inn ∧ t'.progress = t.progress) ?_ ⟨rfl, rfl, rfl, rfl⟩
  intro event t' t'' reading move held
  subst reading
  cases move <;> exact held

end Track

namespace Session

/-- The drain loop reports a protocol error only where a refund overflows a CREDIT. -/
theorem drain_overflow {k : Nat} {draw : Nat → Nat} {fuel room : Nat} {got : List Byte}
    {s : Session} (shape : s.shape.Valid) (alive : s.err = none)
    (refused : (drain k draw fuel room got s).2.2 = some .protocol) :
    ∃ t, Track.Moves (· = .read) (s.track k) t ∧ t.Overflows := by
  induction fuel generalizing room got s with
  | zero => cases refused
  | succ fuel induction =>
      rw [drain] at refused
      split at refused
      · cases refused
      next st here =>
      split at refused
      · cases refused
      next c rest front =>
      split at refused
      · cases refused
      simp only at refused
      split at refused
      · cases refused
      next whole =>
      simp only [not_or, ne_eq, not_not, Bool.not_eq_false] at whole
      rcases pop_moves here front whole.1 whole.2 with ⟨all, move⟩
      rw [all] at refused
      have popped : Track.Moves (· = .read) (s.track k) ((s.set k (st.pop c.rest)).track k) := by
        rw [track_set_self]
        exact .one rfl move
      split at refused
      · next due =>
          have shape' : (s.set k (st.pop c.rest)).shape.Valid := shape
          split at refused
          · next s' e granted =>
              cases refused
              rcases controlLocked_credit (s.set k (st.pop c.rest)) k
                (bigEndian 2 (st.pop c.rest).refund.toNat) .nobody with
                ⟨e, failed, outcome⟩ | ⟨-, -, outcome⟩ | ⟨-, -, outcome⟩ |
                ⟨before, d, after, -, queue, kind, id, ⟨past, outcome⟩ | ⟨-, outcome⟩⟩
              · cases alive.symm.trans failed
              · cases outcome.symm.trans granted
              · cases outcome.symm.trans granted
              · refine ⟨_, popped, st.pop c.rest, d, set_objs_self s k _, due.2.2, ?_, kind, past⟩
                refine List.mem_filter.mpr ⟨?_, by simpa using id⟩
                rw [queue]
                simp
              · cases outcome.symm.trans granted
          · next s' granted =>
              have same : s'.shape = s.shape ∧ s'.err = s.err := by
                have kept := ((Kept.refl s).set k (st.pop c.rest)).controlLocked
                  (t := .credit) (by simp) k (bigEndian 2 (st.pop c.rest).refund.toNat) .nobody
                rw [granted] at kept
                exact ⟨kept.1.shape, kept.1.err⟩
              rcases refund_moves (n := s'.shape.credit.choose (draw fuel))
                (set_objs_self s k _) due.1 due.2.1 due.2.2
                (fun _ => (same.1 ▸ shape).credit_pos _) granted k with
                ⟨impossible, -⟩ | ⟨-, refunded⟩
              · exact (impossible rfl).elim
              · rcases induction (s := s'.set k _) (same.1 ▸ shape) (same.2.trans alive) refused with
                  ⟨t, later, past⟩
                have refunded := refunded.mono fun event fine => fine.2
                exact ⟨t, (popped.trans refunded).trans later, past⟩
      · rcases induction (s := s.set k (st.pop c.rest)) shape alive refused with
          ⟨t, later, past⟩
        exact ⟨t, popped.trans later, past⟩

end Session

namespace Track

/-- The DATA frame being read is among those sent. -/
def counted (progress : Progress) : Int := if progress.inData then 1 else 0

theorem Linked.dataCount_le {a b : Track} (link : Linked a b) :
    dataCount b.inn + counted b.progress ≤ dataCount a.out := by
  unfold counted
  split_ifs with inside
  · rcases link.current inside with ⟨f, data, ⟨rest, split_⟩, -⟩
    have more := dataCount_nonneg rest
    rw [← split_, dataCount_append, dataCount_append, dataCount_data data]
    omega
  · rcases link.frames with ⟨rest, split_⟩
    have more := dataCount_nonneg rest
    rw [← split_, dataCount_append]
    omega

theorem Linked.creditSum_le {a b : Track} (link : Linked a b) :
    creditSum b.inn ≤ creditSum a.out := by
  rcases link.frames with ⟨rest, split_⟩
  have more := creditSum_nonneg rest
  rw [← split_, creditSum_append]
  omega

theorem held_le_counted (progress : Progress) : progress.held ≤ counted progress := by
  cases progress with
  | receiving got discard | stuck got discard => cases discard <;> simp [Progress.held, counted, Progress.inData]
  | away | control | checked => simp [Progress.held, counted, Progress.inData]

theorem residue_le_counted (progress : Progress) : progress.residue ≤ counted progress := by
  cases progress with
  | receiving got discard | stuck got discard => cases discard <;> simp [Progress.residue, counted, Progress.inData]
  | away | control | checked => simp [Progress.residue, counted, Progress.inData]

/-- What has been sent is within the credit granted, on either side of the link. -/
theorem Linked.sent_le {a b : Track} (back : Linked b a) (sender : a.Inv) :
    dataCount a.out ≤ windowBlocks + creditSum b.out := by
  have returned := back.creditSum_le
  cases here : a.st with
  | none =>
      have nothing := sender.send.1 here
      have more := creditSum_nonneg b.out
      simp only [windowBlocks]
      omega
  | some st =>
      have spent := sender.send.2 st here
      have low := spent.low
      have bound := spent.bound
      omega

/-- What has been granted comes from DATA frames of the peer. -/
theorem Linked.granted_le {a b : Track} (link : Linked a b) (receiver : b.Inv) :
    b.granted ≤ dataCount a.out := by
  have sent := link.dataCount_le
  have residue := residue_le_counted b.progress
  cases here : b.st with
  | none =>
      have nothing := receiver.grant.1 here
      have more := dataCount_nonneg a.out
      omega
  | some st =>
      have total := (receiver.grant.2 st here).total receiver.chunks receiver.window here
      omega

/-- No refund makes a queued CREDIT exceed the window. -/
theorem Linked.not_overflows {a b b' : Track} (link : Linked a b) (back : Linked b a)
    (sender : a.Inv) (moves : Moves (· = .read) b b') (receiver : b'.Inv) :
    ¬ b'.Overflows := by
  rintro ⟨st, c, here, unclosed, queued, kind, past⟩
  rcases read_same moves with ⟨-, out, inn, progress⟩
  have sent := link.dataCount_le
  have held := held_le_counted b.progress
  have used := back.sent_le sender
  have bound := (receiver.grant.2 st here).bound unclosed
  have shared := receiver.window st here unclosed
  have amount := amount_refund shared.2.2 (refund_le shared)
  have one : (c.frame.amount : Int) ≤ creditSum (b'.queue.map Control.frame) := by
    rcases List.append_of_mem queued with ⟨before, after, split_⟩
    have more := creditSum_nonneg (before.map Control.frame)
    have rest := creditSum_nonneg (after.map Control.frame)
    rw [split_, List.map_append, List.map_cons, creditSum_append, creditSum_cons,
      creditSum_credit kind]
    omega
  rw [granted, out, inn, progress] at bound
  push_cast at past
  omega

/-- A CREDIT that follows what has been read fits the sender's window. -/
theorem Linked.credit_fits {a b : Track} (link : Linked a b) (sender : a.Inv)
    (receiver : b.Inv) {st : Stream} (here : a.st = some st) {f : Frame}
    (kind : f.kind = .credit) (next : a.inn ++ [f] <+: b.out) :
    f.amount ≠ 0 ∧ (f.amount : Int) ≤ windowBlocks - st.sendCredit := by
  have granted := link.granted_le receiver
  have bound := (sender.send.2 st here).bound
  rcases next with ⟨rest, split_⟩
  have returned : creditSum a.inn + f.amount ≤ creditSum b.out := by
    have more := creditSum_nonneg rest
    rw [← split_, creditSum_append, creditSum_append, creditSum_credit kind]
    omega
  have queued := creditSum_nonneg (b.queue.map Control.frame)
  rw [Track.granted] at granted
  refine ⟨(receiver.formed.sent f ?_).2.2 kind, by omega⟩
  exact List.mem_append_left _ (by simp [← split_])

end Track

/-! ## The balance -/

namespace Session

/-- How many frames the header check has passed, the one being read included. -/
def checkedCount (s : Session) : Nat :=
  s.processed.length + if s.reader.frame?.isSome then 1 else 0

/-- The frames of a stream emitted and not yet accounted by the peer's header check. -/
def unchecked (sender receiver : Session) (k : Nat) : List Frame :=
  (sender.emitted.drop receiver.checkedCount).filter (·.id = k)

/-- The frames of a stream queued, or on their way and not yet processed by the peer. -/
def returning (receiver sender : Session) (k : Nat) : List Frame :=
  (receiver.emitted.drop sender.processed.length).filter (·.id = k) ++
    (receiver.controls.filter (·.frame.id = k)).map Control.frame

/-- `len(queue) - head`, and the frame whose block has not been queued yet. -/
def blocks (s : Session) (k : Nat) (st : Stream) : Int :=
  st.unread.length + (s.reader.progress k).pre

/-- The stream is in the map of a session that has not failed, and has no error. -/
structure Live (s : Session) (k : Nat) (st : Stream) : Prop where
  alive : s.err = none
  listed : k ∈ s.streams
  here : s.objs k = some st
  unfailed : st.err = none
  unclosed : st.closed = false

/-- The frames one side has not accounted are the rest of those the other has sent. -/
theorem Follows.unchecked {a b : Session} (follows : Follows a b) (receiver : b.Wired)
    (valid : ∀ f ∈ a.emitted, f.Valid) (k : Nat) :
    dataCount (a.track k).out = dataCount (b.track k).inn +
      Track.counted (b.track k).progress + dataCount (a.unchecked b k) := by
  have inner : (b.track k).inn = b.processed.filter (·.id = k) := rfl
  have outer : (a.track k).out = a.emitted.filter (·.id = k) := rfl
  have progress : (b.track k).progress = b.reader.progress k := rfl
  cases position : b.reader.frame? with
  | none =>
      have outside : (b.reader.progress k).inData = false := by
        by_contra inside
        rcases receiver.framed.data (by simpa using inside) with ⟨hd, found, -⟩
        cases position.symm.trans found
      rcases follows with ⟨rest, -, split_, -⟩
      simp [Session.unchecked, checkedCount, position, inner, outer, progress, split_,
        Track.counted, outside]
  | some frame =>
      rcases frame with ⟨hd, got⟩
      rcases follows.next receiver valid position with ⟨f, rest, split_, header, -⟩
      have counted : dataCount ([f].filter (·.id = k)) = Track.counted (b.reader.progress k) := by
        unfold Track.counted
        split_ifs with inside
        · rcases receiver.framed.data inside with ⟨hd', found, data, own⟩
          cases position.symm.trans found
          have id : f.id = k := (congrArg Header.id header).trans own
          have kind : f.kind = .data := (congrArg Header.kind header).trans data
          simp [id, dataCount_data kind]
        · by_cases own : f.id = k
          · have other : f.kind ≠ .data := by
              intro data
              refine inside ?_
              rw [← own, show f.id = hd.id from congrArg Header.id header]
              exact receiver.framed.inData position
                ((congrArg Header.kind header).symm.trans data)
            simp [own, dataCount_other other]
          · simp [own]
      have drop : (b.processed ++ f :: rest).drop (b.processed.length + 1) = rest := by
        simp
      have pieces : (b.processed ++ f :: rest).filter (·.id = k) =
          b.processed.filter (·.id = k) ++ ([f].filter (·.id = k) ++ rest.filter (·.id = k)) := by
        rw [← List.filter_append, ← List.filter_append]
        rfl
      rw [Session.unchecked, checkedCount, position, inner, outer, progress, split_, pieces,
        dataCount_append, dataCount_append, counted]
      simp only [Option.isSome_some, if_true, drop]
      omega

/-- The CREDIT on its way back is the rest of what has been granted. -/
theorem Follows.returning {a b : Session} (follows : Follows b a) (k : Nat) :
    (b.track k).granted = creditSum (a.track k).inn + creditSum (b.returning a k) := by
  rcases follows with ⟨rest, -, split_, -⟩
  have outer : (b.track k).out = (a.track k).inn ++ rest.filter (·.id = k) := by
    simp [track, trackWith, split_]
  have queue : (b.track k).queue = b.controls.filter (·.frame.id = k) := rfl
  rw [Track.granted, outer, queue, Session.returning, split_, List.drop_left,
    creditSum_append, creditSum_append]
  omega

end Session

/-- One direction of one stream: the window is shared out and nothing exceeds it. -/
structure Conserved (sender receiver : Session) (k : Nat) : Prop where
  /-- The six shares add up to the window. -/
  balance : ∀ st peer, sender.Live k st → receiver.Live k peer →
    st.sendCredit + dataCount (sender.unchecked receiver k) + receiver.blocks k peer +
      peer.refund + creditSum (receiver.returning sender k) = windowBlocks
  /-- The receiver's counter is the rest of its window. -/
  window : ∀ peer, receiver.Live k peer →
    peer.recvCredit = windowBlocks - receiver.blocks k peer - peer.refund
  /-- The sender's counter stays within the window. -/
  sendCredit : ∀ st, sender.objs k = some st →
    0 ≤ st.sendCredit ∧ st.sendCredit ≤ windowBlocks
  /-- The receiver's counter stays within the window. -/
  recvCredit : ∀ peer, receiver.objs k = some peer → peer.closed = false →
    0 ≤ peer.recvCredit ∧ peer.recvCredit ≤ windowBlocks
  /-- A CREDIT of the receiver is never refused by the sender. -/
  accepted : ∀ hd live p st, sender.reader = .payload hd live p → hd.kind = .credit →
    hd.id = k → p.length = hd.length → sender.Finds live k st →
    ¬ Session.Objects sender.server st .credit p
  /-- A refund never makes a queued CREDIT exceed the window. -/
  coalesced : ∀ peer n draw, receiver.objs k = some peer → receiver.err = none →
    (Session.drain k draw peer.unread.length n [] receiver).2.2 ≠ some .protocol
  /-- The receiver never holds more than a window of blocks. -/
  unread : ∀ peer, receiver.objs k = some peer → (peer.unread.length : Int) ≤ windowBlocks

section Conserved

variable {a b : Session} {k : Nat}

theorem pre_nonneg (progress : Progress) : 0 ≤ progress.pre := by
  unfold Progress.pre
  split <;> simp

/-- A live stream's DATA frame in progress is counted once. -/
theorem counted_live {t : Track} {st : Stream} (inv : t.Inv) (here : t.st = some st)
    (listed : t.listed = true) (unfailed : st.err = none) :
    Track.counted t.progress = t.progress.held + t.progress.pre := by
  have kept : t.progress.missed = false := by
    by_contra missed
    exact inv.placed.missed (by simpa using missed) st here ⟨listed, unfailed⟩
  cases at_ : t.progress with
  | away | control => rfl
  | checked live =>
      rw [at_] at kept
      cases live <;> first | rfl | cases kept
  | receiving got discard | stuck got discard =>
      rw [at_] at kept
      cases discard <;> first | rfl | cases kept

theorem Session.Follows.balance (forth : a.Follows b) (back : b.Follows a)
    (sender : (a.track k).Inv) (receiver : (b.track k).Inv) (wired : b.Wired)
    (valid : ∀ f ∈ a.emitted, f.Valid) {st peer : Stream} (origin : a.Live k st)
    (target : b.Live k peer) :
    st.sendCredit + dataCount (a.unchecked b k) + b.blocks k peer + peer.refund +
      creditSum (b.returning a k) = windowBlocks := by
  have sent := (sender.send.2 st origin.here).whole
    ⟨(trackWith_listed _ _ _ _).mpr origin.listed, origin.unfailed⟩
  have granted := (receiver.grant.2 peer target.here).whole
    ⟨⟨(trackWith_listed _ _ _ _).mpr target.listed, target.unfailed⟩, .inr target.alive⟩
  have onWay := forth.unchecked wired valid k
  have coming := back.returning k
  have once := counted_live receiver target.here
    ((trackWith_listed _ _ _ _).mpr target.listed) target.unfailed
  have progress : (b.track k).progress = b.reader.progress k := rfl
  rw [Session.blocks, ← progress]
  omega

theorem Session.Follows.conserved (forth : a.Follows b) (back : b.Follows a)
    (sender : (a.track k).Inv) (receiver : (b.track k).Inv) (wiredSender : a.Wired)
    (wired : b.Wired) (valid : ∀ f ∈ a.emitted, f.Valid)
    (validBack : ∀ f ∈ b.emitted, f.Valid) (shape : b.shape.Valid) : Conserved a b k := by
  have link := Track.linked_of_follows forth wired valid k
  have linkBack := Track.linked_of_follows back wiredSender validBack k
  constructor
  case balance =>
    intro st peer origin target
    exact forth.balance back sender receiver wired valid origin target
  case window =>
    intro peer target
    have shared := (receiver.window peer target.here target.unclosed).1
    have progress : (b.track k).progress = b.reader.progress k := rfl
    rw [Session.blocks, ← progress]
    omega
  case sendCredit =>
    intro st here
    have spent := sender.send.2 st here
    exact ⟨spent.low, spent.high⟩
  case recvCredit =>
    intro peer here unclosed
    have shared := receiver.window peer here unclosed
    have counted := pre_nonneg (b.track k).progress
    omega
  case accepted =>
    intro hd live p st position credit own whole found
    subst own
    rcases back.next wiredSender validBack (by rw [position]; rfl) with
      ⟨f, rest, split_, header, got⟩
    have id : f.id = hd.id := congrArg Header.id header
    have kind : f.kind = .credit := (congrArg Header.kind header).trans credit
    have payload : f.payload = p := by
      have size : f.payload.length = hd.length := congrArg Header.length header
      exact (got.eq_of_length (by omega)).symm
    have next := Track.next_of_emitted split_
    rw [id] at next
    have fits := link.credit_fits sender receiver found.2.2.1 kind next
    simp only [Frame.amount, payload] at fits
    simp only [Session.Objects, not_or, not_lt]
    exact fits
  case coalesced =>
    intro peer n draw here alive past
    rcases Session.drain_overflow shape alive past with ⟨t, moves, overflow⟩
    have kept := moves.invariant (P := Track.Inv)
      (fun _ _ _ _ move => Track.inv_move move) receiver
    exact link.not_overflows linkBack sender moves kept overflow
  case unread =>
    intro peer here
    cases closed : peer.closed with
    | true =>
        have empty := ((receiver.flags peer here).shut closed).2
        simp [Stream.unread, empty, windowBlocks]
    | false =>
        have shared := receiver.window peer here closed
        have counted := pre_nonneg (b.track k).progress
        omega

end Conserved

/--
In every run of a client and a server session, each direction of each stream
conserves its credit.
-/
theorem Pair.credit_conserved {pair : Pair} (reached : Pair.machine.Reachable pair) (k : Nat) :
    Conserved pair.left pair.right k ∧ Conserved pair.right pair.left k := by
  have free : Pair.machine.ReachableBy
      (Endpoint.bothSides (fun _ _ => True) fun _ _ => True) pair :=
    reached.mono fun _ action _ => by cases action <;> trivial
  have client := Pair.client_reached free
  have server := Pair.server_reached free
  have both := Pair.follows free
  exact ⟨both.1.conserved both.2 (Session.reachable_inv client k)
      (Session.reachable_inv server k) (Session.reachable_wired client)
      (Session.reachable_wired server) (fun _ => Session.emitted_valid client)
      (fun _ => Session.emitted_valid server) (Session.reachable_sound server).shape,
    both.2.conserved both.1 (Session.reachable_inv server k)
      (Session.reachable_inv client k) (Session.reachable_wired server)
      (Session.reachable_wired client) (fun _ => Session.emitted_valid server)
      (fun _ => Session.emitted_valid client) (Session.reachable_sound client).shape⟩

theorem Pair.credit_conserved_firstByte : ∃ pair,
    Pair.machine.run Pair.new firstByte = some pair ∧
      (pair.left.objs 1).map Stream.sendCredit = some 255 ∧
      (pair.right.objs 1).map (fun st => (st.recvCredit, st.unread.length)) = some (255, 1) ∧
      Conserved pair.left pair.right 1 := by
  have both : (Pair.machine.run Pair.new firstByte).map (fun pair =>
      ((pair.left.objs 1).map Stream.sendCredit,
        (pair.right.objs 1).map fun st => (st.recvCredit, st.unread.length))) =
      some (some 255, some (255, 1)) := by
    decide +kernel
  rcases Option.map_eq_some_iff.mp both with ⟨pair, ran, same⟩
  have reached := Machine.run_reachable (.start Pair.start_new) ran
  exact ⟨pair, ran, congrArg Prod.fst same, congrArg Prod.snd same,
    (Pair.credit_conserved reached 1).1⟩

end Veil.Mux

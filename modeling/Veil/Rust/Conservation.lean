import Veil.Rust.Credit
import Veil.Rust.Pair

/-!
# Credit is conserved between two Rust sessions

The credit a receiver allows is held by the sender, used up by DATA on its way,
or returned by CREDIT on its way; blocks held and blocks consumed make up the
rest of the window.  A receiver raises its counter before it queues the CREDIT,
so the bound of a coalesced CREDIT does not follow from one session alone: what
has been checked must have been sent within the credit that has already left.
-/

namespace Veil.Rust

open Veil.Lib
open Veil.Mux (Byte Kind Header Frame headerSize encodeAll Feeds dataCount creditSum
  dataCount_append creditSum_append dataCount_nonneg creditSum_nonneg dataCount_data
  dataCount_other creditSum_credit)

namespace Track

/-- Everything about the credit of a track. -/
structure Counted (t : Track) : Prop where
  placed : t.Placed
  window : t.WindowOk
  grant : t.GrantOk

theorem counted_move {event : Event} {t t' : Track} (move : Move event t t')
    (fits : event ≠ .overflow) (held : t.Counted) : t'.Counted :=
  ⟨placed_move move held.placed, windowOk_move move held.window,
    grantOk_move move fits held.placed held.window held.grant⟩

/-- The peer has sent no more than it was granted by frames that have left. -/
def Fair (t : Track) : Prop := t.checked ≤ window + creditSum t.out

theorem Linked.checked_le {out : List Frame} {b : Track} (link : Linked out b) :
    b.checked ≤ dataCount out := by
  cases at_ : b.progress with
  | away | control =>
      rcases link.frames with ⟨rest, split_⟩
      have more := dataCount_nonneg rest
      rw [checked, at_, ← split_, dataCount_append]
      simp only [Progress.counted]
      omega
  | receiving got =>
      rcases link.current got at_ with ⟨f, data, ⟨rest, split_⟩, -⟩
      have more := dataCount_nonneg rest
      rw [checked, at_, ← split_, dataCount_append, dataCount_append, dataCount_data data]
      simp only [Progress.counted]
      omega

theorem Linked.credit_le {out : List Frame} {a : Track} (link : Linked out a) :
    creditSum a.inn ≤ creditSum out := by
  rcases link.frames with ⟨rest, split_⟩
  have more := creditSum_nonneg rest
  rw [← split_, creditSum_append]
  omega

theorem Linked.fair {a b : Track} (link : Linked a.out b) (back : Linked b.out a)
    (sender : a.SendOk) : b.Fair := by
  have sent := link.checked_le
  have returned := back.credit_le
  have bound := sender.bound
  rw [Fair]
  omega

/-- The CREDIT in the queue is credit the peer has not used. -/
theorem Fair.queued_le {t : Track} (fair : t.Fair) (counted : t.Counted) {st : Slot}
    (here : t.slot = some st) (unfailed : st.check = none) :
    creditSum t.queue ≤ st.recvCredit := by
  have bound := (counted.grant.repaid st here).bound unfailed
  rw [Fair] at fair
  rw [granted] at bound
  omega

/-- What a slot has consumed and a queued CREDIT fit the window together. -/
theorem Fair.merge_fits {t : Track} (fair : t.Fair) (counted : t.Counted) {st : Slot}
    (here : t.slot = some st) (unfailed : st.check = none) (n : Nat) {c : Frame}
    (queued : c ∈ t.queue) (kind : c.kind = .credit) :
    c.amount + (st.drained n).consumed ≤ window := by
  have inside := Slot.shared_drained (counted.window st here unfailed) n
  have same : (st.drained n).recvCredit = st.recvCredit := rfl
  have amount := amount_le_creditSum queued kind
  have unused := fair.queued_le counted here unfailed
  rw [Slot.Shared, same] at inside
  omega

/-- A CREDIT that follows what has been read fits the sender's window. -/
theorem Linked.credit_fits {a b : Track} (link : Linked a.out b) (sender : a.SendOk)
    (receiver : b.Counted) {st : Slot} (here : a.slot = some st) (live : st.live = true)
    {f : Frame} (kind : f.kind = .credit) (next : a.inn ++ [f] <+: b.out) :
    0 < f.amount ∧ f.amount + st.sendCredit ≤ window := by
  have sent := link.checked_le
  have total := receiver.grant.total
  have whole := (sender.spent st here).whole live
  have queued := creditSum_nonneg b.queue
  rcases next with ⟨rest, split_⟩
  have member : f ∈ b.out := by simp [← split_]
  have more := creditSum_nonneg rest
  rw [granted, ← split_, creditSum_append, creditSum_append, creditSum_credit kind] at total
  exact ⟨(receiver.grant.sent f member kind).1, by omega⟩

end Track

namespace Session

/-- While the peers are fair, no CREDIT exceeds the window with a queued one. -/
theorem not_overflows {s : Session} (counted : ∀ k, (s.track k).Counted)
    (fair : ∀ k, (s.track k).Fair) : ¬ s.overflows := by
  rintro ⟨k, st, n, here, unfailed, -, c, queued, own, kind, past⟩
  have member : c ∈ (s.track k).queue := List.mem_filter.mpr ⟨queued, by simpa using own⟩
  have fits := (fair k).merge_fits (counted k) here unfailed n member kind
  have inside := Slot.shared_drained ((counted k).window st here unfailed) n
  rw [Slot.creditFrame_amount inside k, u16Add_eq (by simp only [window] at fits; omega)] at past
  omega

theorem step_counted {s s' : Session} {action : Action} (sound : s.Sound)
    (taken : s.step action = some s') (counted : ∀ k, (s.track k).Counted)
    (fair : ∀ k, (s.track k).Fair) (k : Nat) : (s'.track k).Counted := by
  refine (step_moves sound taken k).invariant (fun event t t' occurs move held => ?_) (counted k)
  refine Track.counted_move move ?_ held
  rintro rfl
  exact not_overflows counted fair occurs

theorem start_counted {server : Bool} {s : Session} (initial : (machine server).start s)
    (k : Nat) : (s.track k).Counted := by
  rcases initial with ⟨traffic, draw, preamble, valid, rfl⟩
  refine ⟨⟨fun _ => ⟨rfl, rfl, rfl, rfl, rfl, rfl⟩, ?_, ?_, ?_⟩, ?_, le_rfl, ?_, ?_, ?_⟩ <;>
    simp [track, start, Track.WindowOk]

section Reached

variable {server : Bool} {ok : Session → Action → Prop} {s : Session}
  (reached : (machine server).ReachableBy ok s)
include reached

theorem reachable_sendOk (k : Nat) : (s.track k).Placed ∧ (s.track k).SendOk := by
  refine reachable_track reached (A := fun _ => True)
    (P := fun t => t.Placed ∧ t.SendOk) (fun _ _ _ _ _ => trivial) (fun t fresh _ => ?_)
    (fun _ _ _ _ move held =>
      ⟨Track.placed_move move held.1, Track.sendOk_move move held.1 held.2⟩) k
  refine ⟨⟨fun _ => fresh.toBlank, fun found => (found fresh.slot).elim, ?_, ?_⟩, ?_, ?_, ?_⟩ <;>
    simp [fresh.queue, fresh.out, fresh.inn, fresh.slot]

end Reached

end Session

namespace Pair

/-- Every track on both sides keeps its counts, in every run. -/
theorem reachable_counted {pair : Pair} (reached : machine.Reachable pair) (k : Nat) :
    (pair.left.track k).Counted ∧ (pair.right.track k).Counted := by
  refine reached.invariant (P := fun pair : Pair => ∀ k,
    (pair.left.track k).Counted ∧ (pair.right.track k).Counted) ?_ ?_ k
  · rintro pair ⟨client, server, -, -⟩ k
    exact ⟨Session.start_counted client k, Session.start_counted server k⟩
  · intro pair action next before held _ moved k
    have free : machine.ReachableBy
        (Endpoint.bothSides (fun _ _ => True) fun _ _ => True) pair :=
      before.mono fun _ action _ => by cases action <;> trivial
    have client := client_reached free
    have server := server_reached free
    rcases Endpoint.join_step_cases moved with
      ⟨own, after, incoming, outgoing, rfl, stepped, -, rfl⟩ |
      ⟨own, after, incoming, outgoing, rfl, stepped, -, rfl⟩
    · refine ⟨Session.step_counted (Session.reachable_wired client).2 stepped
        (fun k => (held k).1) (fun k => ?_) k, (held k).2⟩
      exact (linked free k).2.fair (linked free k).1 (Session.reachable_sendOk server k).2
    · refine ⟨(held k).1, Session.step_counted (Session.reachable_wired server).2 stepped
        (fun k => (held k).2) (fun k => ?_) k⟩
      exact (linked free k).1.fair (linked free k).2 (Session.reachable_sendOk client k).2

end Pair

/-! ## The balance -/

namespace Session

/-- How many frames the header check has passed, the one being read included. -/
def checkedCount (s : Session) : Nat :=
  s.processed.length + if s.reader.frame?.isSome then 1 else 0

/-- The frames of a stream emitted and not yet checked by the peer. -/
def unchecked (sender receiver : Session) (k : Nat) : List Frame :=
  (sender.emitted.drop receiver.checkedCount).filter (·.id = k)

/-- The frames of a stream queued, or on their way and not yet processed by the peer. -/
def returning (receiver sender : Session) (k : Nat) : List Frame :=
  (receiver.emitted.drop sender.processed.length).filter (·.id = k) ++
    receiver.controls.filter (·.id = k)

variable {a b : Session}

/-- What is being read counts as one DATA frame of its stream, or as none. -/
theorem counted_reading (sound : b.Sound) {hd : Header} {got : List Byte}
    (position : b.reader.frame? = some (hd, got)) {f : Frame} (header : f.header = hd) (k : Nat) :
    dataCount ([f].filter (·.id = k)) = (b.reader.progress k).counted := by
  have framed := sound.framed
  cases reader : b.reader with
  | header h =>
      rw [reader] at position
      cases position
  | payload hd' p =>
      rw [reader] at position framed
      cases position
      have other : f.kind ≠ .data := by
        rw [show f.kind = hd.kind from congrArg Header.kind header]
        exact framed.2.1
      have away : ((Reader.payload hd got).progress k).counted = 0 := by
        simp only [Reader.progress]
        split <;> rfl
      rw [away]
      by_cases own : f.id = k
      · simp [own, dataCount_other other]
      · simp [own]
  | data hd' got' =>
      rw [reader] at position framed
      cases position
      have kind : f.kind = .data := (congrArg Header.kind header).trans framed.2.1
      have same : f.id = hd.id := congrArg Header.id header
      by_cases own : f.id = k
      · have receiving : (Reader.data hd got).progress k = .receiving got :=
          if_pos (same.symm.trans own)
        simp [own, dataCount_data kind, receiving, Progress.counted]
      · have away : (Reader.data hd got).progress k = .away :=
          Reader.progress_data_other (same ▸ own) got
        simp [own, away, Progress.counted]

/-- The DATA frames the peer has not checked are the rest of those sent. -/
theorem unchecked_count (feeds : Feeds a.emitted b.processed b.reader.pending)
    (valid : ∀ f ∈ a.emitted, f.Valid) (sound : b.Sound) (k : Nat) :
    dataCount (a.track k).out = (b.track k).checked + dataCount (a.unchecked b k) := by
  have inner : (b.track k).inn = b.processed.filter (·.id = k) := rfl
  have outer : (a.track k).out = a.emitted.filter (·.id = k) := rfl
  rw [Track.checked, track_progress]
  cases position : b.reader.frame? with
  | none =>
      have outside : (b.reader.progress k).counted = 0 := by
        cases reader : b.reader with
        | header h => rfl
        | payload | data =>
            rw [reader] at position
            cases position
      rcases feeds.isPrefix with ⟨rest, split_⟩
      simp [unchecked, checkedCount, position, inner, outer, ← split_, outside]
  | some frame =>
      rcases frame with ⟨hd, got⟩
      rcases feeds_next feeds valid sound position with ⟨f, rest, split_, header, -⟩
      have counted := counted_reading sound position header k
      have drop : (b.processed ++ f :: rest).drop (b.processed.length + 1) = rest := by
        simp
      have pieces : (b.processed ++ f :: rest).filter (·.id = k) =
          b.processed.filter (·.id = k) ++ ([f].filter (·.id = k) ++ rest.filter (·.id = k)) := by
        rw [← List.filter_append, ← List.filter_append]
        rfl
      rw [unchecked, checkedCount, position, inner, outer, split_, pieces,
        dataCount_append, dataCount_append, counted]
      simp only [Option.isSome_some, if_true, drop]
      omega

/-- The CREDIT on its way back is the rest of what has been granted. -/
theorem returning_sum {pending : List Byte} (feeds : Feeds b.emitted a.processed pending)
    (k : Nat) :
    (b.track k).granted = creditSum (a.track k).inn + creditSum (b.returning a k) := by
  rcases feeds.isPrefix with ⟨rest, split_⟩
  have outer : (b.track k).out = (a.track k).inn ++ rest.filter (·.id = k) := by
    simp [track, ← split_]
  have queue : (b.track k).queue = b.controls.filter (·.id = k) := rfl
  rw [Track.granted, outer, queue, returning, ← split_, List.drop_left,
    creditSum_append, creditSum_append]
  omega

end Session

/-- One direction of one stream: the window is shared out and no sum exceeds it. -/
structure Conserved (sender receiver : Session) (k : Nat) : Prop where
  /-- Credit, blocks consumed and blocks held make up the receiver's window. -/
  window : ∀ peer, receiver.slots k = some peer → peer.check = none →
    peer.recvCredit + peer.consumed + peer.input.length = window
  /-- Unless a control frame was refused, the counters agree up to what is on its way. -/
  balance : sender.full = false → receiver.full = false → ∀ st peer,
    sender.slots k = some st → st.live = true →
    receiver.slots k = some peer → peer.live = true →
    peer.recvCredit = st.sendCredit + dataCount (sender.unchecked receiver k) +
      creditSum (receiver.returning sender k)
  /-- `WINDOW - send_credit` does not underflow. -/
  sendCredit : ∀ st, sender.slots k = some st → st.sendCredit ≤ Rust.window
  /-- A CREDIT of the receiver is never rejected, and `send_credit += k` is exact. -/
  accepted : ∀ hd p st, sender.reader = .payload hd p → hd.kind = .credit → hd.id = k →
    p.length = hd.length → sender.slots k = some st → st.live = true →
    st.sendCredit + fromBigEndian p ≤ Rust.window ∧
      sender.deliver st .credit p = .ok { st with sendCredit := st.sendCredit + fromBigEndian p }
  /-- While blocks are read, `consumed += 1` and `recv_credit += amount` are exact. -/
  reading : ∀ peer n, receiver.slots k = some peer → peer.check = none →
    (peer.drained n).consumed + (peer.drained n).input.length =
        peer.consumed + peer.input.length ∧
      peer.recvCredit + (peer.drained n).consumed ≤ Rust.window
  /-- The sum of a queued CREDIT and a new one stays within the window. -/
  coalesced : ∀ peer n c, receiver.slots k = some peer → peer.check = none →
    c ∈ receiver.controls → c.id = k → c.kind = .credit →
    c.amount + (peer.drained n).consumed ≤ Rust.window
  /-- The error branch of the coalescing is never taken. -/
  merged : ∀ peer n e, receiver.slots k = some peer → peer.check = none →
    Session.coalesce k (bigEndian 2 (peer.drained n).consumed) receiver.controls ≠
      some (.error e)

section Conserved

variable {a b : Session} {k : Nat}

theorem Session.deliver_credit (s : Session) {st : Slot} {p : List Byte}
    (some_ : 0 < fromBigEndian p) (fits : fromBigEndian p + st.sendCredit ≤ window) :
    s.deliver st .credit p = .ok { st with sendCredit := st.sendCredit + fromBigEndian p } := by
  have room := u16Sub_eq (a := window) (b := st.sendCredit) (by omega) (by decide)
  have sum : u16Add st.sendCredit (fromBigEndian p) = st.sendCredit + fromBigEndian p :=
    u16Add_eq (by
      simp only [window] at fits
      omega)
  simp only [Session.deliver, room, sum]
  rw [if_neg]
  omega

theorem conserved (forth : Feeds a.emitted b.processed b.reader.pending)
    (back : Feeds b.emitted a.processed a.reader.pending)
    (validForth : ∀ f ∈ a.emitted, f.Valid) (validBack : ∀ f ∈ b.emitted, f.Valid)
    (soundA : a.Sound) (soundB : b.Sound) (sender : (a.track k).SendOk)
    (receiver : (b.track k).Counted) : Conserved a b k := by
  have link := Track.linked_of_feeds forth validForth soundB k
  have linkBack := Track.linked_of_feeds back validBack soundA k
  have fair : (b.track k).Fair := Track.Linked.fair link linkBack sender
  constructor
  case window => exact receiver.window
  case balance =>
    intro unrefused unrefusedB st peer origin live target liveB
    have sent := (sender.spent st origin).whole live
    have granted := (receiver.grant.repaid peer target).whole liveB unrefusedB
    have onWay := Session.unchecked_count forth validForth soundB k
    have coming := Session.returning_sum back k
    omega
  case sendCredit => exact fun st here => (sender.spent st here).high
  case accepted =>
    intro hd p st position credit own whole here live
    subst own
    rcases Session.feeds_next back validBack soundA (by rw [position]; rfl) with
      ⟨f, rest, split_, header, got⟩
    have id : f.id = hd.id := congrArg Header.id header
    have kind : f.kind = .credit := (congrArg Header.kind header).trans credit
    have payload : f.payload = p := by
      have size : f.payload.length = hd.length := congrArg Header.length header
      exact (got.eq_of_length (by omega)).symm
    have next := Feeds.next_own split_
    rw [id] at next
    have fits := Track.Linked.credit_fits link sender receiver here live kind next
    rw [Frame.amount, payload] at fits
    exact ⟨by omega, a.deliver_credit fits.1 fits.2⟩
  case reading =>
    intro peer n here unfailed
    have shared := receiver.window peer here unfailed
    have inside := Slot.shared_drained shared n
    have same : (peer.drained n).recvCredit = peer.recvCredit := rfl
    simp only [Slot.Shared] at shared inside
    omega
  case coalesced =>
    intro peer n c here unfailed queued own kind
    exact fair.merge_fits receiver here unfailed n
      (List.mem_filter.mpr ⟨queued, by simpa using own⟩) kind
  case merged =>
    intro peer n e here unfailed refused
    rcases Session.coalesce_cases k (bigEndian 2 (peer.drained n).consumed) b.controls with
      ⟨missing, -⟩ | ⟨before, c, after, split_, kind, own, ⟨past, -⟩ | ⟨-, merged⟩⟩
    · cases missing.symm.trans refused
    · have queued : c ∈ b.controls := by simp [split_]
      have fits := fair.merge_fits receiver here unfailed n
        (List.mem_filter.mpr ⟨queued, by simpa using own⟩) kind
      have inside := Slot.shared_drained (receiver.window peer here unfailed) n
      have amount := Slot.creditFrame_amount inside k
      rw [Slot.creditFrame, Frame.amount] at amount
      simp only at amount
      rw [amount, u16Add_eq (by simp only [Rust.window] at fits; omega)] at past
      omega
    · cases merged.symm.trans refused

end Conserved

/--
In every run of a client and a server session of the Rust implementation, each
direction of each stream conserves its credit.
-/
theorem Pair.window_conserved {pair : Pair} (reached : Pair.machine.Reachable pair) (k : Nat) :
    Conserved pair.left pair.right k ∧ Conserved pair.right pair.left k := by
  have free : Pair.machine.ReachableBy
      (Endpoint.bothSides (fun _ _ => True) fun _ _ => True) pair :=
    reached.mono fun _ action _ => by cases action <;> trivial
  have client := Pair.client_reached free
  have server := Pair.server_reached free
  have both := Pair.feeds free
  have counted := Pair.reachable_counted reached k
  exact ⟨conserved both.1 both.2 (fun _ => Session.emitted_valid client)
      (fun _ => Session.emitted_valid server) (Session.reachable_wired client).2
      (Session.reachable_wired server).2 (Session.reachable_sendOk client k).2 counted.2,
    conserved both.2 both.1 (fun _ => Session.emitted_valid server)
      (fun _ => Session.emitted_valid client) (Session.reachable_wired server).2
      (Session.reachable_wired client).2 (Session.reachable_sendOk server k).2 counted.1⟩

/-- The client writes two bytes, of which the server has read the first. -/
def firstByte : List (Session.Action ⊕ Session.Action) :=
  Session.opening ++ .inl (.pollWrite 1 [5, 6]) :: ((Session.writesOut 10).map .inl ++
    [.inr (.recv (Header.bytes ⟨.data, 1, 2⟩)), .inr .check, .inr (.recv [5]),
      .inr (.pollRead 1 4)])

theorem Pair.window_conserved_firstByte : ∃ pair,
    Pair.machine.run Pair.new firstByte = some pair ∧
      (pair.left.slots 1).map Slot.sendCredit = some 255 ∧
      (pair.right.slots 1).map (fun st => (st.recvCredit, st.input.length)) = some (255, 1) ∧
      Conserved pair.left pair.right 1 := by
  have both : (Pair.machine.run Pair.new firstByte).map (fun pair =>
      ((pair.left.slots 1).map Slot.sendCredit,
        (pair.right.slots 1).map fun st => (st.recvCredit, st.input.length))) =
      some (some 255, some (255, 1)) := by
    decide +kernel
  rcases Option.map_eq_some_iff.mp both with ⟨pair, ran, same⟩
  have reached := Machine.run_reachable (.start Pair.start_new) ran
  exact ⟨pair, ran, congrArg Prod.fst same, congrArg Prod.snd same,
    (Pair.window_conserved reached 1).1⟩

end Veil.Rust

import Veil.Rust.Roles

/-!
# The requests of a session

OPEN and RESET are the frames by which a client opens streams and gives them up.
A step appends to them, drops those that have not been sent, or leaves them
alone.  Only `reserve` and an OPEN that is read raise `high`, and only an OPEN
adds to the channel of the accept loop.
-/

namespace Veil.Rust

open Veil.Lib
open Veil.Mux (Byte Kind Header Frame headerSize blockSize maxStreams)

/-- A frame by which a client opens a stream or gives it up. -/
def asks (f : Frame) : Bool := f.kind == .open || f.kind == .reset

namespace Session

/-- The frames sent that open streams or give them up. -/
def asked (s : Session) : List Frame := s.emitted.filter asks

/-- These frames and those still in the queue, in order. -/
def requests (s : Session) : List Frame := s.asked ++ s.controls.filter asks

/-- What one step does to the requests of a session. -/
inductive Asks (s s' : Session) : Prop where
  | resets (tail : List Frame) (all : ∀ f ∈ tail, f.kind = .reset)
      (same : s'.requests = s.requests ++ tail) (kept : s.ended ≠ none → s'.asked = s.asked)
  | opens (p : List Byte) (room : s.active < maxStreams) (alive : s.failure = none)
      (same : s'.requests = s.requests ++ [⟨.open, s.nextID, p⟩]) (kept : s'.asked = s.asked)
  | fails (dropped : s'.requests = s.asked) (kept : s'.asked = s.asked)

/-- A step that leaves `high` and the channel of the accept loop alone. -/
structure Asking (s s' : Session) : Prop where
  asks : Asks s s'
  incoming : s'.incoming = s.incoming
  high : s'.high = s.high

theorem Asks.still {s s' : Session} (emitted : s'.emitted = s.emitted)
    (controls : s'.controls = s.controls) : Asks s s' := by
  refine .resets [] (by simp) ?_ fun _ => ?_
  · rw [requests, requests, asked, asked, emitted, controls, List.append_nil]
  · rw [asked, asked, emitted]

/-- A later change that leaves the requests alone. -/
theorem Asks.after {s s' t : Session} (asks : Asks s s') (requests : t.requests = s'.requests)
    (sent : t.asked = s'.asked) : Asks s t := by
  cases asks with
  | resets tail all same kept =>
      exact .resets tail all (requests.trans same) fun ended => sent.trans (kept ended)
  | opens p room alive same kept =>
      exact .opens p room alive (requests.trans same) (sent.trans kept)
  | fails dropped kept => exact .fails (requests.trans dropped) (sent.trans kept)

/-- An earlier change that leaves alone whatever requests depend on. -/
theorem Asks.before {s t s' : Session} (asks : Asks t s') (requests : t.requests = s.requests)
    (sent : t.asked = s.asked) (active : t.active = s.active) (high : t.high = s.high)
    (failure : t.failure = s.failure) (ended : t.ended = s.ended) : Asks s s' := by
  cases asks with
  | resets tail all same kept =>
      rw [requests] at same
      rw [sent, ended] at kept
      exact .resets tail all same kept
  | opens p room alive same kept =>
      rw [active] at room
      rw [failure] at alive
      rw [requests, nextID, high] at same
      rw [sent] at kept
      exact .opens p room alive same kept
  | fails dropped kept =>
      rw [sent] at dropped kept
      exact .fails dropped kept

theorem Asking.still {s s' : Session} (emitted : s'.emitted = s.emitted)
    (controls : s'.controls = s.controls) (incoming : s'.incoming = s.incoming)
    (high : s'.high = s.high) : Asking s s' :=
  ⟨.still emitted controls, incoming, high⟩

theorem Asking.refl (s : Session) : Asking s s := .still rfl rfl rfl rfl

/-- The queue takes a frame that asks for nothing, or a RESET. -/
theorem control_requests (s : Session) (kind : Kind) (other : kind ≠ .open) (id : Nat)
    (p : List Byte) : ∃ tail : List Frame, (∀ f ∈ tail, f.kind = .reset) ∧
      (s.control kind id p).1.requests = s.requests ++ tail ∧
      (s.control kind id p).1.asked = s.asked := by
  by_cases credit : kind = .credit
  · subst credit
    rcases control_credit s id p with outcome | ⟨-, outcome⟩ |
      ⟨before, c, after, split_, kind, -, ⟨-, outcome⟩ | ⟨-, outcome⟩⟩ <;> rw [outcome]
    · exact ⟨[], by simp, (List.append_nil _).symm, rfl⟩
    · exact ⟨[], by simp, by simp [requests, asked, queued, asks], rfl⟩
    · exact ⟨[], by simp, (List.append_nil _).symm, rfl⟩
    · refine ⟨[], by simp, ?_, rfl⟩
      simp [requests, asked, split_, asks, mergeCredit, kind]
  · rcases control_plain s kind credit id p with ⟨-, outcome⟩ | ⟨-, outcome⟩ <;> rw [outcome]
    · exact ⟨[], by simp, (List.append_nil _).symm, rfl⟩
    · by_cases reset : kind = .reset
      · subst reset
        exact ⟨[⟨.reset, id, p⟩], by simp, by simp [requests, asked, queued, asks], rfl⟩
      · refine ⟨[], by simp, ?_, rfl⟩
        simp [requests, asked, queued, asks, other, reset]

theorem control_incoming (s : Session) (kind : Kind) (id : Nat) (p : List Byte) :
    (s.control kind id p).1.incoming = s.incoming ∧ (s.control kind id p).1.high = s.high := by
  unfold control
  split
  · exact ⟨rfl, rfl⟩
  · exact ⟨rfl, rfl⟩
  · split <;> exact ⟨rfl, rfl⟩

theorem control_asking {s t : Session} (still : Asking s t) (emitted : t.emitted = s.emitted)
    (controls : t.controls = s.controls) {kind : Kind} (other : kind ≠ .open) (id : Nat)
    (p : List Byte) : Asking s (t.control kind id p).1 := by
  rcases t.control_requests kind other id p with ⟨tail, all, same, kept⟩
  have before : t.requests = s.requests := by
    rw [requests, requests, asked, asked, emitted, controls]
  have sent : t.asked = s.asked := by rw [asked, asked, emitted]
  have others := t.control_incoming kind id p
  exact ⟨.resets tail all (same.trans (by rw [before])) fun _ => kept.trans sent,
    others.1.trans still.incoming, others.2.trans still.high⟩

theorem set_asking (s : Session) (k : Nat) (st : Slot) : Asking s (s.set k st) :=
  .still rfl rfl rfl rfl

theorem reserve_asks {s : Session} (sound : s.Sound) (target : Target) (draw : Nat) :
    Asks s (s.reserve target draw).1 ∧ (s.reserve target draw).1.incoming = s.incoming ∧
      s.high ≤ (s.reserve target draw).1.high := by
  unfold reserve
  split
  · exact ⟨.still rfl rfl, rfl, le_rfl⟩
  next usable =>
  split
  · exact ⟨.still rfl rfl, rfl, le_rfl⟩
  next room =>
  rw [Bool.or_eq_true, not_or, Bool.not_eq_true, Bool.not_eq_true,
    Option.isSome_eq_false_iff, Option.isNone_iff_eq_none] at usable
  rw [not_or, not_le] at room
  rcases control_plain s .open (by simp) s.nextID target.payload with
    ⟨-, outcome⟩ | ⟨-, outcome⟩ <;> rw [outcome]
  · exact ⟨.still rfl rfl, rfl, le_rfl⟩
  · refine ⟨.opens target.payload room.1 usable.2 ?_ rfl, rfl, ?_⟩
    · simp [requests, asked, queued, asks, insert, raise, set]
    · exact (s.nextID_facts sound.odd).2.le

theorem accept_asking {s : Session} {k : Nat} {r : Session × Option ErrorKind}
    (taken : s.accept k = some r) : Asking s r.1 := by
  unfold accept at taken
  split at taken
  · cases taken
  split at taken
  · cases taken
    exact .refl s
  split at taken <;> cases taken
  · exact .refl s
  · exact control_asking (set_asking s k _) rfl rfl Kind.noConfusion k []

theorem reject_asking {s : Session} {k : Nat} {code : Byte} {r : Session × Option ErrorKind}
    (taken : s.reject k code = some r) : Asking s r.1 := by
  unfold reject at taken
  split at taken
  · cases taken
  split at taken <;> cases taken
  · exact .refl s
  · exact control_asking (set_asking s k _) rfl rfl Kind.noConfusion k [code]

theorem finish_asking {s : Session} {k : Nat} {r : Session × Option ErrorKind}
    (taken : s.finish k = some r) : Asking s r.1 := by
  unfold finish at taken
  split at taken
  · cases taken
  split at taken
  · split at taken
    · cases taken
      exact .refl s
    split at taken <;> cases taken
    · exact .refl s
    · exact control_asking (.refl s) rfl rfl Kind.noConfusion k []
  · cases taken
    exact .refl s

theorem drop_asking {s s' : Session} {k : Nat} (taken : s.drop k = some s') : Asking s s' := by
  unfold drop at taken
  split at taken
  · cases taken
  split at taken
  · have removed : Asking s (s.remove k) := .still rfl rfl rfl rfl
    have asking : Asking s ((s.remove k).control .reset k []).1 :=
      control_asking removed rfl rfl Kind.noConfusion k []
    split at taken <;> next outcome =>
      cases taken
      rw [outcome] at asking
      exact ⟨asking.asks.after rfl rfl, asking.incoming, asking.high⟩
  · cases taken
    exact .still rfl rfl rfl rfl

theorem pollRead_asking {s : Session} {k n : Nat} {r : Session × Poll}
    (taken : s.pollRead k n = some r) : Asking s r.1 := by
  unfold pollRead at taken
  split at taken
  · cases taken
  next st here =>
  split at taken
  · cases taken
    exact .refl s
  split at taken
  · cases taken
    exact .refl s
  simp only at taken
  split at taken
  · split at taken <;> next outcome =>
      cases taken
      rw [← congrArg Prod.fst outcome]
      exact control_asking (set_asking s k _) rfl rfl Kind.noConfusion k _
  · cases taken
    exact set_asking s k _

theorem pollWrite_asking {s : Session} {k : Nat} {buf : List Byte}
    {r : Session × Except ErrorKind (Option Nat)} (taken : s.pollWrite k buf = some r) :
    Asking s r.1 := by
  unfold pollWrite at taken
  split at taken
  · cases taken
  simp only at taken
  split_ifs at taken <;> (try split at taken) <;> cases taken
  all_goals first
    | exact .refl s
    | exact set_asking s k _

theorem pollShutdown_asking {s : Session} {k : Nat} {r : Session × Except ErrorKind Bool}
    (taken : s.pollShutdown k = some r) : Asking s r.1 := by
  unfold pollShutdown at taken
  split at taken
  · cases taken
  split at taken <;> cases taken
  · exact .refl s
  · exact set_asking s k _

theorem fail_asking (s : Session) (e : ErrorKind) : Asking s (s.fail e) := by
  unfold fail
  split
  · exact .refl s
  · exact ⟨.fails (by simp [requests, asked]) rfl, rfl, rfl⟩

/-! ## The read loop -/

theorem recv_asking {s s' : Session} {bs : List Byte} (taken : s.recv bs = some s') :
    Asking s s' := by
  unfold recv at taken
  split at taken
  · cases taken
  split at taken <;> split at taken <;> cases taken
  · exact .still rfl rfl rfl rfl
  · exact .still rfl rfl rfl rfl
  next hd got at_ _ =>
  unfold recvData
  rcases publish_cases (s.took bs) hd.id bs ((got ++ bs).length == hd.length) with
    ⟨-, outcome⟩ | ⟨st, -, -, ⟨-, outcome⟩ | ⟨c, -, outcome⟩⟩ <;> rw [outcome] <;> simp only
  · split_ifs <;> exact .still rfl rfl rfl rfl
  · exact .still rfl rfl rfl rfl
  · split_ifs <;> exact .still rfl rfl rfl rfl

theorem recvError_asking {s s' : Session} {e : Option ErrorKind}
    (taken : s.recvError e = some s') : Asking s s' := by
  unfold recvError at taken
  split at taken <;> cases taken
  exact .still rfl rfl rfl rfl

theorem check_asking {s s' : Session} (taken : s.check = some s') : Asking s s' := by
  unfold check at taken
  split at taken
  · split at taken
    · cases taken
    split at taken
    · cases taken
      exact .still rfl rfl rfl rfl
    · next checked =>
      cases taken
      rcases Option.bind_eq_some_iff.mp checked with ⟨hd, -, passed⟩
      unfold checkHeader at passed
      split_ifs at passed
      · split at passed
        · split_ifs at passed
          cases passed
          exact .still rfl rfl rfl rfl
        · cases passed
          exact .still rfl rfl rfl rfl
      · cases passed
        exact .still rfl rfl rfl rfl
  · cases taken

/-- The streams in the channel of the accept loop are distinct, and none is above `high`. -/
structure Lined (s : Session) : Prop where
  sorted : s.incoming.Pairwise (· < ·)
  below : ∀ k ∈ s.incoming, k ≤ s.high

theorem Lined.raise {s s' : Session} (lined : s.Lined) (incoming : s'.incoming = s.incoming)
    (high : s.high ≤ s'.high) : s'.Lined where
  sorted := by
    rw [incoming]
    exact lined.sorted
  below k member := by
    rw [incoming] at member
    exact (lined.below k member).trans high

theorem Asking.lined {s s' : Session} (asking : Asking s s') (lined : s.Lined) : s'.Lined :=
  lined.raise asking.incoming asking.high.ge

/-- The channel has lost its first stream. -/
theorem lined_tail {s s' : Session} (lined : s.Lined) (incoming : s'.incoming = s.incoming.tail)
    (high : s'.high = s.high) : s'.Lined where
  sorted := by
    rw [incoming]
    exact lined.sorted.sublist (List.tail_sublist _)
  below k member := by
    rw [incoming] at member
    rw [high]
    exact lined.below k (List.mem_of_mem_tail member)

theorem lined_offer {s s' : Session} {id : Nat} (lined : s.Lined) (new : s.high < id)
    (incoming : s'.incoming = s.incoming ++ [id]) (high : s'.high = id) : s'.Lined where
  sorted := by
    rw [incoming, List.pairwise_append]
    refine ⟨lined.sorted, by simp, fun k member j last => ?_⟩
    rw [List.mem_singleton.mp last]
    exact (lined.below k member).trans_lt new
  below k member := by
    rw [incoming] at member
    rw [high]
    rcases List.mem_append.mp member with old | last
    · exact (lined.below k old).trans new.le
    · exact (List.mem_singleton.mp last).le

theorem dispatch_asks {s s' : Session} {draw : Nat} (framed : s.reader.Framed s.server s.high)
    (fresh : ∀ hd p, s.reader = .payload hd p → hd.kind = .open → s.high < hd.id)
    (taken : s.dispatch draw = some s') :
    Asks s s' ∧ (s.Lined → s'.Lined) ∧ (s.server = false → s'.high = s.high) := by
  unfold dispatch at taken
  split at taken
  · next hd p at_ =>
    split at taken
    · cases taken
    by_cases open_ : hd.kind = .open
    · have new := fresh hd p at_ open_
      have raised : s.Lined → (s.raise hd.id).Lined := fun lined => lined.raise rfl new.le
      have client : s.server = true := by
        rw [at_] at framed
        exact framed.2.2.2.1 open_
      rcases takeEffect_open s open_ p draw with outcome | outcome | outcome | outcome <;>
        rw [outcome] at taken <;> cases taken
      · exact ⟨.still rfl rfl, fun lined => { raised lined with }, by simp [client]⟩
      · refine ⟨.resets [] (by simp) ?_ fun _ => rfl, fun lined => { raised lined with },
          by simp [client]⟩
        simp [requests, asked, accepted, queued, raise, asks]
      · exact ⟨.still rfl rfl, fun lined => { raised lined with }, by simp [client]⟩
      · exact ⟨.still rfl rfl, fun lined => lined_offer lined new rfl rfl, by simp [client]⟩
    · have asking : Asking s s' := by
        simp only [takeEffect, if_neg open_] at taken
        cases found : (s.slots hd.id).filter Slot.live with
        | none =>
            rw [found] at taken
            cases taken
            exact .still rfl rfl rfl rfl
        | some st =>
            rw [found] at taken
            cases delivered : s.deliver st hd.kind p with
            | error e =>
                simp only [delivered] at taken
                cases taken
                exact .still rfl rfl rfl rfl
            | ok st' =>
                simp only [delivered] at taken
                cases taken
                exact .still rfl rfl rfl rfl
      exact ⟨asking.asks, asking.lined, fun _ => asking.high⟩
  · cases taken

/-! ## The writer -/

/-- DATA and FIN ask for nothing. -/
theorem push_requests (s : Session) {f : Frame} (plain : asks f = false) (touch : List Touched) :
    (s.push f touch).requests = s.requests := by
  simp [requests, asked, push, plain]

theorem takeControls_requests (limit lead : Nat) (controls : List Frame) {s : Session}
    (queue : s.controls = controls) :
    (takeControls limit lead controls s).requests = s.requests := by
  induction controls generalizing s with
  | nil => simp [takeControls, requests, asked, leave, queue]
  | cons c rest induction =>
      have moved : ((s.leave rest).push c (controlTouch c)).requests = s.requests := by
        simp only [requests, asked, push, leave, queue, List.filter_append, List.append_assoc]
        rw [← List.filter_append]
        rfl
      simp only [takeControls]
      split_ifs
      · exact moved
      · exact (induction rfl).trans moved

theorem sendData_requests (k limit lead credit share : Nat) (s : Session) :
    (sendData k limit lead credit share s).1.requests = s.requests := by
  induction credit generalizing share s with
  | zero => rfl
  | succ credit induction =>
      rw [sendData]
      split
      · rfl
      split
      · rfl
      simp only
      split_ifs
      · rfl
      · exact (induction _ _).trans (push_requests (s.set k _) rfl _)

theorem sendFin_requests (s : Session) (k : Nat) : (s.sendFin k).1.requests = s.requests := by
  unfold sendFin
  split
  · rfl
  split_ifs
  · exact push_requests (s.set k _) rfl _
  · rfl

theorem turn_requests (limit lead share k : Nat) (s : Session) :
    (turn limit lead share k s).1.requests = s.requests := by
  unfold turn
  split
  · rfl
  split_ifs
  · rfl
  · exact (sendFin_requests _ k).trans (sendData_requests k limit lead _ share s)

theorem round_requests (limit lead : Nat) (share : Nat → Nat) (ids : List Nat) (progress : Bool)
    (s : Session) : (round limit lead share ids progress s).1.requests = s.requests := by
  induction ids generalizing progress s with
  | nil => rfl
  | cons k rest induction =>
      simp only [round]
      split_ifs
      · rfl
      · exact (induction _ _).trans (turn_requests _ _ _ _ s)

theorem rounds_requests (limit lead : Nat) (share : Nat → Nat) (ids : List Nat) (fuel : Nat)
    (s : Session) : (rounds limit lead share ids fuel s).requests = s.requests := by
  induction fuel generalizing s with
  | zero => rfl
  | succ fuel induction =>
      have one := round_requests limit lead share ids false s
      rw [rounds]
      split <;> next outcome =>
        rw [outcome] at one
        first
          | exact (induction _).trans one
          | exact one

/-- A batch moves requests from the queue to the frames sent, in order. -/
theorem assembled_requests (s : Session) (d : Draws) : (s.assembled d).requests = s.requests :=
  (rounds_requests _ _ _ _ _ _).trans
    (takeControls_requests (s.limit d) s.lead s.controls (s := s.shaped d) rfl)

theorem batch_asking {s s' : Session} {d : Draws} (running : s.ended = none)
    (taken : s.batch d = some s') : Asking s s' := by
  rcases (batch_cases taken).2 with rfl | ⟨e, -, rfl⟩ | ⟨alive, rfl⟩
  · exact .refl _
  · exact .still rfl rfl rfl rfl
  · have writes := (@assembled_moves (fun _ => True) trivial s d alive running).1
    refine ⟨.resets [] (by simp) ?_ (fun ended => (ended running).elim), writes.incoming,
      writes.high⟩
    exact (s.assembled_requests d).trans (List.append_nil _).symm

theorem written_asking {s s' : Session} {e : Option ErrorKind}
    (taken : s.written e = some s') : Asking s s' := by
  unfold written at taken
  split at taken
  · split at taken
    · split at taken <;> cases taken
      exact .still rfl rfl rfl rfl
    · split at taken <;> cases taken
      rw [markAll, foldl_mark]
      exact .still rfl rfl rfl rfl
  · cases taken

theorem watchdog_asking {s s' : Session} {expired : List Nat} {idle : Bool}
    (running : s.ended = none) (taken : s.watchdog expired idle = some s') : Asking s s' := by
  unfold watchdog at taken
  split at taken
  · cases taken
    exact .still rfl rfl rfl rfl
  · simp only at taken
    generalize (fun k => s.liveAt k && expired.contains k) = expires at taken
    have resetting_ : ∀ ks, ((s.expire expires).resetting ks).requests =
        s.requests ++ ks.map fun k => ⟨.reset, k, []⟩ := by
      intro ks
      have all : (ks.map fun k => (⟨.reset, k, []⟩ : Frame)).filter asks =
          ks.map fun k => ⟨.reset, k, []⟩ := by
        rw [List.filter_eq_self]
        intro f member
        rcases List.mem_map.mp member with ⟨k, -, rfl⟩
        rfl
      simp [requests, asked, resetting, expire, all]
    have resets : ∀ (ks : List Nat), ∀ f ∈ ks.map (fun k => (⟨.reset, k, []⟩ : Frame)),
        f.kind = .reset := by
      intro ks f member
      rcases List.mem_map.mp member with ⟨k, -, rfl⟩
      rfl
    rcases resetAll_cases (s.ids.filter expires) (s.expire expires) with
      outcome | ⟨early, j, late, -, outcome⟩ <;> rw [outcome] at taken <;> simp only at taken
    · split at taken <;> cases taken <;>
        exact ⟨.resets _ (resets _) (resetting_ _) fun ended => (ended running).elim, rfl, rfl⟩
    · cases taken
      exact ⟨.resets _ (resets _) (resetting_ _) fun ended => (ended running).elim, rfl, rfl⟩

/--
What every step does to the requests and to the channel of the accept loop.  On
a client, only `reserve` raises `high`.
-/
theorem step_asks {s s' : Session} {action : Action} (sound : s.Sound)
    (taken : s.step action = some s') : Asks s s' ∧ (s.Lined → s'.Lined) ∧
      (s.server = false → (∀ target draw, action ≠ .reserve target draw) →
        s'.high = s.high) := by
  have of_asking : Asking s s' → Asks s s' ∧ (s.Lined → s'.Lined) ∧
      (s.server = false → (∀ target draw, action ≠ .reserve target draw) →
        s'.high = s.high) :=
    fun asking => ⟨asking.asks, asking.lined, fun _ _ => asking.high⟩
  cases action with
  | reserve target draw =>
      cases taken
      rcases reserve_asks sound target draw with ⟨asks, incoming, high⟩
      exact ⟨asks, fun lined => lined.raise incoming high,
        fun _ other => (other target draw rfl).elim⟩
  | accept j =>
      rcases Option.map_eq_some_iff.mp (call_some taken) with ⟨r, accepted, rfl⟩
      exact of_asking (accept_asking accepted)
  | reject j code =>
      rcases Option.map_eq_some_iff.mp (call_some taken) with ⟨r, rejected, rfl⟩
      exact of_asking (reject_asking rejected)
  | finish j =>
      rcases Option.map_eq_some_iff.mp (call_some taken) with ⟨r, finished, rfl⟩
      exact of_asking (finish_asking finished)
  | drop j => exact of_asking (drop_asking (call_some taken))
  | pollRead j n =>
      rcases Option.map_eq_some_iff.mp (call_some taken) with ⟨r, polled, rfl⟩
      exact of_asking (pollRead_asking polled)
  | pollWrite j buf =>
      rcases Option.map_eq_some_iff.mp (call_some taken) with ⟨r, polled, rfl⟩
      exact of_asking (pollWrite_asking polled)
  | pollShutdown j =>
      rcases Option.map_eq_some_iff.mp (call_some taken) with ⟨r, polled, rfl⟩
      exact of_asking (pollShutdown_asking polled)
  | close =>
      cases taken
      exact of_asking (fail_asking s _)
  | incoming =>
      simp only [step] at taken
      split at taken <;> cases taken
      exact ⟨.still rfl rfl, fun lined => lined_tail lined rfl rfl, fun _ _ => rfl⟩
  | hangUp =>
      cases taken
      exact of_asking (.still rfl rfl rfl rfl)
  | dropIncoming =>
      simp only [step] at taken
      split at taken
      · next j rest hungUp queue =>
        have asking := drop_asking taken
        exact ⟨asking.asks.before rfl rfl rfl rfl rfl rfl,
          fun lined => asking.lined (lined_tail lined (by simp [queue]) rfl),
          fun _ _ => asking.high⟩
      · cases taken
  | fail i =>
      simp only [step] at taken
      split at taken <;> cases taken
      next e _ =>
      have asking := fail_asking { s with failing := s.failing.eraseIdx i } e
      exact ⟨asking.asks.before rfl rfl rfl rfl rfl rfl, fun lined => asking.lined { lined with },
        fun _ _ => asking.high⟩
  | failTask =>
      rcases Option.map_eq_some_iff.mp taken with ⟨e, -, rfl⟩
      exact of_asking (fail_asking s e)
  | recv bs => exact of_asking (recv_asking (task_some taken).2)
  | recvError e => exact of_asking (recvError_asking (task_some taken).2)
  | check => exact of_asking (check_asking (task_some taken).2)
  | dispatch draw =>
      have asked := dispatch_asks sound.framed (sound.fresh (task_some taken).1)
        (task_some taken).2
      exact ⟨asked.1, asked.2.1, fun client _ => asked.2.2 client⟩
  | batch draws => exact of_asking (batch_asking (task_some taken).1 (task_some taken).2)
  | send n =>
      have sent := (task_some taken).2
      unfold send at sent
      split at sent <;> cases sent
      exact of_asking (.still rfl rfl rfl rfl)
  | written e => exact of_asking (written_asking (task_some taken).2)
  | watchdog expired idle =>
      exact of_asking (watchdog_asking (task_some taken).1 (task_some taken).2)

end Session

end Veil.Rust

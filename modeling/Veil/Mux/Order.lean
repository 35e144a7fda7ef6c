import Veil.Mux.Failures

/-!
# OPEN frames come in order

A client numbers its streams upwards and its OPEN frames keep that order through
the control queue and the batches, so the server finds each of them above the
last one.
-/

namespace Veil.Mux

open Veil.Lib

namespace Session

/-- OPEN frames are queued and emitted in the order of their identifiers. -/
structure InOrder (s : Session) : Prop where
  increasing : (opens s.emitted ++ s.openings).Pairwise (· < ·)
  bound : ∀ id ∈ opens s.emitted ++ s.openings, id ≤ s.lastID
  last : s.server = true → s.reader.halted = false →
    s.lastID = 0 ∨ s.lastID ∈ opens s.processed

namespace InOrder

variable {s s' : Session}

/-- The OPEN frames are the same, and a larger identifier is taken. -/
theorem raise (held : s.InOrder) (all : opens s'.emitted ++ s'.openings =
      opens s.emitted ++ s.openings) (raised : s.lastID ≤ s'.lastID)
    (last : s'.server = true → s'.reader.halted = false →
      s'.lastID = 0 ∨ s'.lastID ∈ opens s'.processed) : s'.InOrder := by
  refine ⟨?_, ?_, last⟩
  · rw [all]
    exact held.increasing
  · rw [all]
    exact fun id member => (held.bound id member).trans raised

/-- The OPEN frames are the same, and no OPEN has been read. -/
theorem keep (held : s.InOrder) (all : opens s'.emitted ++ s'.openings =
      opens s.emitted ++ s.openings) (lastID : s'.lastID = s.lastID)
    (server : s'.server = s.server)
    (halted : s'.reader.halted = false → s.reader.halted = false)
    (processed : opens s'.processed = opens s.processed) : s'.InOrder := by
  refine held.raise all lastID.ge ?_
  rw [server, lastID, processed]
  exact fun isServer running => held.last isServer (halted running)

theorem of_kept (held : s.InOrder) (kept : Kept s s') : s'.InOrder := by
  refine held.keep ?_ kept.lastID kept.server ?_ (by rw [kept.processed])
  · rw [kept.emitted, kept.openings]
  · rcases kept.reader with same | ⟨k, same⟩
    · rw [same]
      exact id
    · rw [same]
      cases s.reader <;> exact id

end InOrder

theorem open_inOrder {s : Session} (held : s.InOrder) (metadata : List Byte) (draw : Nat) :
    (s.open metadata draw).1.InOrder := by
  have raised := s.lastID_lt_nextID
  rcases s.open_cases metadata draw with
    same | ⟨-, client, -, -, -, -, ⟨-, outcome⟩ | ⟨-, outcome⟩⟩
  · rwa [same]
  · rw [outcome]
    exact held.raise rfl raised.le fun server => by cases client.symm.trans server
  · rw [outcome]
    have added : ((s.allocated metadata draw).queued ⟨.open, s.nextID, metadata⟩
        .nobody).openings = s.openings ++ [s.nextID] := by
      simp [openings, queued, allocated, newStreamLocked, set, opens]
    have emitted : ((s.allocated metadata draw).queued ⟨.open, s.nextID, metadata⟩
        .nobody).emitted = s.emitted := rfl
    refine ⟨?_, ?_, ?_⟩
    · rw [added, emitted, ← List.append_assoc, List.pairwise_append]
      refine ⟨held.increasing, List.pairwise_singleton _ _, ?_⟩
      intro id member new isNew
      rw [List.mem_singleton.mp isNew]
      exact lt_of_le_of_lt (held.bound id member) raised
    · intro id member
      rw [added, emitted, ← List.append_assoc, List.mem_append, List.mem_singleton] at member
      rcases member with old | rfl
      · exact (held.bound id old).trans raised.le
      · exact le_rfl
    · intro server
      cases client.symm.trans server

theorem fail_inOrder {s : Session} (held : s.InOrder) (e : Err) : (s.fail e).InOrder := by
  unfold fail
  split
  · exact held
  · refine ⟨?_, ?_, held.last⟩
    · have front := (List.pairwise_append.mp held.increasing).1
      simpa [openings, opens] using front
    · intro id member
      refine held.bound id (List.mem_append_left _ ?_)
      simpa [openings, opens] using member

theorem batch_inOrder {s s' : Session} {d : Draws} (sound : s.Sound) (held : s.InOrder)
    (taken : s.batch d = some s') : s'.InOrder := by
  rcases batch_cases sound.shape taken with ⟨-, ⟨-, rfl⟩ | ⟨-, -, -, rfl⟩ |
    ⟨-, sentControls, rest, a, work, more, padding, queue, -, -, -, emits, rfl⟩⟩
  · exact held.keep rfl rfl rfl id rfl
  · exact held.keep rfl rfl rfl id rfl
  · have same := emits.emitted
    rcases same.frames with ⟨new, -, emitted, data⟩
    have none_ : opens new = [] := by
      simp only [opens, List.map_eq_nil_iff, List.filter_eq_nil_iff]
      intro f member
      simp [data f member]
    refine held.keep ?_ same.lastID same.server ?_ ?_
    · have controls : work.1.controls = rest := same.controls
      simp only [openings, emitted, controls, queue, withControls, opens_append, none_,
        List.map_append, List.append_nil, List.append_assoc]
    · rw [show (_ : Session).reader = s.reader from same.reader]
      exact id
    · rw [show (_ : Session).processed = s.processed from same.processed]

theorem recv_inOrder {s s' : Session} {bs : List Byte} {e : Option Err} (held : s.InOrder)
    (taken : s.recv bs e = some s') : s'.InOrder := by
  unfold recv at taken
  split at taken
  · cases taken
  simp only at taken
  split at taken
  · next h position =>
      have running : s.reader.halted = false := by rw [position]; rfl
      rcases recvHeader_cases taken with ⟨-, -, ⟨-, rfl⟩ | ⟨-, cause, -, rfl⟩⟩ <;>
        exact held.keep rfl rfl rfl (fun _ => running) rfl
  · next hd live p position =>
      have running : s.reader.halted = false := by rw [position]; rfl
      rcases recvPayload_cases taken with ⟨-, -, ⟨-, -, rfl⟩ | ⟨cause, -, rfl⟩⟩ <;>
        exact held.keep rfl rfl rfl (fun _ => running) rfl
  · next hd got discard position =>
      have running : s.reader.halted = false := by rw [position]; rfl
      have before : (s.hears bs).InOrder := held.keep rfl rfl rfl id rfl
      have kept : ∀ complete, ((s.hears bs).published hd.id bs discard complete).InOrder :=
        fun complete => before.of_kept (published_kept _ _ _ _ _).1
      rcases recvData_cases (s := s.hears bs) taken with
        ⟨-, ⟨-, -, rfl⟩ | ⟨-, -, rfl⟩ | ⟨cause, -, rfl⟩⟩
      · refine (kept true).keep rfl rfl rfl (fun _ => ?_) ?_
        · rw [(published_kept (s.hears bs) hd.id bs discard true).2.1]
          exact running
        · simp [consumed, opens]
      · refine (kept false).keep rfl rfl rfl (fun _ => ?_) rfl
        rw [(published_kept (s.hears bs) hd.id bs discard false).2.1]
        exact running
      · refine (kept true).keep rfl rfl rfl (fun _ => ?_) rfl
        rw [(published_kept (s.hears bs) hd.id bs discard true).2.1]
        exact running
  · cases taken

theorem dispatch_inOrder {s s' : Session} {draw : Nat} (sound : s.Sound) (held : s.InOrder)
    (taken : s.dispatch draw = some s') : s'.InOrder := by
  rcases dispatch_cases taken with ⟨hd, live, p, position, -, outcome⟩
  have fits := sound.reading
  rw [position] at fits
  have running : s.reader.halted = false := by rw [position]; rfl
  rcases outcome with ⟨open_, outcome⟩ | ⟨other, -, rfl⟩ |
    ⟨other, st, -, ⟨-, rfl⟩ | ⟨-, rfl⟩⟩
  · rcases fits.2.2.2 open_ with ⟨server, new⟩
    have same : opens (s.admission hd.id p draw).1.emitted ++
        (s.admission hd.id p draw).1.openings = opens s.emitted ++ s.openings ∧
        (s.admission hd.id p draw).1.lastID = hd.id := by
      rcases admission_cases s hd.id p draw with
        ⟨-, ⟨-, outcome⟩ | ⟨e, -, outcome⟩⟩ | ⟨-, outcome⟩ <;> rw [outcome]
      · simp [swept, queued, openings, opens]
      · exact ⟨rfl, rfl⟩
      · exact ⟨rfl, rfl⟩
    have raised : s.lastID ≤ (s.admission hd.id p draw).1.lastID := new.le.trans same.2.ge
    rcases outcome with ⟨-, rfl⟩ | ⟨e, -, rfl⟩
    · refine held.raise same.1 raised fun _ _ => .inr ?_
      simp [consumed, opens, open_, same.2]
    · exact held.raise same.1 raised fun _ halted => by cases halted
  · exact held.keep rfl rfl rfl (fun _ => running) (by simp [consumed, opens, other])
  · exact held.keep rfl rfl rfl (fun _ => running) rfl
  · have kept := afterFrame_kept s hd.id st hd.kind p
    refine (held.of_kept kept).keep rfl rfl rfl (fun _ => ?_)
      (by simp [consumed, opens, other])
    rcases kept.reader with same | ⟨k, same⟩
    · rw [same]
      exact running
    · rw [same, position]
      rfl

theorem step_inOrder {s s' : Session} {action : Action} (sound : s.Sound) (held : s.InOrder)
    (taken : s.step action = some s') : s'.InOrder := by
  cases action with
  | «open» metadata draw =>
      cases taken
      exact open_inOrder held metadata draw
  | accept =>
      rcases Option.map_eq_some_iff.mp taken with ⟨⟨_, result⟩, made, rfl⟩
      unfold accept at made
      split at made <;> cases made
      exact held.keep rfl rfl rfl id rfl
  | respond k code =>
      rcases Option.map_eq_some_iff.mp taken with ⟨⟨_, result⟩, made, rfl⟩
      exact held.of_kept (respond_kept made)
  | callReturn k wake =>
      rcases Option.map_eq_some_iff.mp taken with ⟨⟨_, result⟩, made, rfl⟩
      exact held.of_kept (callReturn_kept made)
  | read k n draw =>
      rcases Option.map_eq_some_iff.mp taken with ⟨⟨_, result⟩, made, rfl⟩
      exact held.of_kept (read_kept made)
  | write k p =>
      rcases Option.map_eq_some_iff.mp taken with ⟨⟨_, result⟩, made, rfl⟩
      exact held.of_kept (write_kept made)
  | writeReturn k =>
      rcases Option.map_eq_some_iff.mp taken with ⟨⟨_, n, result⟩, made, rfl⟩
      exact held.of_kept (writeReturn_kept made)
  | closeWrite k =>
      rcases Option.map_eq_some_iff.mp taken with ⟨⟨_, result⟩, made, rfl⟩
      exact held.of_kept (closeWrite_kept made)
  | finish k =>
      rcases Option.map_eq_some_iff.mp taken with ⟨⟨_, result⟩, made, rfl⟩
      exact held.of_kept (finish_kept made)
  | close k => exact held.of_kept (close_kept taken)
  | closeSession =>
      cases taken
      exact fail_inOrder held .closed
  | cancel =>
      simp only [step] at taken
      split at taken <;> cases taken
      exact held.keep rfl rfl rfl id rfl
  | fail i =>
      simp only [step] at taken
      split at taken <;> cases taken
      refine fail_inOrder ?_ _
      exact held.keep rfl rfl rfl id rfl
  | recv bs e => exact recv_inOrder held taken
  | check =>
      rcases check_cases taken with ⟨h, position, -, outcome⟩
      have running : s.reader.halted = false := by rw [position]; rfl
      rcases outcome with ⟨-, rfl⟩ | ⟨hd, -, ⟨-, -, -, rfl⟩ | ⟨-, -, st, -, -, -, -, rfl⟩ |
        ⟨-, -, -, rfl⟩⟩ <;> exact held.keep rfl rfl rfl (fun _ => running) rfl
  | takeChunk =>
      rcases takeChunk_cases taken with ⟨hd, live, position, outcome⟩
      have running : s.reader.halted = false := by rw [position]; rfl
      rcases outcome with ⟨st, -, -, -, -, rfl⟩ | ⟨-, rfl⟩ <;>
        exact held.keep rfl rfl rfl (fun _ => running) rfl
  | dispatch draw => exact dispatch_inOrder sound held taken
  | wakeUp =>
      simp only [step, wakeUp] at taken
      split at taken
      · split at taken
        · cases taken
          exact held.keep rfl rfl rfl id rfl
        · split at taken <;> cases taken
          exact held.keep rfl rfl rfl id rfl
      · cases taken
  | batch draws => exact batch_inOrder sound held taken
  | send n =>
      simp only [step, send] at taken
      split at taken
      · split at taken <;> cases taken
        exact held.keep rfl rfl rfl id rfl
      · cases taken
  | writeEnd e =>
      rcases writeEnd_cases taken with ⟨b, -, ⟨-, -, rfl⟩ | ⟨cause, -, -, -, rfl⟩⟩ <;>
        exact held.keep rfl rfl rfl id rfl

theorem reachable_inOrder {server : Bool} {ok : Session → Action → Prop} {s : Session}
    (reached : (machine server).ReachableBy ok s) : s.InOrder := by
  refine reached.invariant (P := InOrder) ?_
    fun _ _ _ before held _ taken => step_inOrder (reachable_sound before) held taken
  rintro s ⟨shape, -, rfl⟩
  exact ⟨by simp [Session.new, openings, opens], by simp [Session.new, openings, opens],
    fun _ _ => .inl rfl⟩

/-- The OPEN that follows what a server has processed is above the last one. -/
theorem lastID_lt_of_next {a b : Session} (sender : a.InOrder) (receiver : b.InOrder)
    (server : b.server = true) (running : b.reader.halted = false) {f : Frame}
    {rest : List Frame} (split_ : a.emitted = b.processed ++ f :: rest) (kind : f.kind = .open)
    (odd : f.id % 2 = 1) : b.lastID < f.id := by
  rcases receiver.last server running with zero | member
  · omega
  · have order := (List.pairwise_append.mp sender.increasing).1
    rw [split_, opens_append, opens_cons, List.pairwise_append] at order
    refine order.2.2 _ member f.id ?_
    simp [opens, kind]

end Session

end Veil.Mux

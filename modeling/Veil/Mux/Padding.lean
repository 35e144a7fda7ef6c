import Veil.Mux.Wakeup
import Veil.Tls.Padding

/-!
# The padding hook of the write loop

A session narrows the ranges of its profile once and draws every argument of
the padding hook from the narrowed ranges.  A range of a validated profile
narrows to a range that is not empty and no wider, so that each triple the
writer passes, in any run, is one that the TLS connection accepts.
-/

namespace Veil.Mux

open Veil.Lib

/-- The ranges of a shape the padding hook draws from. -/
structure Shape.Padded (shape : Shape) : Prop where
  limit : shape.limit.min ≤ shape.limit.max ∧ shape.limit.max ≤ 512
  writes : shape.writes.min ≤ shape.writes.max ∧ shape.writes.max ≤ 12
  budget : shape.budget.min ≤ shape.budget.max ∧ shape.budget.max ≤ 4096
  control : shape.control.min ≤ shape.control.max ∧ shape.control.max ≤ 128

/-- A validated range narrows to one that is not empty and within the same bound. -/
theorem narrowed_within_row {range : Range} {low high : Nat}
    (row : Profile.within range low high = true) (draw : Nat) :
    (range.narrowed draw).min ≤ (range.narrowed draw).max ∧
      (range.narrowed draw).max ≤ high := by
  simp only [Profile.within, Bool.and_eq_true, decide_eq_true_eq] at row
  obtain ⟨⟨-, bound⟩, ordered⟩ := row
  obtain ⟨-, narrow, top⟩ := Range.narrowed_within ordered draw
  exact ⟨narrow, top.trans bound⟩

theorem newShape_padded {p : Profile} (valid : p.validate = true) (draw : Nat → Nat) :
    (newShape p draw).Padded := by
  simp only [Profile.validate, Bool.and_eq_true] at valid
  obtain ⟨⟨⟨⟨⟨⟨⟨-, -⟩, -⟩, writes⟩, limit⟩, budget⟩, -⟩, control⟩ := valid
  exact {
    limit := narrowed_within_row limit (draw 4)
    writes := narrowed_within_row writes (draw 3)
    budget := narrowed_within_row budget (draw 5)
    control := narrowed_within_row control (draw 6) }

theorem choose_le {range : Range} {high : Nat}
    (fits : range.min ≤ range.max ∧ range.max ≤ high) (draw : Nat) :
    range.choose draw ≤ high :=
  (Range.choose_mem fits.1 draw).2.trans fits.2

namespace Session

/-- The bounds of the TLS connection on the arguments of the padding hook. -/
def Triple (call : Option (Nat × Nat × Nat)) : Prop :=
  ∀ limit records budget, call = some (limit, records, budget) →
    limit ≤ 512 ∧ records ≤ 12 ∧ budget ≤ 4096

theorem paddingCall_triple {s : Session} (padded : s.shape.Padded) (d : Draws)
    (ready : List Nat) (controlsSent : Bool) :
    Triple (s.paddingCall d ready controlsSent) := by
  intro limit records budget called
  unfold paddingCall at called
  split at called
  · cases called
    exact ⟨choose_le padded.limit _, choose_le padded.writes _, choose_le padded.budget _⟩
  · split at called
    · cases called
      have small := choose_le padded.control d.control
      exact ⟨by omega, by omega, by omega⟩
    · split at called
      · cases called
        exact ⟨Nat.zero_le _, Nat.zero_le _, Nat.zero_le _⟩
      · cases called

/-- The padding hook is called with what `paddingCall` says. -/
theorem batch_padding {s s' : Session} {d : Draws} {b : Batch}
    (taken : s.batch d = some s') (writing : s'.writer = .writing b) :
    ∃ controlsSent, b.padding = s.paddingCall d s.ready controlsSent := by
  unfold batch at taken
  split at taken
  · cases taken
    cases writing
  · simp only at taken
    split at taken
    · cases taken
      cases writing
    · cases taken
      cases writing
      exact ⟨_, rfl⟩
  · cases taken

/-! ## Steps that leave the ranges alone -/

theorem admission_shape (s : Session) (id : Nat) (p : List Byte) (draw : Nat) :
    (s.admission id p draw).1.shape = s.shape := by
  rcases admission_cases s id p draw with
    ⟨-, ⟨-, admitted⟩ | ⟨e, -, admitted⟩⟩ | ⟨-, admitted⟩ <;> rw [admitted] <;> rfl

theorem afterFrame_shape (s : Session) (k : Nat) (st : Stream) (t : Kind) (p : List Byte) :
    (s.afterFrame k st t p).shape = s.shape := by
  cases t <;> rfl

theorem dispatch_shape {s s' : Session} {draw : Nat} (taken : s.dispatch draw = some s') :
    s'.shape = s.shape := by
  rcases dispatch_cases taken with ⟨hd, live, p, -, -, ⟨-, ⟨-, rfl⟩ | ⟨e, -, rfl⟩⟩ |
    ⟨-, -, rfl⟩ | ⟨-, st, -, ⟨-, rfl⟩ | ⟨-, rfl⟩⟩⟩
  · exact admission_shape s _ _ _
  · exact admission_shape s _ _ _
  · rfl
  · rfl
  · exact afterFrame_shape s _ _ _ _

theorem recv_shape {s s' : Session} {bs : List Byte} {e : Option Err}
    (taken : s.recv bs e = some s') : s'.shape = s.shape := by
  unfold recv at taken
  split at taken
  · cases taken
  simp only at taken
  split at taken
  · rcases recvHeader_cases taken with ⟨-, -, ⟨-, rfl⟩ | ⟨-, cause, -, rfl⟩⟩ <;> rfl
  · rcases recvPayload_cases taken with ⟨-, -, ⟨-, -, rfl⟩ | ⟨cause, -, rfl⟩⟩ <;> rfl
  · rcases recvData_cases taken with
      ⟨-, ⟨-, -, rfl⟩ | ⟨-, -, rfl⟩ | ⟨cause, -, rfl⟩⟩ <;>
      exact (published_kept _ _ _ _ _).1.shape
  · cases taken

theorem check_shape {s s' : Session} (taken : s.check = some s') : s'.shape = s.shape := by
  rcases check_cases taken with ⟨h, -, -, ⟨-, rfl⟩ | ⟨hd, -,
    ⟨-, -, -, rfl⟩ | ⟨-, -, st, -, -, -, -, rfl⟩ | ⟨-, -, -, rfl⟩⟩⟩ <;> rfl

theorem takeChunk_shape {s s' : Session} (taken : s.takeChunk = some s') :
    s'.shape = s.shape := by
  rcases takeChunk_cases taken with ⟨hd, live, -, ⟨st, -, -, -, -, rfl⟩ | ⟨-, rfl⟩⟩ <;> rfl

theorem open_shape (s : Session) (metadata : List Byte) (draw : Nat) :
    (s.open metadata draw).1.shape = s.shape := by
  rcases s.open_cases metadata draw with same |
    ⟨-, -, -, -, -, -, ⟨-, outcome⟩ | ⟨-, outcome⟩⟩
  · rw [same]
  · rw [outcome]
    rfl
  · rw [outcome]
    rfl

theorem fail_same (s : Session) (e : Err) :
    (s.fail e).shape = s.shape ∧ (s.fail e).writer = s.writer := by
  unfold fail
  split <;> exact ⟨rfl, rfl⟩

/-! ## Runs -/

/-- The writer draws from bounded ranges, and has passed on nothing else. -/
structure PaddedWriter (s : Session) : Prop where
  shape : s.shape.Padded
  triple : ∀ b, s.writer = .writing b → Triple b.padding

/-- A step that changes neither the ranges nor the writer. -/
theorem PaddedWriter.same {s s' : Session} (held : s.PaddedWriter)
    (shape : s'.shape = s.shape) (writer : s'.writer = s.writer) : s'.PaddedWriter where
  shape := shape ▸ held.shape
  triple b writing := held.triple b (writer ▸ writing)

theorem batch_padded {s s' : Session} {d : Draws} (sound : s.Sound)
    (held : s.PaddedWriter) (taken : s.batch d = some s') : s'.PaddedWriter := by
  constructor
  · rcases batch_cases sound.shape taken with ⟨-, ⟨-, rfl⟩ | ⟨-, -, -, rfl⟩ |
      ⟨-, sentControls, rest, a, work, more, padding, -, -, -, -, emits, rfl⟩⟩
    · exact held.shape
    · exact held.shape
    · have kept := emits.emitted.shape
      show work.1.shape.Padded
      rw [kept]
      exact ⟨held.shape.limit, held.shape.writes, held.shape.budget, held.shape.control⟩
  · intro b writing
    rcases batch_padding taken writing with ⟨controlsSent, called⟩
    rw [called]
    exact paddingCall_triple held.shape d _ _

theorem step_padded {s s' : Session} {action : Action} (sound : s.Sound)
    (held : s.PaddedWriter) (taken : s.step action = some s') : s'.PaddedWriter := by
  have kept : Kept s s' → s'.PaddedWriter := fun kept => held.same kept.shape kept.writer
  cases action with
  | «open» metadata draw =>
      cases taken
      exact held.same (open_shape s metadata draw) (open_rouses s metadata draw).writer
  | accept =>
      rcases Option.map_eq_some_iff.mp taken with ⟨⟨_, result⟩, made, rfl⟩
      unfold accept at made
      split at made
      · cases made
      · cases made
        exact held.same rfl rfl
  | respond k code =>
      rcases Option.map_eq_some_iff.mp taken with ⟨⟨_, result⟩, made, rfl⟩
      exact kept (respond_kept made)
  | callReturn k wake =>
      rcases Option.map_eq_some_iff.mp taken with ⟨⟨_, result⟩, made, rfl⟩
      exact kept (callReturn_kept made)
  | read k n draw =>
      rcases Option.map_eq_some_iff.mp taken with ⟨⟨_, result⟩, made, rfl⟩
      exact kept (read_kept made)
  | write k p =>
      rcases Option.map_eq_some_iff.mp taken with ⟨⟨_, result⟩, made, rfl⟩
      exact kept (write_kept made)
  | writeReturn k =>
      rcases Option.map_eq_some_iff.mp taken with ⟨⟨_, result⟩, made, rfl⟩
      exact kept (writeReturn_kept made)
  | closeWrite k =>
      rcases Option.map_eq_some_iff.mp taken with ⟨⟨_, result⟩, made, rfl⟩
      exact kept (closeWrite_kept made)
  | finish k =>
      rcases Option.map_eq_some_iff.mp taken with ⟨⟨_, result⟩, made, rfl⟩
      exact kept (finish_kept made)
  | close k => exact kept (close_kept taken)
  | closeSession =>
      cases taken
      exact held.same (fail_same s _).1 (fail_same s _).2
  | cancel =>
      simp only [step] at taken
      split at taken
      · cases taken
        exact held.same rfl rfl
      · cases taken
  | fail i =>
      simp only [step] at taken
      split at taken
      · cases taken
      · cases taken
        exact held.same (fail_same _ _).1 (fail_same _ _).2
  | recv bs e => exact held.same (recv_shape taken) (recv_rouses taken).writer
  | check => exact held.same (check_shape taken) (check_rouses taken).writer
  | takeChunk => exact held.same (takeChunk_shape taken) (takeChunk_rouses taken).writer
  | dispatch draw =>
      exact held.same (dispatch_shape taken) (dispatch_rouses sound taken).writer
  | wakeUp =>
      simp only [step, wakeUp] at taken
      split at taken
      · split at taken
        · cases taken
          exact ⟨held.shape, by simp⟩
        · split at taken
          · cases taken
            exact ⟨held.shape, by simp⟩
          · cases taken
      · cases taken
  | batch draws => exact batch_padded sound held taken
  | send n =>
      simp only [step, send] at taken
      split at taken
      · next b writing =>
          split at taken
          · cases taken
          · cases taken
            refine ⟨held.shape, fun b' same => ?_⟩
            cases same
            exact held.triple b writing
      · cases taken
  | writeEnd e =>
      rcases writeEnd_cases taken with ⟨b, -, ⟨-, -, rfl⟩ | ⟨cause, -, -, -, rfl⟩⟩
      · refine ⟨held.shape, fun b' writing => ?_⟩
        simp only at writing
        split at writing <;> cases writing
      · exact ⟨held.shape, by simp⟩

theorem any_padded {ok : Session → Action → Prop} {s : Session}
    (reached : anyMachine.ReachableBy ok s) : s.PaddedWriter := by
  refine reached.invariant (P := PaddedWriter) ?_
    fun _ _ _ before held _ taken => step_padded (any_sound before) held taken
  rintro s ⟨server, profile, draw, preamble, valid, rfl⟩
  exact ⟨newShape_padded valid draw, fun _ => nofun⟩

open Veil.Tls in
/--
Whatever a session of a validated profile passes to its padding hook, the TLS
connection accepts; and of every triple that it accepts, no sequence of records
takes more padding than the triple allows, or counts it wrongly.
-/
theorem padding_within_budget (c : Conn) :
    (∀ s b limit records budget, anyMachine.Reachable s → s.writer = .writing b →
      b.padding = some (limit, records, budget) →
      ∃ c', c.veilSetPaddingBudget limit records budget = .ok c') ∧
    ∀ limit records budget c', c.veilSetPaddingBudget limit records budget = .ok c' →
      (c.vers = versionTLS13 ∧ c.isHandshakeComplete = true →
        (c'.out.veilPadLimit.toNat : Int) = limit ∧
          (c'.out.veilPadRecords.toNat : Int) = records ∧
          (c'.out.veilPadBytes.toNat : Int) = budget) ∧
      ∀ sent : List HalfConn.Drawn, (∀ r ∈ sent, r.length ≤ maxPlaintext) →
        c'.out.Within limit records budget sent := by
  constructor
  · intro s b limit records budget reached writing called
    obtain ⟨limited, counted, bounded⟩ :=
      (any_padded reached).triple b writing limit records budget called
    apply Conn.accepted_iff.mpr
    exact ⟨⟨by omega, by omega⟩, ⟨by omega, by omega⟩, by omega, by omega⟩
  · intro limit records budget c' made
    exact ⟨(Conn.installed made).1, fun _ fits => Conn.installed_within made fits⟩

open Veil.Tls in
/-- The first batch of a client installs a triple, and two records are padded under it. -/
theorem padding_within_budget_opening : ∃ s b limit records budget c',
    anyMachine.run (made false Profile.default (fun _ => 0) [7])
        [.open [1] 0, .wakeUp, .batch ⟨5, 2, 9, 0, 0, 0, fun _ => 0⟩] = some s ∧
      s.writer = .writing b ∧ b.padding = some (limit, records, budget) ∧
      Conn.veilSetPaddingBudget ⟨versionTLS13, true, ⟨0, 0, 0⟩⟩ limit records budget =
        .ok c' ∧
      c'.out.Within limit records budget [⟨40, 3⟩, ⟨16384, 5⟩] := by
  have ran : (anyMachine.run (made false Profile.default (fun _ => 0) [7])
      [.open [1] 0, .wakeUp, .batch ⟨5, 2, 9, 0, 0, 0, fun _ => 0⟩]).map
        (fun s => s.writer.casesOn none none (fun b => b.padding) none) =
      some (some (69, 2, 521)) := by
    decide +kernel
  rcases Option.map_eq_some_iff.mp ran with ⟨s, run, called⟩
  have initial : anyMachine.start (made false Profile.default (fun _ => 0) [7]) :=
    ⟨false, Profile.default, fun _ => 0, [7], Profile.validate_default, rfl⟩
  have reached := Machine.run_reachable (.start initial) run
  cases writing : s.writer with
  | writing b =>
      rw [writing] at called
      have both := padding_within_budget ⟨versionTLS13, true, ⟨0, 0, 0⟩⟩
      obtain ⟨c', made⟩ := both.1 s b 69 2 521 reached writing called
      exact ⟨s, b, 69, 2, 521, c', run, writing, called, made,
        (both.2 _ _ _ _ made).2 [⟨40, 3⟩, ⟨16384, 5⟩] (by decide)⟩
  | _ =>
      rw [writing] at called
      cases called

end Session

end Veil.Mux

import Veil.Proxy.Desktop
import Veil.Proxy.Faults

/-!
# Bringing the user's settings back

`failed_call_restorable` states when the user's settings can be brought back
after an operation that failed: exactly when no restoring write of it failed
with part of the settings changed.
-/

namespace Veil.Proxy

open Lib

variable {κ : Type} {native : Option (Backend κ)}

/-- Not a write that restores settings. -/
def Harmless (effect : Effect κ) : Prop :=
  ∀ settings, effect ≠ .write .restore settings

theorem Harmless.clean {effect : Effect κ} (harmless : Harmless effect)
    (w : Desk κ) (fault : Fault κ) : Clean w effect fault := by
  unfold Clean
  split
  next settings reached => exact absurd rfl (harmless settings)
  next => exact trivial

variable [Keys κ]

theorem manage_only (c : Controller κ) (backend : Backend κ)
    (endpoint : Text) (current : Snapshot κ) :
    (c.manage backend endpoint current).Only Harmless := by
  simp only [Controller.manage, Program.perform_bind, Program.Only]
  refine ⟨by simp [Harmless], fun saved => ?_⟩
  cases saved with
  | false => exact trivial
  | true =>
      refine ⟨by simp [Harmless], fun written => ?_⟩
      cases written with
      | true => exact trivial
      | false =>
          refine ⟨by simp [Harmless], fun rolled => ?_⟩
          cases rolled with
          | true => exact ⟨by simp [Harmless], fun _ => trivial⟩
          | false => exact trivial

theorem clear_only (c : Controller κ) :
    (c.clear native).Only Harmless := by
  unfold Controller.clear
  cases native with
  | none => exact trivial
  | some backend =>
      refine ⟨by simp [Harmless], fun answer => ?_⟩
      cases answer with
      | none => exact trivial
      | some current =>
          refine ⟨by simp [Harmless], fun written => ?_⟩
          cases written with
          | false => exact ⟨by simp [Harmless], fun _ => trivial⟩
          | true =>
              refine ⟨by simp [Harmless], fun saved => ?_⟩
              cases saved with
              | true => exact trivial
              | false => exact ⟨by simp [Harmless], fun _ => trivial⟩

variable [Fintype κ]

theorem apply_only (c : Controller κ) (endpoint : Text) :
    (c.apply native endpoint).Only Harmless := by
  unfold Controller.apply
  cases native with
  | none => exact trivial
  | some backend =>
      simp only [Program.perform_bind]
      refine ⟨by simp [Harmless], fun answer => ?_⟩
      cases answer with
      | none => exact trivial
      | some current =>
          simp only
          split_ifs
          · refine ⟨by simp [Harmless], fun saved => ?_⟩
            cases saved <;> exact trivial
          · exact manage_only c backend endpoint current

theorem record_only (c : Controller κ) (mode : Mode) (endpoint : Text) :
    (c.record native mode endpoint).Only Harmless := by
  simp only [Controller.record, Program.perform_bind]
  refine ⟨by simp [Harmless], fun saved => ?_⟩
  cases saved with
  | false => exact trivial
  | true =>
      simp only [if_true]
      split_ifs
      · exact apply_only _ endpoint
      · exact trivial

/-! ## Restoring without faults -/

/-- With nothing failing any more, `Restore` succeeds or the original settings
are in place already, and they are in place after it. -/
def Restorable (native : Option (Backend κ)) (original : Snapshot κ)
    (w : Desk κ) (c : Controller κ) : Prop :=
  let run := (c.restoreNow native).complete Desk.handle .fine w
  (run.2.2 = none ∨ w.settings = original) ∧ run.1.settings = original

instance (original : Snapshot κ) (w : Desk κ) (c : Controller κ) :
    Decidable (Restorable native original w c) :=
  inferInstanceAs (Decidable ((_ = none ∨ w.settings = original) ∧ _))

theorem Keeping.restorable {original : Snapshot κ} {w : Desk κ}
    {c : Controller κ} (keeping : Keeping native original w c) :
    Restorable native original w c := by
  unfold Restorable
  generalize isRun : (c.restoreNow native).complete Desk.handle .fine w = run
  simp only [Controller.restoreNow, Controller.restore] at isRun
  split_ifs at isRun with unmanaged
  · subst isRun
    exact ⟨Or.inl rfl, keeping.2 unmanaged⟩
  · obtain ⟨backend, rfl, named⟩ := keeping.1.named unmanaged
    have before := keeping.1.before unmanaged
    simp only [named, ne_eq, not_true_eq_false, if_false, Controller.putBack,
      Program.perform_bind, Program.ask_bind, Program.complete,
      Desk.handle] at isRun
    split_ifs at isRun with same
    · simp only [before, Program.ask_bind, Program.complete, Desk.handle,
        if_true, Controller.forget, Program.perform_bind] at isRun
      subst isRun
      exact ⟨Or.inl rfl, rfl⟩
    · obtain ⟨settings, applied⟩ := Option.ne_none_iff_exists'.mp unmanaged
      have back : w.settings = original := by
        cases keeping.1.applied settings applied with
        | inl inPlace => exact absurd (by rw [applied, inPlace]) same
        | inr back => exact back
      simp only [Controller.forget, Program.perform_bind, Program.ask_bind,
        Program.complete, Desk.handle, if_true] at isRun
      subst isRun
      exact ⟨Or.inr back, back⟩

/-- Settings that are neither the applied nor the original ones stay. -/
theorem not_restorable {original : Snapshot κ} {w : Desk κ}
    {c : Controller κ}
    (named : ∃ backend, native = some backend ∧ backend.name = c.state.backend)
    (managed : c.state.applied ≠ none)
    (moved : c.state.applied ≠ some w.settings)
    (lost : w.settings ≠ original) : ¬Restorable native original w c := by
  intro restorable
  obtain ⟨backend, rfl, named⟩ := named
  have settings := restorable.2
  simp only [Controller.restoreNow, Controller.restore, managed, if_false,
    named, ne_eq, not_true_eq_false, Controller.putBack, Controller.forget,
    Program.perform_bind, Program.ask_bind, Program.complete, Desk.handle,
    moved, if_true] at settings
  exact lost settings

/-! ## Restoring halfway -/

/-- What breaks a call: a restoring write that leaves something between the
applied and the original settings. -/
theorem putBack_broken {w : Desk κ} {c : Controller κ}
    {next : Outcome κ → Action κ (Outcome κ)} {faults : List (Fault κ)}
    (after : ∀ outcome, (next outcome).Only Harmless)
    (broken : ¬(c.putBack >>= next).Allowed Desk.handle Clean faults w) :
    ∃ before reached rest, c.state.applied = some w.settings ∧
      c.state.before = some before ∧
      torn reached before w.settings ≠ w.settings ∧
      torn reached before w.settings ≠ before ∧
      (c.putBack >>= next).run Desk.handle faults w =
        (next (c, some .system)).run Desk.handle rest
          { w with settings := torn reached before w.settings } := by
  have fine (program : Action κ (Outcome κ)) (only : program.Only Harmless)
      (faults : List (Fault κ)) (w : Desk κ) :
      program.Allowed Desk.handle Clean faults w :=
    only.allowed (fun w _ fault harmless => harmless.clean w fault) faults w
  have forgets (failure : Option Failure) :
      (c.forget failure >>= next).Only Harmless := by
    refine ⟨by simp [Harmless], fun answer => ?_⟩
    cases answer with
    | false => exact after _
    | true => exact after _
  simp only [Controller.putBack, Program.perform_bind, Program.ask_bind] at *
  cases faults with
  | nil => exact absurd trivial broken
  | cons first faults =>
      cases first with
      | fails reached => exact absurd ⟨trivial, fine _ (after _) _ _⟩ broken
      | fine =>
          simp only [Program.Allowed, Clean, true_and, Desk.handle] at broken
          split_ifs at broken with same
          · cases kept : c.state.before with
            | none =>
                rw [kept] at broken
                exact absurd (fine _ (after _) _ _) broken
            | some before =>
                simp only [kept, Program.ask_bind] at broken
                cases faults with
                | nil => exact absurd trivial broken
                | cons second rest =>
                    cases second with
                    | fine => exact absurd ⟨trivial, fine _ (forgets _) _ _⟩ broken
                    | fails reached =>
                        have dirty : ¬(torn reached before w.settings =
                            w.settings ∨
                            torn reached before w.settings = before) :=
                          fun clean => broken ⟨clean, fine _ (after _) _ _⟩
                        rw [not_or] at dirty
                        refine ⟨before, reached, rest, same, rfl, dirty.1,
                          dirty.2, ?_⟩
                        simp [Program.run, Desk.handle, same]
          · exact absurd (fine _ (forgets _) _ _) broken

/-- A call that breaks leaves something between the applied and the original
settings, and the record of both. -/
theorem call_broken {s : Session κ} {call : Call} {faults : List (Fault κ)}
    (kept : s.Kept native) (managed : s.controller.state.applied ≠ none)
    (broken : ¬Unbroken native s (call, faults)) :
    ∃ desk c failure, s.call native call faults = (desk, .ok (c, some failure)) ∧
      c.state = s.controller.state ∧
      c.state.applied ≠ some desk.settings ∧ desk.settings ≠ s.original := by
  have harmless (only : (call.program native s.controller).Only Harmless) :
      Unbroken native s (call, faults) :=
    only.allowed (fun w _ fault harmless => harmless.clean w fault) faults _
  obtain ⟨backend, rfl, named⟩ := kept.named managed
  have original (before : Snapshot κ)
      (isBefore : s.controller.state.before = some before) :
      before = s.original := by
    simpa [isBefore] using kept.before managed
  have restores : s.controller.restore (some backend) = s.controller.putBack := by
    simp [Controller.restore, managed, named]
  cases call with
  | apply endpoint =>
      apply absurd (harmless _) broken
      simp only [Call.program, Controller.applyNow]
      split_ifs
      · exact apply_only _ endpoint
      · exact trivial
  | clear =>
      apply absurd (harmless _) broken
      simp only [Call.program]
      exact clear_only _
  | selectConnection id =>
      apply absurd (harmless _) broken
      refine ⟨by simp [Harmless], fun saved => ?_⟩
      cases saved <;> exact trivial
  | restore =>
      simp only [Unbroken, Call.program, Controller.restoreNow,
        restores] at broken
      obtain ⟨before, reached, rest, inPlace, isBefore, moved, lost, isRun⟩ :=
        putBack_broken (by exact fun _ => trivial) broken
      refine ⟨⟨torn reached before s.desk.settings, s.desk.journal⟩,
        ⟨s.controller.state, some .system⟩, .system, ?_, rfl, ?_, ?_⟩
      · simp only [Session.call, Call.program, Controller.restoreNow, restores]
        rw [isRun]
        cases rest <;> rfl
      · rw [inPlace]
        exact fun same => moved (Option.some.inj same).symm
      · rwa [← original before isBefore]
  | setMode mode endpoint =>
      cases named : Mode.ofText mode with
      | none =>
          apply absurd (harmless _) broken
          simp only [Call.program, Controller.setMode, named]
          exact trivial
      | some wanted =>
          cases wanted with
          | auto =>
              apply absurd (harmless _) broken
              simp only [Call.program, Controller.setMode, named]
              split_ifs
              · exact trivial
              · exact record_only _ _ _
          | keep =>
              simp only [Unbroken, Call.program, Controller.setMode, named,
                restores] at broken
              obtain ⟨before, reached, rest, inPlace, isBefore, moved, lost,
                isRun⟩ := putBack_broken (by
                  rintro ⟨c, failure⟩
                  simp only
                  split_ifs
                  · exact record_only _ _ _
                  · exact trivial) broken
              refine ⟨⟨torn reached before s.desk.settings, s.desk.journal⟩,
                s.controller, .system, ?_, rfl, ?_, ?_⟩
              · simp only [Session.call, Call.program, Controller.setMode,
                  named, restores]
                rw [isRun]
                cases rest <;> rfl
              · rw [inPlace]
                exact fun same => moved (Option.some.inj same).symm
              · rwa [← original before isBefore]

/--
After a call of a managing controller that failed, a restore brings back the
user's settings if and only if no restoring write of the call failed with part
of the settings changed.
-/
theorem failed_call_restorable {s : Session κ}
    (reached : (calls native).ReachableBy (Unbroken native) s)
    (managed : s.controller.state.applied ≠ none)
    {call : Call} {faults : List (Fault κ)} {desk : Desk κ}
    {c : Controller κ} {failure : Failure}
    (ran : s.call native call faults = (desk, .ok (c, some failure))) :
    Restorable native s.original desk c ↔ Unbroken native s (call, faults) := by
  have kept := kept_run reached
  constructor
  · intro restorable
    by_contra broken
    obtain ⟨_, _, _, isRun, state, moved, lost⟩ :=
      call_broken kept managed broken
    obtain ⟨rfl, same⟩ := Prod.mk.inj (ran.symm.trans isRun)
    obtain ⟨rfl, _⟩ := Prod.mk.inj (Except.ok.inj same)
    exact not_restorable (by rw [state]; exact kept.named managed)
      (by rw [state]; exact managed) moved lost restorable
  · intro unbroken
    have left := Program.ensures_run (call_ends kept.keeping call) unbroken
    rw [Session.call] at ran
    rw [ran] at left
    have user : s.user = s.original := by
      simp [Session.user, managed]
    rw [user] at left
    have keeping : Keeping native s.original desk c :=
      ⟨left.1, left.2 (by simp)⟩
    exact keeping.restorable

/-! ## Runs on one desktop -/

/-- A desktop that is configured by a script, under a fresh controller. -/
def scriptedSession : Session WindowsKey :=
  ⟨⟨fun
    | .flags => "5".toList
    | .pac => "http://pac".toList
    | .bypass | .server => [], none⟩, ⟨{}, none⟩, fun _ => []⟩

def managing : List (Call × List (Fault WindowsKey)) :=
  [(.setMode "auto".toList "127.0.0.1:1080".toList,
    [.fine, .fine, .fine, .fine])]

/-- A restore whose write fails after the keys it reached. -/
def failing (reached : WindowsKey → Bool) : List (Fault WindowsKey) :=
  [.fine, .fails reached]

/-- A managing controller whose restore fails after these keys. -/
def restoreFails (reached : WindowsKey → Bool) (s : Session WindowsKey) :
    Bool :=
  s.controller.state.applied.isSome &&
    match s.call (some wininet) .restore (failing reached) with
    | (_, .ok (_, some _)) => true
    | _ => false

theorem restoreFails_call {reached : WindowsKey → Bool}
    {s : Session WindowsKey} (fails : restoreFails reached s = true) :
    s.controller.state.applied ≠ none ∧
      ∃ desk c failure, s.call (some wininet) .restore (failing reached) =
        (desk, .ok (c, some failure)) := by
  simp only [restoreFails, Bool.and_eq_true] at fails
  refine ⟨Option.isSome_iff_ne_none.mp fails.1, ?_⟩
  have answer := fails.2
  split at answer
  next desk c failure ran => exact ⟨desk, c, failure, ran⟩
  next => simp at answer

theorem failed_call_restorable_untouched :
    ∃ s desk c failure,
      s.call (some wininet) .restore (failing fun _ => false) =
          (desk, .ok (c, some failure)) ∧
        (Restorable (some wininet) s.original desk c ↔
          Unbroken (some wininet) s (.restore, failing fun _ => false)) := by
  have ran : ((calls (some wininet)).runBy (Unbroken (some wininet))
      scriptedSession managing).map (restoreFails fun _ => false) =
      some true := by
    decide +kernel
  obtain ⟨s, run, fails⟩ := Option.map_eq_some_iff.mp ran
  have reached := Machine.runBy_reachableBy
    (.start (rfl : (calls (some wininet)).start scriptedSession)) run
  obtain ⟨managed, desk, c, failure, called⟩ := restoreFails_call fails
  exact ⟨s, desk, c, failure, called,
    failed_call_restorable reached managed called⟩

/-- The restoring write has reached the flags when it fails. -/
def flagsOnly (key : WindowsKey) : Bool :=
  key = .flags

/-- What the next restore leaves is not the user's settings. -/
def losesSettings (s : Session WindowsKey) : Bool :=
  match s.call (some wininet) .restore (failing flagsOnly) with
  | (desk, .ok (c, some _)) => !decide (Restorable (some wininet) s.original desk c)
  | _ => false

theorem torn_restore_forgets :
    ∃ s desk c failure, (calls (some wininet)).Reachable s ∧
      s.controller.state.applied ≠ none ∧
      s.call (some wininet) .restore (failing flagsOnly) =
        (desk, .ok (c, some failure)) ∧
      ¬Restorable (some wininet) s.original desk c := by
  have ran : ((calls (some wininet)).run scriptedSession managing).map
      (fun s => restoreFails flagsOnly s && losesSettings s) = some true := by
    decide +kernel
  obtain ⟨s, run, tests⟩ := Option.map_eq_some_iff.mp ran
  rw [Bool.and_eq_true] at tests
  have reached := Machine.run_reachable
    (.start (rfl : (calls (some wininet)).start scriptedSession)) run
  obtain ⟨managed, desk, c, failure, called⟩ := restoreFails_call tests.1
  have lost := tests.2
  rw [losesSettings, called] at lost
  exact ⟨s, desk, c, failure, reached, managed, called, by simpa using lost⟩

end Veil.Proxy

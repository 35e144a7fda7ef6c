import Veil.Lib.Machine
import Veil.Proxy.World

/-!
# Operations that fail

Any read, write or journal save of an operation may fail, and a write that
fails may have changed some of the keys; a write that rolls back succeeds.
Nobody else changes the settings.  Under these faults an operation keeps the
user's settings, in the desktop or in the controller's record, unless a write
that restores them fails halfway.
-/

namespace Veil.Proxy

open Lib

/-- What becomes of one step. -/
inductive Fault (κ : Type) where
  | fine
  /-- It fails; a write has reached these keys. -/
  | fails (reached : κ → Bool)

structure Desk (κ : Type) where
  settings : Snapshot κ
  journal : Option Text

variable {κ : Type}

/-- A write that has reached some of the keys. -/
def torn (reached : κ → Bool) (settings current : Snapshot κ) : Snapshot κ :=
  fun key => if reached key then settings key else current key

def Desk.handle (fault : Fault κ) (w : Desk κ) (effect : Effect κ) :
    Desk κ × effect.Answer :=
  match effect, fault with
  | .load, .fine => (w, some w.journal)
  | .load, .fails _ => (w, none)
  | .read, .fine => (w, some w.settings)
  | .read, .fails _ => (w, none)
  | .write .rollback settings, _ => ({ w with settings := settings }, true)
  | .write _ settings, .fine => ({ w with settings := settings }, true)
  | .write _ settings, .fails reached =>
      ({ w with settings := torn reached settings w.settings }, false)
  | .save content, .fine => ({ w with journal := some content }, true)
  | .save _, .fails _ => (w, false)

variable (native : Option (Backend κ))

/-! ## What the controller keeps -/

/-- Applied settings are in place, or the original ones are already back. -/
structure Held (original : Snapshot κ) (w : Desk κ) (c : Controller κ) : Prop where
  before : c.state.applied ≠ none → c.state.before = some original
  named : c.state.applied ≠ none →
    ∃ backend, native = some backend ∧ backend.name = c.state.backend
  applied : ∀ settings, c.state.applied = some settings →
    w.settings = settings ∨ w.settings = original

/-- A controller that manages nothing has left the original settings. -/
def Settled (original : Snapshot κ) (w : Desk κ) (c : Controller κ) : Prop :=
  c.state.applied = none → w.settings = original

def Keeping (original : Snapshot κ) (w : Desk κ) (c : Controller κ) : Prop :=
  Held native original w c ∧ Settled original w c

section Keeping

variable {native} {original : Snapshot κ} {w : Desk κ} {c : Controller κ}

/-- What the controller keeps depends on the settings and its record only. -/
theorem Keeping.same {after : Desk κ} {other : Controller κ}
    (keeping : Keeping native original w c)
    (settings : after.settings = w.settings)
    (before : other.state.before = c.state.before)
    (applied : other.state.applied = c.state.applied)
    (backend : other.state.backend = c.state.backend) :
    Keeping native original after other := by
  obtain ⟨⟨kept, named, held⟩, settled⟩ := keeping
  refine ⟨⟨?_, ?_, ?_⟩, ?_⟩
  · rw [before, applied]
    exact kept
  · rw [backend, applied]
    exact named
  · rw [settings, applied]
    exact held
  · intro unmanaged
    rw [settings]
    exact settled (by rw [← applied]; exact unmanaged)

/-- Nothing is managed and the original settings are in place. -/
theorem keeping_back (settings : w.settings = original)
    (unmanaged : c.state.applied = none) : Keeping native original w c :=
  ⟨⟨absurd unmanaged, absurd unmanaged, by simp [unmanaged]⟩,
    fun _ => settings⟩

end Keeping

/-- A restoring write that fails has changed nothing or everything. -/
def Clean (w : Desk κ) : Effect κ → Fault κ → Prop
  | .write .restore settings, .fails reached =>
      torn reached settings w.settings = w.settings ∨
        torn reached settings w.settings = settings
  | _, _ => True

/-- A controller, its desktop and the settings the user had before the
controller first changed them. -/
structure Session (κ : Type) where
  desk : Desk κ
  controller : Controller κ
  original : Snapshot κ

/-- The user's settings, once a controller without applied settings acts. -/
def Session.user (s : Session κ) : Snapshot κ :=
  if s.controller.state.applied = none then s.desk.settings else s.original

/-- The controller keeps the user's settings. -/
def Session.Kept (s : Session κ) : Prop :=
  Held native s.original s.desk s.controller

theorem Session.Kept.keeping {native : Option (Backend κ)} {s : Session κ}
    (kept : s.Kept native) :
    Keeping native s.user s.desk s.controller := by
  unfold Session.user
  split_ifs with unmanaged
  · exact keeping_back rfl unmanaged
  · exact ⟨kept, fun unmanaged' => absurd unmanaged' unmanaged⟩

variable [Keys κ]

abbrev Ends (w : Desk κ) (program : Action κ (Outcome κ))
    (post : Desk κ → Outcome κ → Prop) : Prop :=
  Program.Ensures Desk.handle Clean (fun _ _ => True) post w program

/-! ## Operations -/

section Steps

variable {native} {original : Snapshot κ} {w : Desk κ} {c : Controller κ}

theorem forget_ends (settings : w.settings = original)
    (failure : Option Failure) :
    Ends w (c.forget failure) fun w outcome =>
      Keeping native original w outcome.1 := by
  simp only [Ends, Controller.forget, Program.perform_bind, Program.Ensures]
  refine ⟨trivial, fun fault _ => ?_⟩
  cases fault with
  | fine => exact keeping_back settings rfl
  | fails reached => exact keeping_back settings rfl

theorem selectConnection_ends (keeping : Keeping native original w c)
    (id : Text) :
    Ends w (c.selectConnection id) fun w outcome =>
      Keeping native original w outcome.1 := by
  simp only [Ends, Controller.selectConnection, Program.perform_bind,
    Program.Ensures]
  refine ⟨trivial, fun fault _ => ?_⟩
  cases fault with
  | fine => exact keeping.same rfl rfl rfl rfl
  | fails reached => exact keeping

/-- A failed write is rolled back, in the settings and in memory. -/
theorem manage_ends {backend : Backend κ}
    (keeping : Keeping (some backend) original w c) (endpoint : Text) :
    Ends w (c.manage backend endpoint w.settings) fun w outcome =>
      Keeping (some backend) original w outcome.1 := by
  have before : (if c.state.applied = none then some w.settings
      else c.state.before) = some original := by
    split_ifs with unmanaged
    · rw [keeping.2 unmanaged]
    · exact keeping.1.before unmanaged
  simp only [Ends, Controller.manage, Program.perform_bind, Program.Ensures,
    before]
  refine ⟨trivial, fun fault _ => ?_⟩
  cases fault with
  | fails reached => exact keeping
  | fine =>
      refine ⟨trivial, fun fault _ => ?_⟩
      cases fault with
      | fine =>
          refine ⟨⟨fun _ => rfl, fun _ => ⟨backend, rfl, rfl⟩, ?_⟩, fun unmanaged => ?_⟩
          · rintro settings ⟨⟩
            exact Or.inl rfl
          · cases unmanaged
      | fails reached =>
          refine ⟨trivial, fun _ _ => ⟨trivial, fun fault _ => ?_⟩⟩
          cases fault with
          | fine => exact keeping.same rfl rfl rfl rfl
          | fails reached => exact keeping.same rfl rfl rfl rfl

/-- Clearing drops the original settings only when it succeeds. -/
theorem clear_ends (keeping : Keeping native original w c) :
    Ends w (c.clear native) fun w outcome =>
      Held native original w outcome.1 ∧
        (outcome.2 ≠ none → Settled original w outcome.1) := by
  unfold Controller.clear
  cases native with
  | none => exact ⟨keeping.1, fun _ => keeping.2⟩
  | some backend =>
      simp only [Ends, Program.perform_bind, Program.Ensures]
      refine ⟨trivial, fun fault _ => ?_⟩
      cases fault with
      | fails reached => exact ⟨keeping.1, fun _ => keeping.2⟩
      | fine =>
          refine ⟨trivial, fun fault _ => ?_⟩
          cases fault with
          | fails reached =>
              refine ⟨trivial, fun _ _ => ?_⟩
              have back := @Keeping.same _ _ _ _ _ { w with settings := w.settings } _
                keeping rfl rfl rfl rfl
              exact ⟨back.1, fun _ => back.2⟩
          | fine =>
              refine ⟨trivial, fun fault _ => ?_⟩
              cases fault with
              | fine => exact ⟨⟨by simp, by simp, by simp⟩, by simp⟩
              | fails reached =>
                  refine ⟨trivial, fun _ _ => ?_⟩
                  exact ⟨keeping.1, fun _ => keeping.2⟩

variable [Fintype κ]

/-- Restoring leaves the original settings, or leaves everything as it was. -/
theorem putBack_ends (keeping : Keeping native original w c)
    (managed : c.state.applied ≠ none) :
    Ends w c.putBack fun w outcome => Keeping native original w outcome.1 := by
  have before := keeping.1.before managed
  simp only [Ends, Controller.putBack, Program.perform_bind, Program.Ensures]
  refine ⟨trivial, fun fault _ => ?_⟩
  cases fault with
  | fails reached => exact keeping
  | fine =>
      simp only [Desk.handle]
      split_ifs with same
      · simp only [before, Program.Ensures]
        refine ⟨trivial, fun fault clean => ?_⟩
        cases fault with
        | fine => exact forget_ends rfl none
        | fails reached =>
            refine ⟨⟨keeping.1.before, keeping.1.named, ?_⟩,
              fun unmanaged => absurd unmanaged managed⟩
            intro settings applied
            cases clean with
            | inl untouched =>
                left
                simpa [same, untouched, Desk.handle] using applied
            | inr whole => exact Or.inr whole
      · apply forget_ends
        obtain ⟨settings, applied⟩ := Option.ne_none_iff_exists'.mp managed
        cases keeping.1.applied settings applied with
        | inl inPlace => exact absurd (by rw [applied, inPlace]) same
        | inr back => exact back

theorem restore_ends (keeping : Keeping native original w c) :
    Ends w (c.restore native) fun w outcome =>
      Keeping native original w outcome.1 := by
  unfold Controller.restore
  split_ifs with unmanaged
  · exact keeping
  · obtain ⟨backend, rfl, named⟩ := keeping.1.named unmanaged
    simp only [named, ne_eq, not_true_eq_false, if_false]
    exact putBack_ends keeping unmanaged

theorem apply_ends (keeping : Keeping native original w c)
    (endpoint : Text) :
    Ends w (c.apply native endpoint) fun w outcome =>
      Keeping native original w outcome.1 := by
  unfold Controller.apply
  cases native with
  | none => exact keeping
  | some backend =>
      simp only [Ends, Program.perform_bind, Program.Ensures]
      refine ⟨trivial, fun fault _ => ?_⟩
      cases fault with
      | fails reached => exact keeping
      | fine =>
          simp only [Desk.handle]
          split_ifs with changed
          · obtain ⟨settings, applied⟩ :=
              Option.ne_none_iff_exists'.mp changed.1
            have back : w.settings = original := by
              cases keeping.1.applied settings applied with
              | inl inPlace =>
                  exact absurd (by rw [applied, inPlace]) changed.2
              | inr back => exact back
            refine ⟨trivial, fun fault _ => ?_⟩
            cases fault with
            | fine => exact keeping_back back rfl
            | fails reached => exact keeping_back back rfl
          · exact manage_ends keeping endpoint

theorem record_ends (keeping : Keeping native original w c) (mode : Mode)
    (endpoint : Text) :
    Ends w (c.record native mode endpoint) fun w outcome =>
      Keeping native original w outcome.1 := by
  simp only [Ends, Controller.record, Program.perform_bind, Program.Ensures]
  refine ⟨trivial, fun fault _ => ?_⟩
  cases fault with
  | fails reached => exact keeping
  | fine =>
      simp only [Desk.handle, if_true]
      split_ifs
      · apply apply_ends
        exact keeping.same rfl rfl rfl rfl
      · exact keeping.same rfl rfl rfl rfl

theorem setMode_ends (keeping : Keeping native original w c)
    (mode endpoint : Text) :
    Ends w (c.setMode native mode endpoint) fun w outcome =>
      Keeping native original w outcome.1 := by
  unfold Controller.setMode
  cases Mode.ofText mode with
  | none => exact keeping
  | some mode =>
      cases mode with
      | auto =>
          simp only
          split_ifs
          · exact keeping
          · exact record_ends keeping .auto endpoint
      | keep =>
          rw [Ends, Program.ensures_bind]
          apply (restore_ends keeping).mono
          · exact fun _ _ cut => cut
          · rintro w ⟨restored, failure⟩ keeping
            simp only
            split_ifs
            · exact record_ends keeping .keep endpoint
            · exact keeping

theorem call_ends (keeping : Keeping native original w c) (call : Call) :
    Ends w (call.program native c) fun w outcome =>
      Held native original w outcome.1 ∧
        (outcome.2 ≠ none → Settled original w outcome.1) := by
  have weaken {program : Action κ (Outcome κ)}
      (ends : Ends w program fun w outcome =>
        Keeping native original w outcome.1) :
      Ends w program fun w outcome =>
        Held native original w outcome.1 ∧
          (outcome.2 ≠ none → Settled original w outcome.1) :=
    ends.mono (fun _ _ cut => cut) fun _ _ kept => ⟨kept.1, fun _ => kept.2⟩
  cases call with
  | setMode mode endpoint => exact weaken (setMode_ends keeping mode endpoint)
  | apply endpoint =>
      simp only [Call.program, Controller.applyNow]
      split_ifs
      · exact weaken (apply_ends keeping endpoint)
      · exact ⟨keeping.1, fun _ => keeping.2⟩
  | restore =>
      apply weaken
      simp only [Call.program, Controller.restoreNow]
      rw [Ends, Program.ensures_bind]
      apply (restore_ends keeping).mono
      · exact fun _ _ cut => cut
      · rintro w ⟨restored, failure⟩ kept
        exact kept.same rfl rfl rfl rfl
  | clear => exact clear_ends keeping
  | selectConnection id => exact weaken (selectConnection_ends keeping id)

end Steps

/-! ## Runs -/

variable [Fintype κ]

def Session.call (s : Session κ) (call : Call) (faults : List (Fault κ)) :
    Desk κ × Except (Effect κ) (Outcome κ) :=
  (call.program native s.controller).run Desk.handle faults s.desk

/-- A controller that is called again and again, with some faults. -/
def calls : Machine (Session κ) (Call × List (Fault κ)) where
  start s := s.controller.state.applied = none
  step s action :=
    match s.call native action.1 action.2 with
    | (desk, .ok (c, _)) => some ⟨desk, c, s.user⟩
    | (_, .error _) => none

instance : (w : Desk κ) → (effect : Effect κ) → (fault : Fault κ) →
    Decidable (Clean w effect fault)
  | w, .write .restore settings, .fails reached => inferInstanceAs
      (Decidable (torn reached settings w.settings = w.settings ∨
        torn reached settings w.settings = settings))
  | _, .write .restore _, .fine => isTrue trivial
  | _, .load, _ | _, .read, _ | _, .save _, _ => isTrue trivial
  | _, .write .apply _, _ | _, .write .clear _, _
  | _, .write .rollback _, _ => isTrue trivial

def Unbroken (s : Session κ) (action : Call × List (Fault κ)) : Prop :=
  (action.1.program native s.controller).Allowed Desk.handle Clean action.2
    s.desk

instance (s : Session κ) (action : Call × List (Fault κ)) :
    Decidable (Unbroken native s action) :=
  inferInstanceAs (Decidable (Program.Allowed _ Clean _ _ _))

variable {native}

theorem kept_run {s : Session κ}
    (reached : (calls native).ReachableBy (Unbroken native) s) :
    s.Kept native := by
  apply reached.invariant
  · intro s unmanaged
    have nothing : s.controller.state.applied = none := unmanaged
    exact ⟨absurd nothing, absurd nothing, by simp [nothing]⟩
  · rintro s ⟨call, faults⟩ next _ kept unbroken taken
    have left := Program.ensures_run (call_ends kept.keeping call) unbroken
    simp only [calls, Session.call] at taken
    split at taken
    next desk c failure ran =>
      obtain rfl := Option.some.inj taken
      rw [ran] at left
      exact left.1
    next => simp at taken

end Veil.Proxy

import Veil.Proxy.World

/-!
# What the journal says of the settings

Between two steps of any operation the journal describes the settings in
place, except between the journal and the write of new settings over settings
the controller already manages.  Each operation keeps this, and after a whole
operation memory agrees with the journal.
-/

namespace Veil.Proxy

open Lib

variable {κ : Type} [Keys κ] (native : Option (Backend κ))

/-! ## What a journal says -/

/-- The journals an `Open` accepts are no longer than it reads. -/
def Small : World κ → Effect κ → Unit → Prop
  | _, .save content, _ => content.bytes ≤ maxJournal
  | _, _, _ => True

instance : (w : World κ) → (effect : Effect κ) → (choice : Unit) →
    Decidable (Small w effect choice)
  | _, .save content, _ => inferInstanceAs (Decidable (content.bytes ≤ maxJournal))
  | _, .load, _ | _, .read, _ | _, .write _ _, _ => isTrue trivial

/-- A record of applied settings can be recovered from. -/
structure Kept (state : Record κ) : Prop where
  small : state.encode.bytes ≤ maxJournal
  before : state.before ≠ none
  named : ∃ backend, native = some backend ∧ backend.name = state.backend

structure Sound (w : World κ) (journal : Option (Record κ)) : Prop where
  content : w.journal = journal.map Record.encode
  kept : ∀ state ∈ journal, state.applied ≠ none → Kept native state
  owned : ∀ original, w.writer = .applied original →
    ∃ state ∈ journal, state.applied = some w.settings ∧
      state.before = some original
  spared : w.writer = .other → ∀ state ∈ journal,
    state.applied = some w.settings → state.before = some w.settings

/-- Memory agrees with the journal, and the settings it manages are applied. -/
structure Live (w : World κ) (c : Controller κ)
    (journal : Option (Record κ)) : Prop where
  state : c.state = journal.getD {}
  held : c.state.applied = some w.settings →
    ∃ original, w.writer = .applied original

/-- What a step may be cut at: anything but the write of new settings over
settings the controller already manages. -/
def Cut (c : Controller κ) (w : World κ) (effect : Effect κ) : Prop :=
  (∀ settings, effect = .write .apply settings →
      c.state.applied = none ∨ settings = w.settings) →
    ∃ journal, Sound native w journal

/-- What an operation leaves. -/
def After (w : World κ) (outcome : Outcome κ) : Prop :=
  ∃ journal, Sound native w journal ∧ Live w outcome.1 journal

abbrev Keeps (c : Controller κ) (w : World κ)
    (program : Action κ (Outcome κ)) : Prop :=
  Program.Ensures World.handle Small (Cut native c) (After native) w program

variable {native} {c : Controller κ} {w : World κ}
  {journal : Option (Record κ)}

theorem Sound.cut (sound : Sound native w journal) (effect : Effect κ) :
    Cut native c w effect :=
  fun _ => ⟨journal, sound⟩

theorem Sound.after (sound : Sound native w journal)
    (live : Live w c journal) (failure : Option Failure) :
    After native w (c, failure) :=
  ⟨journal, sound, live⟩

/-- A record with nothing applied is sound where no applied settings are in
place. -/
theorem sound_forgotten (native : Option (Backend κ)) (state : Record κ)
    (applied : state.applied = none)
    (notOwned : ∀ original, w.writer ≠ .applied original) :
    Sound native { w with journal := some state.encode } (some state) where
  content := rfl
  kept := by simp [applied]
  owned original writer := absurd writer (notOwned original)
  spared _ := by simp [applied]

/-- Saving a record that differs in its mode or its connection only. -/
theorem Sound.saved (sound : Sound native w journal)
    (live : Live w c journal) (state : Record κ)
    (before : state.before = c.state.before)
    (applied : state.applied = c.state.applied)
    (backend : state.backend = c.state.backend)
    (small : state.encode.bytes ≤ maxJournal) :
    Sound native { w with journal := some state.encode } (some state) := by
  have member : c.state.applied ≠ none → c.state ∈ journal := by
    intro managed
    cases journal with
    | none => simp [live.state] at managed
    | some saved => simp [live.state]
  constructor
  · rfl
  · rintro state ⟨⟩ managed
    rw [applied] at managed
    have kept := sound.kept _ (member managed) managed
    exact ⟨small, by rw [before]; exact kept.before, by
      rw [backend]; exact kept.named⟩
  · intro original writer
    obtain ⟨saved, inside, managed, kept⟩ := sound.owned original writer
    have same : c.state = saved := by
      rw [live.state, Option.mem_def.mp inside, Option.getD_some]
    exact ⟨state, rfl, by rw [applied, same]; exact managed, by
      rw [before, same]; exact kept⟩
  · rintro writer state ⟨⟩ managed
    rw [applied] at managed
    rw [before]
    exact sound.spared writer _ (member (by simp [managed])) managed

theorem Live.saved (live : Live w c journal) (state : Record κ)
    (applied : state.applied = c.state.applied) (error : Option Failure) :
    Live { w with journal := some state.encode } ⟨state, error⟩
      (some state) where
  state := rfl
  held managed := live.held (by rw [← applied]; exact managed)

/-- Once settings are put back, nothing owned is in place. -/
theorem Sound.undone (sound : Sound native w journal)
    (settings : Snapshot κ) :
    Sound native { w with settings := settings, writer := .undone }
      journal where
  content := sound.content
  kept := sound.kept
  owned _ := nofun
  spared := nofun

/-! ## Operations -/

theorem selectConnection_keeps (sound : Sound native w journal)
    (live : Live w c journal) (id : Text) :
    Keeps native c w (c.selectConnection id) := by
  simp only [Keeps, Controller.selectConnection, Program.perform_bind,
    Program.Ensures]
  refine ⟨sound.cut _, fun _ small => ?_⟩
  have saved := sound.saved live { c.state with connection := id }
    rfl rfl rfl small
  exact saved.after
    (live.saved { c.state with connection := id } rfl c.lastError) none

/-- The settings were put back, or were never this controller's. -/
theorem forget_keeps (sound : Sound native w journal)
    (notOwned : ∀ original, w.writer ≠ .applied original)
    (failure : Option Failure) {first : Controller κ} :
    Keeps native first w (c.forget failure) := by
  simp only [Keeps, Controller.forget, Program.perform_bind, Program.Ensures]
  refine ⟨sound.cut _, fun _ _ => ?_⟩
  have forgotten := sound_forgotten native
    { c.state with before := none, applied := none } rfl notOwned
  exact forgotten.after ⟨rfl, by simp⟩ failure

/-- The settings a controller manages are replaced by others: the journal is
ahead of them until they are written. -/
theorem manage_keeps {backend : Backend κ} (sound : Sound (some backend) w journal)
    (live : Live w c journal) (endpoint : Text)
    (same : c.state.applied = none ∨ c.state.applied = some w.settings) :
    Keeps (some backend) c w (c.manage backend endpoint w.settings) := by
  set next := backend.manual w.settings endpoint with isNext
  set before := if c.state.applied = none then some w.settings
    else c.state.before with isBefore
  set state : Record κ :=
    { c.state with before := before, applied := some next,
                   backend := backend.name } with isState
  have member : c.state.applied ≠ none → c.state ∈ journal := by
    intro managed
    cases journal with
    | none => simp [live.state] at managed
    | some saved => simp [live.state]
  have present : before ≠ none := by
    rw [isBefore]
    split_ifs with unmanaged
    · simp
    · exact (sound.kept _ (member unmanaged) unmanaged).before
  simp only [Keeps, Controller.manage, Program.perform_bind, Program.Ensures,
    World.handle, if_true]
  refine ⟨sound.cut _, fun _ small => ⟨?_, fun _ _ => ?_⟩⟩
  · -- cut between the journal and the write
    intro allowed
    have quiet := allowed next rfl
    refine ⟨some state, rfl, ?_, ?_, ?_⟩
    · rintro _ ⟨⟩ _
      exact ⟨small, present, backend, rfl, rfl⟩
    · intro original writer
      obtain ⟨saved, inside, applied, kept⟩ := sound.owned original writer
      have isSaved : c.state = saved := by
        rw [live.state, Option.mem_def.mp inside, Option.getD_some]
      subst isSaved
      have unchanged : next = w.settings := by
        simpa [applied] using quiet
      refine ⟨state, rfl, by rw [isState, unchanged], ?_⟩
      simp [isState, isBefore, applied, kept]
    · rintro writer _ ⟨⟩ applied
      have unmanaged : c.state.applied = none := by
        cases same with
        | inl none => exact none
        | inr managed =>
            obtain ⟨original, owner⟩ := live.held managed
            simp [owner] at writer
      simp [isState, isBefore, unmanaged]
  · refine ⟨some state, ⟨rfl, ?_, ?_, ?_⟩, rfl, ?_⟩
    · rintro _ ⟨⟩ _
      exact ⟨small, present, backend, rfl, rfl⟩
    · intro original writer
      obtain ⟨first, wrote, owner⟩ := w.wrote_apply
      simp only [World.wrote_journal, wrote, Writer.applied.injEq] at writer
      subst writer
      refine ⟨state, rfl, rfl, ?_⟩
      cases owner with
      | inl owner =>
          obtain ⟨saved, inside, applied, kept⟩ := sound.owned first owner
          have isSaved : c.state = saved := by
            rw [live.state, Option.mem_def.mp inside, Option.getD_some]
          subst isSaved
          simp [isState, isBefore, applied, kept]
      | inr owner =>
          have unmanaged : c.state.applied = none := by
            cases same with
            | inl none => exact none
            | inr managed =>
                obtain ⟨original, writer⟩ := live.held managed
                exact absurd writer (owner.2 original)
          simp [isState, isBefore, unmanaged, owner.1]
    · intro writer
      obtain ⟨first, wrote, _⟩ := w.wrote_apply
      simp [wrote] at writer
    · intro _
      obtain ⟨first, wrote, _⟩ := w.wrote_apply
      exact ⟨first, by simpa using wrote⟩

theorem clear_keeps (sound : Sound native w journal)
    (live : Live w c journal) :
    Keeps native c w (c.clear native) := by
  unfold Controller.clear
  cases native with
  | none => exact sound.after live _
  | some backend =>
      simp only [Keeps, Program.perform_bind, Program.Ensures, World.handle,
        if_true]
      refine ⟨sound.cut _, fun _ _ => ⟨sound.cut _, fun _ _ =>
        ⟨(sound.undone _).cut _, fun _ _ => ?_⟩⟩⟩
      have cleared := sound_forgotten (some backend)
        (w := ⟨backend.direct w.settings, w.journal, .undone⟩)
        { connection := c.state.connection } rfl (by simp)
      exact cleared.after ⟨rfl, by simp⟩ none

variable [Fintype κ]

theorem restore_keeps (sound : Sound native w journal)
    (state : c.state = journal.getD {}) {first : Controller κ} :
    Keeps native first w (c.restore native) := by
  unfold Controller.restore
  split_ifs with unmanaged
  · exact sound.after ⟨state, by simp [unmanaged]⟩ none
  have member : c.state ∈ journal := by
    cases journal with
    | none => simp [state] at unmanaged
    | some saved => simp [state]
  have kept := sound.kept _ member unmanaged
  obtain ⟨backend, rfl, named⟩ := kept.named
  obtain ⟨before, isBefore⟩ := Option.ne_none_iff_exists'.mp kept.before
  simp only [named, ne_eq, not_true_eq_false, if_false]
  simp only [Keeps, Controller.putBack, Program.perform_bind, Program.Ensures,
    World.handle]
  refine ⟨sound.cut _, fun _ _ => ?_⟩
  split_ifs with same
  · simp only [isBefore, Program.Ensures, World.handle, if_true]
    refine ⟨sound.cut _, fun _ _ => ?_⟩
    exact forget_keeps (sound.undone before) (by simp) none
  · apply forget_keeps sound
    intro original writer
    obtain ⟨saved, inside, applied, _⟩ := sound.owned original writer
    obtain rfl : c.state = saved := Option.mem_unique member inside
    exact same applied

theorem apply_keeps (sound : Sound native w journal)
    (live : Live w c journal) (endpoint : Text) :
    Keeps native c w (c.apply native endpoint) := by
  unfold Controller.apply
  cases native with
  | none => exact sound.after live _
  | some backend =>
      simp only [Keeps, Program.perform_bind, Program.Ensures, World.handle]
      refine ⟨sound.cut _, fun _ _ => ?_⟩
      split_ifs with changed
      · simp only [Program.Ensures, World.handle, if_true]
        refine ⟨sound.cut _, fun _ _ => ?_⟩
        have notOwned (original : Snapshot κ) :
            w.writer ≠ .applied original := by
          intro writer
          obtain ⟨saved, inside, applied, _⟩ := sound.owned original writer
          have isSaved : c.state = saved := by
            rw [live.state, Option.mem_def.mp inside, Option.getD_some]
          exact changed.2 (isSaved ▸ applied)
        have forgotten := sound_forgotten (some backend)
          { c.state with before := none, applied := none } rfl notOwned
        exact forgotten.after ⟨rfl, by simp⟩ _
      · apply manage_keeps sound live endpoint
        by_cases unmanaged : c.state.applied = none
        · exact Or.inl unmanaged
        · exact Or.inr (by simpa [unmanaged] using changed)

theorem record_keeps (sound : Sound native w journal)
    (live : Live w c journal) (mode : Mode) (endpoint : Text)
    {first : Controller κ}
    (same : mode = .auto → first.state.applied = c.state.applied) :
    Keeps native first w (c.record native mode endpoint) := by
  simp only [Keeps, Controller.record, Program.perform_bind, Program.Ensures,
    World.handle, if_true]
  refine ⟨sound.cut _, fun _ small => ?_⟩
  have saved := sound.saved live { c.state with mode := mode }
    rfl rfl rfl small
  have lives := live.saved { c.state with mode := mode } rfl none
  split_ifs with applies
  · apply Program.Ensures.mono (apply_keeps saved lives endpoint)
    · intro w effect cut spared
      apply cut
      intro settings isWrite
      simpa [same applies.1] using spared settings isWrite
    · exact fun _ _ after => after
  · exact saved.after lives none

theorem setMode_keeps (sound : Sound native w journal)
    (live : Live w c journal) (mode endpoint : Text) :
    Keeps native c w (c.setMode native mode endpoint) := by
  unfold Controller.setMode
  cases Mode.ofText mode with
  | none => exact sound.after live _
  | some mode =>
      cases mode with
      | auto =>
          simp only
          split_ifs
          · exact sound.after live _
          · exact record_keeps sound live .auto endpoint fun _ => rfl
      | keep =>
          rw [Keeps, Program.ensures_bind]
          apply Program.Ensures.mono (restore_keeps sound live.state)
          · exact fun _ _ cut => cut
          · rintro w ⟨restored, failure⟩ ⟨journal, sound, live⟩
            simp only
            split_ifs
            · exact record_keeps sound live .keep endpoint nofun
            · exact sound.after live _

/-- Every call keeps journal and settings in step. -/
theorem call_keeps (sound : Sound native w journal)
    (live : Live w c journal) (call : Call) :
    Keeps native c w (call.program native c) := by
  cases call with
  | setMode mode endpoint => exact setMode_keeps sound live mode endpoint
  | apply endpoint =>
      simp only [Call.program, Controller.applyNow]
      split_ifs
      · exact apply_keeps sound live endpoint
      · exact sound.after live none
  | restore =>
      simp only [Call.program, Controller.restoreNow]
      rw [Keeps, Program.ensures_bind]
      apply Program.Ensures.mono (restore_keeps sound live.state)
      · exact fun _ _ cut => cut
      · rintro w ⟨restored, failure⟩ ⟨journal, sound, live⟩
        have lives : Live w ⟨restored.state, failure⟩ journal :=
          ⟨live.state, live.held⟩
        exact ⟨journal, sound, lives⟩
  | clear => exact clear_keeps sound live
  | selectConnection id => exact selectConnection_keeps sound live id

/-- A new process finds settings that are in step with its journal. -/
theorem open_keeps (sound : Sound native w journal) :
    Program.Ensures World.handle Small
      (fun w _ => ∃ journal, Sound native w journal)
      (fun w result => ∃ journal, Sound native w journal ∧
        ∀ c, result = .ok c → Live w c journal)
      w (openController native) := by
  simp only [openController, Program.perform_bind, Program.Ensures,
    World.handle]
  refine ⟨⟨journal, sound⟩, fun _ _ => ?_⟩
  cases journal with
  | none =>
      simp only [sound.content, Option.map_none, Program.pure_eq,
        Program.Ensures]
      refine ⟨none, sound, ?_⟩
      rintro c ⟨⟩
      exact ⟨rfl, by simp⟩
  | some state =>
      simp only [sound.content, Option.map_some, Record.decode_encode]
      obtain large | fits := Nat.lt_or_ge maxJournal state.encode.bytes
      · rw [if_pos large]
        exact ⟨some state, sound, by simp⟩
      · rw [if_neg (Nat.not_lt.mpr fits)]
        have restores : Keeps native ⟨{}, none⟩ w
            ((⟨state, none⟩ : Controller κ).restore native) :=
          restore_keeps sound rfl
        rw [Program.ensures_bind]
        apply restores.mono
        · intro w effect cut
          exact cut fun _ _ => Or.inl rfl
        · rintro w ⟨restored, failure⟩ ⟨journal, sound, live⟩
          refine ⟨journal, sound, ?_⟩
          rintro c ⟨⟩
          exact ⟨live.state, live.held⟩

end Veil.Proxy

import Veil.Proxy.Desktop
import Veil.Proxy.Journal

/-!
# Crash recovery of the desktop's settings

`open_recovers` states what the next `Open` does with settings this controller
applied and with settings another application wrote.
-/

namespace Veil.Proxy

open Lib

variable {κ : Type} [Keys κ]

/-! ## Opening -/

section Opening

variable {native : Option (Backend κ)} {c : Controller κ} {w : World κ}
  {journal : Option (Record κ)}

/-- What recovery does with the settings in place. -/
def Recovered (w after : World κ) : Prop :=
  (∀ original, w.writer = .applied original → after.settings = original) ∧
    (w.writer = .other → after.settings = w.settings)

theorem Sound.untouched (sound : Sound native w journal)
    (unmanaged : ∀ state ∈ journal, state.applied ≠ some w.settings) :
    Recovered w w := by
  constructor
  · intro original writer
    obtain ⟨saved, inside, applied, _⟩ := sound.owned original writer
    exact absurd applied (unmanaged saved inside)
  · exact fun _ => rfl

theorem forget_settings (failure : Option Failure) :
    Program.Ensures World.handle (fun _ _ _ => True) (fun _ _ => True)
      (fun after _ => after.settings = w.settings) w (c.forget failure) := by
  simp [Controller.forget, Program.Ensures, World.handle]

variable [Fintype κ]

theorem restore_recovers {state : Record κ} (sound : Sound native w (some state)) :
    Program.Ensures World.handle (fun _ _ _ => True) (fun _ _ => True)
      (fun after _ => Recovered w after) w
      ((⟨state, none⟩ : Controller κ).restore native) := by
  unfold Controller.restore
  split_ifs with unmanaged
  · have nothing : state.applied = none := unmanaged
    exact sound.untouched (by simp [nothing])
  obtain ⟨backend, rfl, named⟩ := (sound.kept _ rfl unmanaged).named
  obtain ⟨before, isBefore⟩ :=
    Option.ne_none_iff_exists'.mp (sound.kept _ rfl unmanaged).before
  simp only [named, ne_eq, not_true_eq_false, if_false]
  simp only [Controller.putBack, Program.perform_bind, Program.Ensures,
    World.handle]
  refine ⟨trivial, fun _ _ => ?_⟩
  split_ifs with same
  · simp only [isBefore, Program.Ensures, World.handle, if_true]
    refine ⟨trivial, fun _ _ => ?_⟩
    apply Program.Ensures.mono (forget_settings _)
    · exact fun _ _ cut => cut
    · intro after _ written
      have isRecovered : Recovered w { after with settings := before } := by
        constructor
        · intro original writer
          obtain ⟨saved, inside, _, kept⟩ := sound.owned original writer
          obtain rfl : state = saved := by simpa using inside
          simpa [isBefore] using kept
        · intro writer
          have kept := sound.spared writer state rfl same
          simpa [isBefore] using kept
      simpa [Recovered, written] using isRecovered
  · apply Program.Ensures.mono (forget_settings _)
    · exact fun _ _ cut => cut
    · intro after _ written
      have isRecovered := sound.untouched
        (by simpa using same)
      simpa [Recovered, written] using isRecovered

end Opening

variable [Fintype κ] (native : Option (Backend κ))

/-- The world once the next `Open` has finished. -/
def World.opened (w : World κ) : World κ :=
  ((openController native).complete World.handle () w).1

theorem Sound.opened {native : Option (Backend κ)} {w : World κ}
    {journal : Option (Record κ)} (sound : Sound native w journal) :
    Recovered w (w.opened native) := by
  have ensures : Program.Ensures World.handle (fun _ _ _ => True)
      (fun _ _ => True) (fun after _ => Recovered w after) w
      (openController native) := by
    simp only [openController, Program.perform_bind, Program.Ensures,
      World.handle]
    refine ⟨trivial, fun _ _ => ?_⟩
    cases journal with
    | none =>
        simp only [sound.content, Option.map_none, Program.pure_eq,
          Program.Ensures]
        exact sound.untouched (by simp)
    | some state =>
        simp only [sound.content, Option.map_some, Record.decode_encode]
        obtain large | fits := Nat.lt_or_ge maxJournal state.encode.bytes
        · rw [if_pos large]
          apply sound.untouched
          rintro _ ⟨⟩ managed
          have kept := sound.kept state rfl (by simp [managed])
          exact absurd kept.small (Nat.not_le.mpr large)
        · rw [if_neg (Nat.not_lt.mpr fits), Program.ensures_bind]
          apply (restore_recovers sound).mono
          · exact fun _ _ cut => cut
          · exact fun _ _ recovered => recovered
  exact Program.ensures_complete ensures fun _ _ => trivial

/-! ## Runs -/

/-- The settings a journal holds as applied. -/
def recorded (journal : Option Text) : Option (Snapshot κ) :=
  match journal.map Record.decode with
  | some (.ok state) => state.applied
  | _ => none

/-- The process did not end between the journal and the write of an apply that
replaces managed settings by others. -/
def uncut (c : Controller κ) :
    World κ × Except (Effect κ) (Outcome κ) → Bool
  | (w, .error (.write .apply settings)) =>
      c.state.applied = none ∨ settings = w.settings
  | _ => true

/--
What a run is spared: no other application writes exactly the settings the
journal holds as applied, no process ends between the journal and the write of
an apply that replaces managed settings by others, and no journal is saved
that `Open` refuses to read.
-/
def Spares (s : State κ) (event : Event κ) : Prop :=
  match event, s.memory with
  | .start steps, _ =>
      (openController native).Allowed World.handle Small
        (List.replicate steps ()) s.world
  | .call call steps, some c =>
      (call.program native c).Allowed World.handle Small
          (List.replicate steps ()) s.world ∧
        uncut c (s.world.runFor steps (call.program native c)) = true
  | .change settings, _ => recorded s.world.journal ≠ some settings
  | .call _ _, none | .exit, _ => True

instance (s : State κ) (event : Event κ) : Decidable (Spares native s event) :=
  match event, memory : s.memory with
  | .start steps, _ => decidable_of_iff
      ((openController native).Allowed World.handle Small
        (List.replicate steps ()) s.world) (by simp [Spares])
  | .call call steps, some c => decidable_of_iff
      ((call.program native c).Allowed World.handle Small
          (List.replicate steps ()) s.world ∧
        uncut c (s.world.runFor steps (call.program native c)) = true)
      (by simp [Spares, memory])
  | .change settings, _ => decidable_of_iff
      (recorded s.world.journal ≠ some settings) (by simp [Spares])
  | .call _ _, none => isTrue (by simp [Spares, memory])
  | .exit, _ => isTrue (by simp [Spares])

/-- The journal describes the settings in place, and memory the journal. -/
def Consistent (s : State κ) : Prop :=
  ∃ journal, Sound native s.world journal ∧
    ∀ c ∈ s.memory, Live s.world c journal

variable {native}

theorem consistent_step {s next : State κ} {event : Event κ}
    (consistent : Consistent native s) (spares : Spares native s event)
    (taken : step native s event = some next) : Consistent native next := by
  obtain ⟨journal, sound, lives⟩ := consistent
  cases event with
  | start steps =>
      have left := Program.ensures_run (open_keeps sound)
        (by simpa [Spares] using spares)
      cases memory : s.memory with
      | some c => simp [step, memory] at taken
      | none =>
          simp only [step, memory, World.runFor] at taken
          split at taken
          next w c result =>
            obtain rfl := Option.some.inj taken
            rw [result] at left
            obtain ⟨journal, sound, live⟩ := left
            refine ⟨journal, sound, ?_⟩
            rintro _ ⟨⟩
            exact live c rfl
          next w result other run =>
            obtain rfl := Option.some.inj taken
            rw [run] at left
            cases result with
            | error effect =>
                obtain ⟨journal, sound⟩ := left
                exact ⟨journal, sound, by simp⟩
            | ok outcome =>
                obtain ⟨journal, sound, _⟩ := left
                exact ⟨journal, sound, by simp⟩
  | call call steps =>
      cases memory : s.memory with
      | none => simp [step, memory] at taken
      | some c =>
          simp only [Spares, memory] at spares
          obtain ⟨allowed, isUncut⟩ := spares
          have left := Program.ensures_run
            (call_keeps sound (lives c memory) call) allowed
          simp only [step, memory] at taken
          split at taken
          next w c failure result =>
            obtain rfl := Option.some.inj taken
            rw [World.runFor] at result
            rw [result] at left
            obtain ⟨journal, sound, live⟩ := left
            exact ⟨journal, sound, by simpa using live⟩
          next w effect result =>
            obtain rfl := Option.some.inj taken
            rw [result] at isUncut
            rw [World.runFor] at result
            rw [result] at left
            obtain ⟨journal, sound⟩ := left fun settings isWrite => by
              subst isWrite
              simpa [uncut] using isUncut
            exact ⟨journal, sound, by simp⟩
  | exit =>
      obtain rfl := Option.some.inj taken
      exact ⟨journal, sound, by simp⟩
  | change settings =>
      obtain rfl := Option.some.inj taken
      have other : ∀ state ∈ journal, state.applied ≠ some settings := by
        rintro state ⟨⟩
        simpa [Spares, recorded, sound.content] using spares
      refine ⟨journal, ⟨sound.content, sound.kept, nofun, ?_⟩, ?_⟩
      · exact fun _ state inside managed =>
          absurd managed (other state inside)
      · intro c inside
        have live := lives c inside
        refine ⟨live.state, fun managed => ?_⟩
        cases journal with
        | none => simp [live.state] at managed
        | some state =>
            exact absurd (by simpa [live.state] using managed)
              (other state rfl)

theorem consistent_run {s : State κ}
    (reached : (desktop native).ReachableBy (Spares native) s) :
    Consistent native s := by
  apply reached.invariant
  · rintro s ⟨memory, journal, writer⟩
    exact ⟨none, ⟨journal, nofun, by simp [writer], nofun⟩, by simp [memory]⟩
  · exact fun _ _ _ _ consistent spares taken =>
      consistent_step consistent spares taken

/--
In a run that is spared, the next `Open` sets settings the controller applied
back to those from before its first apply, and leaves the settings another
application wrote.
-/
theorem open_recovers {s : State κ}
    (reached : (desktop native).ReachableBy (Spares native) s) :
    (∀ original, s.world.writer = .applied original →
        (s.world.opened native).settings = original) ∧
      (s.world.writer = .other →
        (s.world.opened native).settings = s.world.settings) := by
  obtain ⟨journal, sound, _⟩ := consistent_run reached
  exact sound.opened

/-! ## Runs on one desktop -/

/-- A desktop that is configured by a script. -/
def scripted : Snapshot WindowsKey
  | .bypass => []
  | .flags => "5".toList
  | .pac => "http://pac".toList
  | .server => []

def scriptedDesktop : State WindowsKey :=
  ⟨⟨scripted, none, .other⟩, none⟩

/-- A process that points the desktop at its first endpoint. -/
def managed : List (Event WindowsKey) :=
  [.start 1, .call (.setMode "auto".toList "127.0.0.1:1080".toList) 4]

theorem scriptedDesktop_start :
    (desktop (some wininet)).start scriptedDesktop :=
  ⟨rfl, rfl, rfl⟩

/-- What is in place was applied over these settings. -/
def appliedOver (original : Snapshot WindowsKey) (s : State WindowsKey) :
    Bool :=
  match s.world.writer with
  | .applied first => first = original
  | _ => false

theorem open_recovers_managed :
    ∃ s, appliedOver scripted s = true ∧
      ((∀ original, s.world.writer = .applied original →
          (s.world.opened (some wininet)).settings = original) ∧
        (s.world.writer = .other →
          (s.world.opened (some wininet)).settings = s.world.settings)) := by
  have ran : ((desktop (some wininet)).runBy (Spares (some wininet))
      scriptedDesktop (managed ++ [.exit])).map (appliedOver scripted) =
      some true := by
    decide +kernel
  obtain ⟨s, run, applied⟩ := Option.map_eq_some_iff.mp ran
  have reached := Machine.runBy_reachableBy
    (.start scriptedDesktop_start) run
  exact ⟨s, applied, open_recovers reached⟩

/-- The process ends between the journal and the write of a second endpoint. -/
def reapplied : List (Event WindowsKey) :=
  managed ++ [.call (.apply "127.0.0.1:1081".toList) 2]

/-- Another application sets its own proxy, then the one that was applied. -/
def rewritten : List (Event WindowsKey) :=
  managed ++ [.change scripted,
    .change (wininet.manual scripted "127.0.0.1:1080".toList), .exit]

/-- The next `Open` leaves the applied settings in place. -/
def staysApplied (s : State WindowsKey) : Bool :=
  s.memory.isNone &&
    match s.world.writer with
    | .applied original => (s.world.opened (some wininet)).settings ≠ original
    | _ => false

/-- The next `Open` changes what another application wrote. -/
def overwrites (s : State WindowsKey) : Bool :=
  s.memory.isNone &&
    match s.world.writer with
    | .other => (s.world.opened (some wininet)).settings ≠ s.world.settings
    | _ => false

theorem open_forgets :
    (∃ s, (desktop (some wininet)).Reachable s ∧ staysApplied s = true) ∧
      ∃ s, (desktop (some wininet)).Reachable s ∧ overwrites s = true := by
  have started : (desktop (some wininet)).Reachable scriptedDesktop :=
    .start scriptedDesktop_start
  have first : ((desktop (some wininet)).run scriptedDesktop reapplied).map
      staysApplied = some true := by
    decide +kernel
  have second : ((desktop (some wininet)).run scriptedDesktop rewritten).map
      overwrites = some true := by
    decide +kernel
  obtain ⟨s, run, stays⟩ := Option.map_eq_some_iff.mp first
  obtain ⟨t, other, overwritten⟩ := Option.map_eq_some_iff.mp second
  exact ⟨⟨s, Machine.run_reachable started run, stays⟩,
    ⟨t, Machine.run_reachable started other, overwritten⟩⟩

end Veil.Proxy

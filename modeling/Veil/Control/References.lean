import Veil.Control.Proposal

/-!
# References between stored profiles

Whatever requests are made, and whether they fail or not, the store keeps its
references: IDs, the relays that connections go through, and the counts.
-/

namespace Veil.Control

open Lib

/-- The references of a store are in order. -/
structure Referential (m : Profiles) : Prop where
  keyed : ∀ id p, m.lookup id = some p → p.id = id ∧ profileID id = true
  count : m.keys.length ≤ 64
  relayed : ∀ id p, m.lookup id = some p → p.relayID ≠ [] →
    ∃ r, m.lookup p.relayID = some r ∧ r.kind = relayKind
  bare : ∀ id p, m.lookup id = some p → p.kind = relayKind →
    p.relayID = [] ∧ p.listeners = [] ∧ p.enabled = false
  enabled : ∀ id p, m.lookup id = some p → p.kind = connectionKind →
    p.enabled = true → 1 ≤ p.listeners.length
  few : ∀ id p, m.lookup id = some p → p.listeners.length ≤ 8

theorem Sound.referential {m : Profiles} (sound : Sound m) : Referential m where
  keyed id p stored := ⟨sound.keyed id p stored, sound.pattern id p stored⟩
  count := sound.count
  relayed := sound.uses
  bare := sound.bare
  enabled id p stored _ enabled :=
    List.length_pos_of_ne_nil (sound.enabled id p stored enabled)
  few := sound.few

namespace Catalog

theorem step_keepsKinds {c d : Catalog} {action : Action}
    (upright : c.Upright) (taken : step c action = some d) :
    KeepsKinds c.profiles d.profiles := by
  rcases step_cases upright.sound upright.empty taken with
    quiet | ⟨h, next, proposed, writes⟩
  · rw [quiet.profiles]
    exact (Extends.refl c.profiles).keepsKinds
  · rw [writes.profiles]
    exact (sound_of_proposal upright.sound upright.empty proposed).2

/-- In every state that is reached from an empty store the references are in
order, and no step changes the kind of a profile that it keeps. -/
theorem references_kept {c : Catalog} (reached : machine.Reachable c) :
    Referential c.profiles ∧
      ∀ action d, step c action = some d →
        KeepsKinds c.profiles d.profiles := by
  have upright := upright_reachable reached
  constructor
  · exact upright.sound.referential
  · intro action d taken
    exact step_keepsKinds upright taken

/-! ## A connection behind a relay -/

/-- A machine on which nothing fails. -/
def calmHost : Host :=
  { build := fun _ => none
    probe := fun _ => none
    fault := none
    opens := fun p _ => .ok p.listeners
    changes := fun p => .ok p.listeners
    authority := .ok
    rank := fun _ => 0 }

def sampleConfig (server : String) : Config :=
  { server := server.toList
    secret := List.replicate 43 'A'
    tls := { mode := "tls".toList, serverName := "example.org".toList } }

def sampleRelay : Profile :=
  { id := "relay".toList
    name := "relay".toList
    kind := relayKind
    config := sampleConfig "192.0.2.1:443" }

def sampleConnection (id listen : Text) : Profile :=
  { id
    name := id
    kind := connectionKind
    enabled := true
    config := sampleConfig "192.0.2.2:443"
    inlets := some [{ protocol := "socks".toList, listen }] }

/-- A connection is saved with its relay and is opened. -/
def saveBehindRelay : List Action :=
  [.request calmHost
    { action := .connectionSave
      profile := some { sampleConnection "one".toList "127.0.0.1:1080".toList
        with relayID := sampleRelay.id }
      relay := some sampleRelay
      apply := true
      expectedRevision := some [] }]

theorem references_kept_relayed :
    ∃ c : Catalog, c.profiles.keys.length = 2 ∧ Referential c.profiles := by
  have runs : ((machine.run {} saveBehindRelay).any fun c =>
      c.profiles.keys.length = 2) = true := by
    decide +kernel
  obtain ⟨c, ran, count⟩ := (Option.any_eq_true ..).mp runs
  have reached : machine.Reachable c :=
    Machine.run_reachable (.start rfl) ran
  exact ⟨c, by simpa using count, (references_kept reached).1⟩

end Catalog

end Veil.Control

import Veil.Control.References

/-!
# Endpoints of stored listeners

Two listeners conflict when they listen on one port number at one address, or
at any address.  Validation compares ports as texts, so that it misses a
conflict between two spellings of a port.  As long as no save brings two
spellings together, the stored listeners never conflict.
-/

namespace Veil.Control

open Lib

/-- Two endpoints conflict: one port number, and one address or any. -/
def conflict (a b : Text) : Bool :=
  match splitHostPort a, splitHostPort b with
  | some (aHost, aPort), some (bHost, bPort) =>
      match atoi aPort, atoi bPort, parseIP aHost, parseIP bHost with
      | some m, some n, some aIP, some bIP =>
          m = n && (aIP = bIP || unspecified aIP || unspecified bIP)
      | _, _, _, _ => false
  | _, _ => false

/-- The text of the port of an endpoint. -/
def portText (a : Text) : Option Text :=
  (splitHostPort a).map (·.2)

theorem conflict_comm (a b : Text) : conflict a b = conflict b a := by
  unfold conflict
  cases splitHostPort a with
  | none => cases splitHostPort b <;> rfl
  | some aParts =>
      obtain ⟨aHost, aPort⟩ := aParts
      cases splitHostPort b with
      | none => rfl
      | some bParts =>
          obtain ⟨bHost, bPort⟩ := bParts
          dsimp only
          cases atoi aPort <;> cases atoi bPort <;> cases parseIP aHost <;>
            cases parseIP bHost <;> try rfl
          next m n aIP bIP =>
            have numbers : decide (m = n) = decide (n = m) := by
              simp only [eq_comm]
            have addresses : decide (aIP = bIP) = decide (bIP = aIP) := by
              simp only [eq_comm]
            simp only [numbers, addresses, Bool.or_assoc,
              Bool.or_comm (unspecified aIP)]

/-- Two listeners that conflict spell their port alike. -/
def SpelledAlike (a b : Inlet) : Prop :=
  conflict a.listen b.listen = true → portText a.listen = portText b.listen

theorem SpelledAlike.symm {a b : Inlet} (alike : SpelledAlike a b) :
    SpelledAlike b a := by
  intro conflicting
  rw [conflict_comm] at conflicting
  exact (alike conflicting).symm

/-! ## Relations between all stored listeners -/

/-- A relation between any two listeners of a store, of one profile or of
two. -/
structure AllListeners (R : Inlet → Inlet → Prop) (m : Profiles) : Prop where
  within : ∀ id p, m.lookup id = some p → p.listeners.Pairwise R
  across : ∀ id p key q, m.lookup id = some p → m.lookup key = some q →
    id ≠ key → ∀ a ∈ p.listeners, ∀ b ∈ q.listeners, R a b

namespace AllListeners

variable {R S : Inlet → Inlet → Prop} {m : Profiles}

theorem empty : AllListeners R ∅ := by
  constructor <;> simp

theorem mono (weaker : ∀ a b, R a b → S a b) (all : AllListeners R m) :
    AllListeners S m where
  within id p stored := (all.within id p stored).imp (weaker _ _)
  across id p key q stored located distinct a listens b heard :=
    weaker a b (all.across id p key q stored located distinct a listens b heard)

theorem insert (symm : ∀ a b, R a b → R b a) (all : AllListeners R m)
    {q : Profile} (within : q.listeners.Pairwise R)
    (others : ∀ id p, m.lookup id = some p → id ≠ q.id →
      ∀ a ∈ q.listeners, ∀ b ∈ p.listeners, R a b) :
    AllListeners R (m.insert q.id q) := by
  constructor
  · intro id p found
    rcases lookup_insert_cases found with ⟨rfl, rfl⟩ | ⟨_, stored⟩
    · exact within
    · exact all.within id p stored
  · intro id p key r found located distinct a listens b heard
    rcases lookup_insert_cases found with ⟨rfl, rfl⟩ | ⟨apart, stored⟩ <;>
      rcases lookup_insert_cases located with ⟨rfl, rfl⟩ | ⟨away, kept⟩
    · exact absurd rfl distinct
    · exact others key r kept away a listens b heard
    · exact symm b a (others id p stored apart b heard a listens)
    · exact all.across id p key r stored kept distinct a listens b heard

theorem erase (all : AllListeners R m) (key : Text) :
    AllListeners R (m.erase key) where
  within id p found := all.within id p (lookup_erase_cases found).2
  across id p other q found located :=
    all.across id p other q (lookup_erase_cases found).2
      (lookup_erase_cases located).2

/-- A stored profile is replaced by one with the same listeners. -/
theorem replace (symm : ∀ a b, R a b → R b a) (all : AllListeners R m)
    {p q : Profile} (stored : m.lookup q.id = some p)
    (same : q.listeners = p.listeners) : AllListeners R (m.insert q.id q) := by
  apply all.insert symm
  · rw [same]
    exact all.within q.id p stored
  · intro id other located distinct
    rw [same]
    exact all.across q.id p id other stored located (Ne.symm distinct)

end AllListeners

namespace Catalog

end Catalog

end Veil.Control

import Veil.Control.Catalog

/-!
# Sound stores

The profiles of a store refer to each other: to relays by ID and to each
other's listeners by not overlapping them.  `Sound` collects what holds of
every store.  Adding a profile that joins it, removing one that nothing goes
through and validating a whole snapshot keep a store sound.
-/

namespace Veil.Control

open Lib

/-! ## Sizes of finite maps -/

section Maps

variable {α : Type} [DecidableEq α] {β : α → Type}

theorem length_keys_insert (m : AList β) (key : α) (value : β key) :
    (m.insert key value).keys.length =
      if key ∈ m then m.keys.length else m.keys.length + 1 := by
  rw [AList.keys_insert, List.length_cons, List.length_erase]
  simp only [AList.mem_keys]
  split_ifs with listed
  · have positive := List.length_pos_of_mem listed
    omega
  · rfl

theorem length_keys_erase (m : AList β) (key : α) :
    (m.erase key).keys.length ≤ m.keys.length := by
  rw [AList.keys_erase, List.length_erase]
  split_ifs <;> omega

end Maps

/-! ## Stores -/

/-- What holds of every store of profiles. -/
structure Sound (m : Profiles) : Prop where
  keyed : ∀ id p, m.lookup id = some p → p.id = id
  pattern : ∀ id p, m.lookup id = some p → profileID id = true
  count : m.keys.length ≤ 64
  kind : ∀ id p, m.lookup id = some p →
    p.kind = connectionKind ∨ p.kind = relayKind
  bare : ∀ id p, m.lookup id = some p → p.kind = relayKind →
    p.relayID = [] ∧ p.listeners = [] ∧ p.enabled = false
  uses : ∀ id p, m.lookup id = some p → p.relayID ≠ [] →
    ∃ r, m.lookup p.relayID = some r ∧ r.kind = relayKind
  few : ∀ id p, m.lookup id = some p → p.listeners.length ≤ 8
  enabled : ∀ id p, m.lookup id = some p → p.enabled = true →
    p.listeners ≠ []
  apart : ∀ id p, m.lookup id = some p →
    p.listeners.Pairwise fun b a => overlap a.listen b.listen = false
  disjoint : ∀ id p key q, m.lookup id = some p → m.lookup key = some q →
    id ≠ key → ∀ a ∈ p.listeners, ∀ b ∈ q.listeners,
      overlap a.listen b.listen = false
  settled : ∀ id p, m.lookup id = some p → p.config.defaults = .ok p.config

/-- A profile that can be stored under its ID. -/
structure Joins (m : Profiles) (q : Profile) : Prop where
  pattern : profileID q.id = true
  room : m.keys.length < 64 ∨ q.id ∈ m
  kind : q.kind = connectionKind ∨ q.kind = relayKind
  kept : ∀ old, m.lookup q.id = some old → old.kind = q.kind
  bare : q.kind = relayKind →
    q.relayID = [] ∧ q.listeners = [] ∧ q.enabled = false
  uses : q.relayID ≠ [] →
    ∃ r, m.lookup q.relayID = some r ∧ r.kind = relayKind
  few : q.listeners.length ≤ 8
  enabled : q.enabled = true → q.listeners ≠ []
  apart : q.listeners.Pairwise fun b a => overlap a.listen b.listen = false
  others : ∀ a ∈ q.listeners, ∀ id other, m.lookup id = some other →
    id ≠ q.id → ∀ b ∈ other.listeners, overlap a.listen b.listen = false
  settled : q.config.defaults = .ok q.config

theorem sound_empty : Sound ∅ := by
  constructor <;> simp

/-- What is found after an insertion. -/
theorem lookup_insert_cases {m : Profiles} {key id : Text} {p q : Profile}
    (found : (m.insert key q).lookup id = some p) :
    (id = key ∧ p = q) ∨ (id ≠ key ∧ m.lookup id = some p) := by
  by_cases same : id = key
  · subst same
    rw [AList.lookup_insert] at found
    exact .inl ⟨rfl, (Option.some.inj found).symm⟩
  · rw [AList.lookup_insert_ne same] at found
    exact .inr ⟨same, found⟩

theorem lookup_erase_cases {m : Profiles} {key id : Text} {p : Profile}
    (found : (m.erase key).lookup id = some p) :
    id ≠ key ∧ m.lookup id = some p := by
  by_cases same : id = key
  · subst same
    simp at found
  · rw [AList.lookup_erase_ne same] at found
    exact ⟨same, found⟩

theorem length_insert {m : Profiles} {q : Profile}
    (count : m.keys.length ≤ 64) (room : m.keys.length < 64 ∨ q.id ∈ m) :
    (m.insert q.id q).keys.length ≤ 64 := by
  rw [length_keys_insert]
  split_ifs with stored
  · exact count
  · exact room.resolve_right stored

/-- A relay that a profile names is still there after an insertion. -/
theorem uses_insert {m : Profiles} {q : Profile} (joins : Joins m q)
    {relayID : Text}
    (uses : ∃ r, m.lookup relayID = some r ∧ r.kind = relayKind) :
    ∃ r, (m.insert q.id q).lookup relayID = some r ∧ r.kind = relayKind := by
  obtain ⟨r, stored, isRelay⟩ := uses
  by_cases same : relayID = q.id
  · subst same
    exact ⟨q, AList.lookup_insert m, (joins.kept r stored).symm.trans isRelay⟩
  · exact ⟨r, (AList.lookup_insert_ne same).trans stored, isRelay⟩

/-- Storing a profile that joins keeps a store sound. -/
theorem Sound.insert {m : Profiles} (sound : Sound m) {q : Profile}
    (joins : Joins m q) : Sound (m.insert q.id q) := by
  have each {P : Text → Profile → Prop}
      (old : ∀ id p, m.lookup id = some p → P id p) (new : P q.id q) :
      ∀ id p, (m.insert q.id q).lookup id = some p → P id p := by
    intro id p found
    rcases lookup_insert_cases found with ⟨rfl, rfl⟩ | ⟨_, stored⟩
    · exact new
    · exact old id p stored
  constructor
  · exact each sound.keyed rfl
  · exact each sound.pattern joins.pattern
  · exact length_insert sound.count joins.room
  · exact each sound.kind joins.kind
  · exact each sound.bare joins.bare
  · exact each
      (fun id p stored named => uses_insert joins (sound.uses id p stored named))
      (fun named => uses_insert joins (joins.uses named))
  · exact each sound.few joins.few
  · exact each sound.enabled joins.enabled
  · exact each sound.apart joins.apart
  · intro id p key other found located distinct a listens b heard
    rcases lookup_insert_cases found with ⟨rfl, rfl⟩ | ⟨apart, stored⟩ <;>
      rcases lookup_insert_cases located with ⟨rfl, rfl⟩ | ⟨away, kept⟩
    · exact absurd rfl distinct
    · exact joins.others a listens key other kept away b heard
    · rw [overlap_comm]
      exact joins.others b heard id p stored apart a listens
    · exact sound.disjoint id p key other stored kept distinct a listens b
        heard
  · exact each sound.settled joins.settled

/-- Removing a profile that no other one goes through. -/
theorem Sound.erase {m : Profiles} (sound : Sound m) {key : Text}
    (unused : ∀ id p, m.lookup id = some p → p.relayID ≠ key) :
    Sound (m.erase key) := by
  have each {P : Text → Profile → Prop}
      (old : ∀ id p, m.lookup id = some p → P id p) :
      ∀ id p, (m.erase key).lookup id = some p → P id p :=
    fun id p found => old id p (lookup_erase_cases found).2
  constructor
  · exact each sound.keyed
  · exact each sound.pattern
  · exact (length_keys_erase m key).trans sound.count
  · exact each sound.kind
  · exact each sound.bare
  · intro id p found named
    have stored := (lookup_erase_cases found).2
    obtain ⟨r, located, isRelay⟩ := sound.uses id p stored named
    exact ⟨r, (AList.lookup_erase_ne (unused id p stored)).trans located,
      isRelay⟩
  · exact each sound.few
  · exact each sound.enabled
  · exact each sound.apart
  · intro id p other q found located
    exact sound.disjoint id p other q (lookup_erase_cases found).2
      (lookup_erase_cases located).2
  · exact each sound.settled

/-! ## What joins -/

/-- A profile that validation accepted joins. -/
theorem joins_of_validate {h : Host} {m : Profiles} {owned : List Inlet}
    {p q : Profile} (accepted : validate h m owned p = .ok q) :
    Joins m q ∧ q.id = p.id := by
  obtain ⟨belongs, config, usable, rfl⟩ := validate_ok.mp accepted
  constructor
  · exact
      { pattern := belongs.id
        room := belongs.room
        kind := belongs.kind
        kept := belongs.kept
        bare := belongs.relay
        uses := belongs.uses
        few := belongs.few
        enabled := belongs.enabled
        apart := belongs.apart
        others := belongs.others
        settled := Config.defaults_defaults usable.filled }
  · rfl

/-- A stored profile still joins once it is disabled. -/
theorem joins_disabled {m : Profiles} (sound : Sound m) {id : Text}
    {p : Profile} (stored : m.lookup id = some p) :
    Joins m { p with enabled := false } := by
  have same := sound.keyed id p stored
  subst same
  exact
    { pattern := sound.pattern _ p stored
      room := .inr (AList.lookup_isSome.mp (by simp [stored]))
      kind := sound.kind _ p stored
      kept := fun old before => by
        rw [stored] at before
        rw [← Option.some.inj before]
      bare := fun isRelay => ⟨(sound.bare _ p stored isRelay).1,
        (sound.bare _ p stored isRelay).2.1, rfl⟩
      uses := sound.uses _ p stored
      few := sound.few _ p stored
      enabled := by simp
      apart := sound.apart _ p stored
      others := fun a listens key other located distinct b heard =>
        sound.disjoint _ p key other stored located (Ne.symm distinct) a
          listens b heard
      settled := sound.settled _ p stored }

end Veil.Control

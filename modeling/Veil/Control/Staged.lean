import Veil.Control.Sound

/-!
# Staged snapshots

A snapshot is staged as it was sent and is then rewritten profile by profile
with the defaults.  What a profile is validated against depends on everything
but configurations, so the rewriting does not matter: each profile is
validated as if among the staged ones.
-/

namespace Veil.Control

open Lib

/-! ## Adding profiles one after another -/

namespace Profiles

def addAll (m : Profiles) (list : List Profile) : Profiles :=
  list.foldl (fun m p => m.insert p.id p) m

theorem addAll_cons (m : Profiles) (p : Profile) (rest : List Profile) :
    addAll m (p :: rest) = addAll (m.insert p.id p) rest :=
  rfl

theorem lookup_addAll_of_notMem {m : Profiles} {list : List Profile}
    {id : Text} (absent : ∀ p ∈ list, p.id ≠ id) :
    (addAll m list).lookup id = m.lookup id := by
  induction list generalizing m with
  | nil => rfl
  | cons p rest ih =>
      rw [addAll_cons, ih fun q listed => absent q (by simp [listed])]
      exact AList.lookup_insert_ne (absent p (by simp)).symm

theorem lookup_addAll_of_mem {m : Profiles} {list : List Profile}
    (distinct : (list.map (·.id)).Nodup) {p : Profile} (listed : p ∈ list) :
    (addAll m list).lookup p.id = some p := by
  induction list generalizing m with
  | nil => simp at listed
  | cons q rest ih =>
      simp only [List.map_cons, List.nodup_cons, List.mem_map, not_exists,
        not_and] at distinct
      rw [addAll_cons]
      rcases List.mem_cons.mp listed with rfl | later
      · rw [lookup_addAll_of_notMem distinct.1]
        exact AList.lookup_insert m
      · exact ih distinct.2 later

/-- The profiles of a list are found under their IDs. -/
theorem lookup_addAll {list : List Profile}
    (distinct : (list.map (·.id)).Nodup) {id : Text} {p : Profile} :
    (addAll ∅ list).lookup id = some p ↔ p ∈ list ∧ p.id = id := by
  constructor
  · intro found
    by_cases known : ∃ q ∈ list, q.id = id
    · obtain ⟨q, listed, rfl⟩ := known
      rw [lookup_addAll_of_mem distinct listed] at found
      obtain rfl := Option.some.inj found
      exact ⟨listed, rfl⟩
    · push Not at known
      rw [lookup_addAll_of_notMem known] at found
      simp at found
  · rintro ⟨listed, rfl⟩
    exact lookup_addAll_of_mem distinct listed

theorem length_addAll {m : Profiles} {list : List Profile}
    (distinct : (list.map (·.id)).Nodup) (fresh : ∀ p ∈ list, p.id ∉ m) :
    (addAll m list).keys.length = m.keys.length + list.length := by
  induction list generalizing m with
  | nil => rfl
  | cons p rest ih =>
      simp only [List.map_cons, List.nodup_cons, List.mem_map, not_exists,
        not_and] at distinct
      have later : ∀ q ∈ rest, q.id ∉ m.insert p.id p := by
        intro q listed
        rw [AList.mem_insert]
        rintro (same | known)
        · exact distinct.1 q listed same
        · exact fresh q (by simp [listed]) known
      rw [addAll_cons, ih distinct.2 later, length_keys_insert,
        if_neg (fresh p (by simp)), List.length_cons]
      omega

end Profiles

open Profiles

/-- A list can be staged when its IDs are distinct and no profile changes its
kind. -/
theorem stage_ok {old m staged : Profiles} {list : List Profile} :
    Catalog.stage old m list = .ok staged ↔
      (list.map (·.id)).Nodup ∧ (∀ p ∈ list, p.id ∉ m) ∧
      (∀ p ∈ list, ∀ before, old.lookup p.id = some before →
        before.kind = p.kind) ∧
      staged = addAll m list := by
  induction list generalizing m with
  | nil =>
      simp only [Catalog.stage, addAll]
      simp [eq_comm]
  | cons p rest ih =>
      simp only [Catalog.stage, seq_ok, refuse_ok, ih, Option.mem_def,
        not_exists, not_and, not_not, List.map_cons, List.nodup_cons,
        List.mem_map, List.forall_mem_cons, AList.mem_insert, not_or,
        addAll_cons]
      constructor
      · rintro ⟨fresh, kind, distinct, later, kinds, same⟩
        exact ⟨⟨fun q listed => (later q listed).1, distinct⟩,
          ⟨fresh, fun q listed => (later q listed).2⟩, ⟨kind, kinds⟩, same⟩
      · rintro ⟨⟨apart, distinct⟩, ⟨fresh, later⟩, ⟨kind, kinds⟩, same⟩
        exact ⟨fresh, kind, distinct,
          fun q listed => ⟨apart q listed, later q listed⟩, kinds, same⟩

/-! ## Stores that differ in configurations only -/

/-- A profile without its configuration. -/
def Profile.outline (p : Profile) : Profile :=
  { p with config := {} }

theorem kind_of_outline {p q : Profile} (same : p.outline = q.outline) :
    p.kind = q.kind := by
  have kinds := congrArg Profile.kind same
  exact kinds

theorem listeners_of_outline {p q : Profile} (same : p.outline = q.outline) :
    p.listeners = q.listeners := by
  have listeners := congrArg Profile.listeners same
  exact listeners

/-- Two stores hold the same profiles up to their configurations. -/
structure Alike (m n : Profiles) : Prop where
  size : m.keys.length = n.keys.length
  lookup : ∀ id, (m.lookup id).map Profile.outline =
    (n.lookup id).map Profile.outline

theorem Alike.refl (m : Profiles) : Alike m m :=
  ⟨rfl, fun _ => rfl⟩

theorem Alike.symm {m n : Profiles} (alike : Alike m n) : Alike n m :=
  ⟨alike.size.symm, fun id => (alike.lookup id).symm⟩

theorem Alike.trans {m n k : Profiles} (first : Alike m n)
    (second : Alike n k) : Alike m k :=
  ⟨first.size.trans second.size,
    fun id => (first.lookup id).trans (second.lookup id)⟩

theorem Alike.found {m n : Profiles} (alike : Alike m n) {id : Text}
    {q : Profile} (stored : n.lookup id = some q) :
    ∃ p, m.lookup id = some p ∧ p.outline = q.outline := by
  have same := alike.lookup id
  rw [stored] at same
  exact Option.map_eq_some_iff.mp same

theorem Alike.mem {m n : Profiles} (alike : Alike m n) {id : Text} :
    id ∈ n ↔ id ∈ m := by
  have same := congrArg Option.isSome (alike.lookup id)
  simp only [Option.isSome_map] at same
  rw [← AList.lookup_isSome, ← AList.lookup_isSome, same]

/-- Whether a profile belongs does not depend on configurations. -/
theorem Belongs.alike {m n : Profiles} (alike : Alike m n) {p : Profile}
    (belongs : Belongs m p) : Belongs n p := by
  exact
    { belongs with
      room := by
        rw [← alike.size, alike.mem]
        exact belongs.room
      kept := by
        intro old stored
        obtain ⟨before, located, same⟩ := alike.found stored
        rw [← kind_of_outline same]
        exact belongs.kept before located
      uses := by
        intro named
        obtain ⟨r, stored, isRelay⟩ := belongs.uses named
        obtain ⟨other, located, same⟩ := alike.symm.found stored
        exact ⟨other, located, (kind_of_outline same).trans isRelay⟩
      others := by
        intro a listens id other stored distinct b heard
        obtain ⟨before, located, same⟩ := alike.found stored
        exact belongs.others a listens id before located distinct b
          (listeners_of_outline same ▸ heard) }

/-- Rewriting the configuration of a stored profile. -/
theorem alike_insert {m : Profiles} {p : Profile} {config : Config}
    (stored : m.lookup p.id = some p) :
    Alike m (m.insert p.id { p with config }) := by
  constructor
  · rw [length_keys_insert, if_pos]
    exact AList.lookup_isSome.mp (by simp [stored])
  · intro id
    by_cases same : id = p.id
    · subst same
      rw [stored, AList.lookup_insert]
      rfl
    · rw [AList.lookup_insert_ne same]

/-! ## Validation of a snapshot -/

/-- Every profile of a list belongs to a store and can be used. -/
def AllUsable (h : Host) (owned : Text → List Inlet) (m : Profiles)
    (list : List Profile) : Prop :=
  ∀ p ∈ list, Belongs m p ∧ ∃ config, Usable h (owned p.id) p config

/-- What a validated snapshot holds: the listed profiles with the defaults. -/
structure Settled (h : Host) (owned : Text → List Inlet) (m : Profiles)
    (list : List Profile) (next : Profiles) : Prop where
  alike : Alike m next
  listed : ∀ p ∈ list, Belongs m p ∧ ∃ config,
    Usable h (owned p.id) p config ∧
      next.lookup p.id = some { p with config }
  others : ∀ id, (∀ p ∈ list, p.id ≠ id) → next.lookup id = m.lookup id

/-- What a validated snapshot is. -/
theorem settled_of_settle {h : Host} {owned : Text → List Inlet}
    {m next : Profiles} {list : List Profile}
    (distinct : (list.map (·.id)).Nodup)
    (stored : ∀ p ∈ list, m.lookup p.id = some p)
    (accepted : Catalog.settle h owned m list = .ok next) :
    Settled h owned m list next := by
  induction list generalizing m with
  | nil =>
      obtain rfl := Except.ok.inj accepted
      exact ⟨Alike.refl m, by simp, fun _ _ => rfl⟩
  | cons p rest ih =>
      simp only [List.map_cons, List.nodup_cons, List.mem_map, not_exists,
        not_and] at distinct
      unfold Catalog.settle at accepted
      split at accepted
      next => simp at accepted
      next q valid =>
        obtain ⟨belongs, config, usable, rfl⟩ := validate_ok.mp valid
        have alike := @alike_insert _ _ config (stored p (by simp))
        have later : ∀ q ∈ rest,
            (m.insert p.id { p with config }).lookup q.id = some q :=
          fun q listed => (AList.lookup_insert_ne (distinct.1 q listed)).trans
            (stored q (by simp [listed]))
        have settled := ih distinct.2 later accepted
        constructor
        · exact alike.trans settled.alike
        · intro q listed
          rcases List.mem_cons.mp listed with rfl | after
          · refine ⟨belongs, config, usable, ?_⟩
            rw [settled.others q.id distinct.1]
            exact AList.lookup_insert m
          · obtain ⟨fits, rest⟩ := settled.listed q after
            exact ⟨fits.alike alike.symm, rest⟩
        · intro id absent
          rw [settled.others id fun q listed => absent q (by simp [listed])]
          exact AList.lookup_insert_ne (absent p (by simp)).symm

/-- A snapshot of profiles that belong and can be used is accepted. -/
theorem settle_of_usable {h : Host} {owned : Text → List Inlet}
    {m : Profiles} {list : List Profile}
    (distinct : (list.map (·.id)).Nodup)
    (stored : ∀ p ∈ list, m.lookup p.id = some p)
    (usable : AllUsable h owned m list) :
    ∃ next, Catalog.settle h owned m list = .ok next := by
  induction list generalizing m with
  | nil => exact ⟨m, rfl⟩
  | cons p rest ih =>
      simp only [List.map_cons, List.nodup_cons, List.mem_map, not_exists,
        not_and] at distinct
      obtain ⟨belongs, config, works⟩ := usable p (by simp)
      have valid : validate h m (owned p.id) p = .ok { p with config } :=
        validate_ok.mpr ⟨belongs, config, works, rfl⟩
      have alike := @alike_insert _ _ config (stored p (by simp))
      have later : ∀ q ∈ rest,
          (m.insert p.id { p with config }).lookup q.id = some q :=
        fun q listed => (AList.lookup_insert_ne (distinct.1 q listed)).trans
          (stored q (by simp [listed]))
      unfold Catalog.settle
      rw [valid]
      apply ih distinct.2 later
      intro q listed
      obtain ⟨fits, rest⟩ := usable q (by simp [listed])
      exact ⟨fits.alike alike, rest⟩

/-- A store in which every profile belongs is sound. -/
theorem sound_of_settled {h : Host} {owned : Text → List Inlet}
    {list : List Profile} {next : Profiles}
    (distinct : (list.map (·.id)).Nodup) (few : list.length ≤ 64)
    (settled : Settled h owned (addAll ∅ list) list next) : Sound next := by
  have origin : ∀ id q, next.lookup id = some q → q.id = id ∧
      Belongs next q ∧ q.config.defaults = .ok q.config := by
    intro id q found
    obtain ⟨p, stored, same⟩ := settled.alike.found found
    obtain ⟨listed, rfl⟩ := (lookup_addAll distinct).mp stored
    obtain ⟨belongs, config, usable, located⟩ := settled.listed p listed
    obtain rfl := Option.some.inj (located.symm.trans found)
    exact ⟨rfl, { belongs.alike settled.alike with },
      Config.defaults_defaults usable.filled⟩
  have each {P : Profile → Prop}
      (holds : ∀ q, Belongs next q → P q) :
      ∀ id q, next.lookup id = some q → P q :=
    fun id q found => holds q (origin id q found).2.1
  constructor
  · exact fun id q found => (origin id q found).1
  · intro id q found
    obtain ⟨rfl, belongs, _⟩ := origin id q found
    exact belongs.id
  · rw [← settled.alike.size, length_addAll distinct (by simp)]
    simpa using few
  · exact each fun q belongs => belongs.kind
  · exact each fun q belongs => belongs.relay
  · exact each fun q belongs => belongs.uses
  · exact each fun q belongs => belongs.few
  · exact each fun q belongs => belongs.enabled
  · exact each fun q belongs => belongs.apart
  · intro id p key q found located distinct a listens b heard
    obtain ⟨rfl, belongs, _⟩ := origin id p found
    exact belongs.others a listens key q located (Ne.symm distinct) b heard
  · exact fun id q found => (origin id q found).2.2

end Veil.Control

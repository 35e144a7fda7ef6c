import Veil.Control.Frame
import Veil.Lib.Stopping

/-!
# Applying a relay

A relay is applied by applying the connections behind it, in the order in
which the map of profiles is gone through, until one of them fails.  This file
proves that the order does not matter exactly when no connection fails to be
applied beside another one that its application changes.
-/

namespace Veil.Control

open Lib

/-- The same machine, which goes through maps in another order. -/
def Host.ranked (h : Host) (rank : Text → Nat) : Host :=
  { h with rank }

namespace Catalog

/-! ## Applying one connection -/

/-- The revision with which a connection runs, if it runs. -/
def running (c : Catalog) (id : Text) : Option Text :=
  (c.entry id).run.map fun _ => (c.entry id).active

/-- How an enabled connection is applied. -/
inductive Way where
  /-- it runs as it is to run -/
  | current
  /-- its listeners are changed -/
  | relisten
  /-- it is stopped and opened -/
  | restart
  deriving DecidableEq

def way (c : Catalog) (v : Profile) : Way :=
  let e := c.entry v.id
  if e.run.isSome ∧ e.active = runtimeRevision c.profiles v then .current
  else if e.run.isSome ∧ e.transport = transportRevision c.profiles v then
    .relisten
  else .restart

/-- The configuration of the relay of a profile. -/
def relayConfig (c : Catalog) (v : Profile) : Option Config :=
  if v.relayID = [] then none
  else (c.profiles.lookup v.relayID).map (·.config)

/-- An enabled connection fails to be applied. -/
def fails (h : Host) (c : Catalog) (v : Profile) : Bool :=
  match c.way v with
  | .current => false
  | .relisten => (h.changes v).toOption.isNone
  | .restart => (h.opens v (c.relayConfig v)).toOption.isNone

/-- What an enabled connection runs with after it is applied. -/
def outcome (h : Host) (c : Catalog) (v : Profile) : Option Text :=
  match c.way v, c.fails h v with
  | .current, _ => c.running v.id
  | .relisten, true => c.running v.id
  | .restart, true => none
  | _, false => some (runtimeRevision c.profiles v)

theorem entry_update (c : Catalog) (id : Text) (change : Entry → Entry) :
    (c.update id change).entry id = change (c.entry id) := by
  have found := lookup_update c id id change
  rw [if_pos rfl] at found
  simp [entry, found]

theorem running_update (c : Catalog) (id : Text) (change : Entry → Entry) :
    (c.update id change).running id =
      (change (c.entry id)).run.map fun _ => (change (c.entry id)).active := by
  unfold running
  rw [entry_update]

/-- An entry that is left alone shows what it showed. -/
theorem Leaves.entry {c d : Catalog} {id : Text} (left : Leaves c d id) :
    ∃ serial, d.entry id = { c.entry id with serial } := by
  unfold Catalog.entry
  cases before : c.entries.lookup id with
  | some e =>
      rw [left.kept e before]
      exact ⟨e.serial, rfl⟩
  | none =>
      cases after : d.entries.lookup id with
      | none => exact ⟨d.serials, rfl⟩
      | some e => exact ⟨e.serial, left.fresh e before after⟩

theorem running_of_leaves {c d : Catalog} {id : Text} (left : Leaves c d id) :
    d.running id = c.running id := by
  obtain ⟨serial, same⟩ := left.entry
  unfold running
  rw [same]

/-- What is left alone is applied in the same way with the same outcome. -/
theorem outcome_of_leaves {h : Host} {c d : Catalog} {v : Profile}
    (left : Leaves c d v.id) (profiles : d.profiles = c.profiles) :
    d.fails h v = c.fails h v ∧ d.outcome h v = c.outcome h v := by
  obtain ⟨serial, same⟩ := left.entry
  have way : d.way v = c.way v := by
    unfold way
    rw [same, profiles]
  have relay : d.relayConfig v = c.relayConfig v := by
    unfold relayConfig
    rw [profiles]
  have fails : d.fails h v = c.fails h v := by
    unfold fails
    rw [way, relay]
  constructor
  · exact fails
  · unfold outcome
    rw [way, fails, profiles, running_of_leaves left]

/-- The outcome of opening a connection that was stopped. -/
theorem openConnection_spec {h : Host} {c : Catalog} {v : Profile}
    (relay : v.relayID ≠ [] → c.profiles.lookup v.relayID ≠ none) :
    ((openConnection h c v).2 = none ↔
      (h.opens v (c.relayConfig v)).toOption.isNone = false) ∧
    (openConnection h c v).1.running v.id =
      if (h.opens v (c.relayConfig v)).toOption.isNone then c.running v.id
      else some (runtimeRevision c.profiles v) := by
  have present : ¬ (v.relayID ≠ [] ∧ c.profiles.lookup v.relayID = none) :=
    fun ⟨named, absent⟩ => relay named absent
  unfold openConnection
  dsimp only
  rw [if_neg present]
  unfold relayConfig
  cases h.opens v (if v.relayID = [] then none
      else (c.profiles.lookup v.relayID).map (·.config)) with
  | error problem =>
      simp [Except.toOption, running_update]
      rfl
  | ok inlets => simp [Except.toOption, running_update]

/-- A connection that is stopped before it is opened. -/
def halted (c : Catalog) (id : Text) : Catalog :=
  (c.stop id).update id ({ · with err := none, probe := none })

theorem halted_profiles (c : Catalog) (id : Text) :
    (c.halted id).profiles = c.profiles := by
  simp [halted, stop]

theorem running_halted (c : Catalog) (id : Text) :
    (c.halted id).running id = none := by
  unfold halted
  rw [running_update, stop, entry_update]
  rfl

/-- What the ways are told apart by. -/
theorem way_spec (c : Catalog) (v : Profile) :
    let runs := (c.entry v.id).run.isSome = true
    let same := (c.entry v.id).active = runtimeRevision c.profiles v
    let kept := (c.entry v.id).transport = transportRevision c.profiles v
    match c.way v with
    | .current => runs ∧ same
    | .relisten => runs ∧ ¬ same ∧ kept
    | .restart => ¬ (runs ∧ same) ∧ ¬ (runs ∧ kept) := by
  intro runs same kept
  unfold way
  dsimp only
  by_cases current : runs ∧ same
  · rw [if_pos current]
    exact current
  · rw [if_neg current]
    by_cases relisten : runs ∧ kept
    · rw [if_pos relisten]
      exact ⟨relisten.1, fun equal => current ⟨relisten.1, equal⟩, relisten.2⟩
    · rw [if_neg relisten]
      exact ⟨current, relisten⟩

theorem applyConnection_spec {h : Host} {c : Catalog} {v : Profile}
    (enabled : v.enabled = true)
    (relay : v.relayID ≠ [] → c.profiles.lookup v.relayID ≠ none) :
    ((applyConnection h c v).2 = none ↔ c.fails h v = false) ∧
    (applyConnection h c v).1.running v.id = c.outcome h v := by
  obtain ⟨fails, outcome⟩ := outcome_of_leaves (h := h)
    (confined_touch c v.id v.id not_false) (update_profiles c v.id _)
  rw [← fails, ← outcome]
  rw [← update_profiles c v.id fun e => e] at relay
  unfold applyConnection
  generalize found : c.update v.id (fun e => e) = d at relay
  rw [show c.update v.id id = d from found]
  dsimp only
  have told := way_spec d v
  dsimp only at told
  cases way : d.way v with
  | current =>
      simp only [way] at told
      rw [if_pos ⟨told.1, told.2, enabled⟩]
      unfold Catalog.outcome Catalog.fails
      rw [way]
      split <;> simp [entry_update, running]
  | relisten =>
      simp only [way] at told
      obtain ⟨runs, differs, kept⟩ := told
      rw [if_neg fun holds => differs holds.2.1, if_pos ⟨runs, enabled, kept⟩]
      unfold Catalog.outcome Catalog.fails
      rw [way]
      cases h.changes v <;> simp [Except.toOption, entry_update, running]
  | restart =>
      simp only [way] at told
      rw [if_neg fun holds => told.1 ⟨holds.1, holds.2.1⟩,
        if_neg fun holds => told.2 ⟨holds.1, holds.2.2⟩, if_pos enabled]
      have opened := openConnection_spec (h := h) (c := d.halted v.id)
        (v := v) (by rw [halted_profiles]; exact relay)
      have config : (d.halted v.id).relayConfig v = d.relayConfig v := by
        unfold relayConfig
        rw [halted_profiles]
      rw [config, running_halted, halted_profiles] at opened
      obtain ⟨works, runs⟩ := opened
      have isFailing : d.fails h v =
          (h.opens v (d.relayConfig v)).toOption.isNone := by
        unfold Catalog.fails
        rw [way]
      unfold Catalog.outcome
      rw [way, isFailing]
      constructor
      · exact works
      · apply runs.trans
        cases (h.opens v (d.relayConfig v)).toOption.isNone <;> rfl

/-! ## Applying what is behind a relay -/

/-- A stored connection that is enabled and goes through a relay. -/
structure Behind (c : Catalog) (r v : Profile) : Prop where
  stored : c.profiles.lookup v.id = some v
  through : v.relayID = r.id
  enabled : v.enabled = true

/-- The connections behind a relay in the order of the machine. -/
def behind (h : Host) (c : Catalog) (r : Profile) : List Profile :=
  ((h.order c.profiles).map (·.2)).filter fun v =>
    v.relayID = r.id && v.enabled

theorem mem_behind {h : Host} {c : Catalog} {r v : Profile}
    (sound : Sound c.profiles) : v ∈ behind h c r ↔ c.Behind r v := by
  unfold behind
  simp only [List.mem_filter, Bool.and_eq_true, decide_eq_true_eq]
  constructor
  · rintro ⟨listed, through, enabled⟩
    exact ⟨stored_of_order sound listed, through, enabled⟩
  · rintro ⟨stored, through, enabled⟩
    exact ⟨List.mem_map.mpr ⟨_, Host.mem_order.mpr stored, rfl⟩, through,
      enabled⟩

/-- Profiles are gone through once. -/
theorem order_distinct (h : Host) {m : Profiles} (sound : Sound m) :
    ((h.order m).map (·.2)).Pairwise fun v w => v.id ≠ w.id := by
  have keys : (h.order m).Pairwise fun a b => a.1 ≠ b.1 := by
    have perm := List.perm_insertionSort
      (fun a b : (_ : Text) × Profile => h.rank a.1 ≤ h.rank b.1) m.entries
    exact ((List.perm_nodupKeys perm).mpr m.nodupKeys).pairwise_ne
  rw [List.pairwise_map]
  apply keys.imp_of_mem
  rintro ⟨id, v⟩ ⟨key, w⟩ first second distinct
  have named := sound.keyed id v (Host.mem_order.mp first)
  have other := sound.keyed key w (Host.mem_order.mp second)
  dsimp only at distinct ⊢
  rw [named, other]
  exact distinct

theorem behind_distinct (h : Host) {c : Catalog} (r : Profile)
    (sound : Sound c.profiles) :
    (behind h c r).Pairwise fun v w => v.id ≠ w.id :=
  (order_distinct h sound).filter _

/-- What is behind a relay is a connection, and the relay is there. -/
theorem Behind.spec {c : Catalog} {r v : Profile} (sound : Sound c.profiles)
    (stored : c.profiles.lookup r.id = some r) (isBehind : c.Behind r v) :
    v.kind ≠ relayKind ∧ Connects c.profiles v.id ∧
      (v.relayID ≠ [] → c.profiles.lookup v.relayID ≠ none) := by
  have direct := kind_of_relayID sound stored isBehind.stored isBehind.through
  refine ⟨direct, ⟨v, isBehind.stored, ?_⟩, ?_⟩
  · exact (sound.kind v.id v isBehind.stored).resolve_right direct
  · intro _
    rw [isBehind.through, stored]
    exact Option.some_ne_none r

/-- A relay is applied by applying the connections behind it in turn. -/
theorem apply_behind {h : Host} {c : Catalog} {r : Profile}
    (sound : Sound c.profiles) (stored : c.profiles.lookup r.id = some r)
    (relay : r.kind = relayKind) :
    ∃ depth, c.apply h r =
        untilFailure (applyWithin h depth) c (behind h c r) ∧
      ∀ d v, v ∈ behind h c r →
        applyWithin h depth d v = applyConnection h d v := by
  obtain ⟨depth, length⟩ : ∃ depth, c.profiles.keys.length = depth + 1 := by
    have present : r.id ∈ c.profiles.keys :=
      AList.mem_keys.mp (AList.lookup_isSome.mp (by simp [stored]))
    obtain ⟨key, rest, same⟩ := List.exists_cons_of_ne_nil
      (List.ne_nil_of_mem present)
    exact ⟨rest.length, by rw [same]; rfl⟩
  refine ⟨depth + 1, ?_, ?_⟩
  · unfold apply
    rw [length, applyWithin, if_pos relay]
    rfl
  · intro d v listed
    have direct := (((mem_behind sound).mp listed).spec sound stored).1
    rw [applyWithin, if_neg direct]

/-- An order in which one ID comes first. -/
def leading (id : Text) : Text → Nat :=
  fun key => if key = id then 0 else 1

/-- A request saves a relay and is to apply it; `d` is the catalog in which it
is stored and not applied yet. -/
structure SavesRelay (h : Host) (c : Catalog) (q : CatalogRequest)
    (s : Profile) (d : Catalog) : Prop where
  version : q.version = 1
  serving : c.closed = false
  save : q.action = .connectionSave
  applies : q.apply = true
  relay : s.kind = relayKind
  written : ∃ p next, q.profile = some p ∧ c.conflicts q p.id = false ∧
    c.saveConnection h p q.relay = .ok (s, next) ∧
    c.persist h next = (d, none)

theorem validate_ranked {h : Host} {m : Profiles} {owned : List Inlet}
    {p q : Profile} (rank : Text → Nat)
    (valid : validate h m owned p = .ok q) :
    validate (h.ranked rank) m owned p = .ok q := by
  obtain ⟨belongs, config, usable, made⟩ := validate_ok.mp valid
  exact validate_ok.mpr ⟨belongs, config,
    ⟨usable.filled, usable.valid, usable.server, usable.bindable⟩, made⟩

theorem saveConnection_ranked {h : Host} {c : Catalog} {p s : Profile}
    {relay : Option Profile} {next : Profiles} (rank : Text → Nat)
    (accepted : c.saveConnection h p relay = .ok (s, next)) :
    c.saveConnection (h.ranked rank) p relay = .ok (s, next) := by
  obtain ⟨staged, relays, rest⟩ := bind_eq_ok.mp accepted
  obtain ⟨r, valid, made⟩ := bind_eq_ok.mp rest
  have stages : c.stageRelay (h.ranked rank) p relay = .ok staged := by
    cases relay with
    | none => exact relays
    | some r =>
        obtain ⟨fits, rest⟩ := seq_ok.mp relays
        obtain ⟨r, relayValid, rest⟩ := bind_eq_ok.mp rest
        exact seq_ok.mpr ⟨fits,
          bind_eq_ok.mpr ⟨r, validate_ranked rank relayValid, rest⟩⟩
  exact bind_eq_ok.mpr ⟨staged, stages,
    bind_eq_ok.mpr ⟨r, validate_ranked rank valid, made⟩⟩

/-- The request applies the relay to the written store, in any order. -/
theorem SavesRelay.handle {h : Host} {c d : Catalog} {q : CatalogRequest}
    {s : Profile} (saves : SavesRelay h c q s d) (rank : Text → Nat)
    (id : Text) :
    (c.handle (h.ranked rank) q).1.running id =
      (d.apply (h.ranked rank) s).1.running id := by
  obtain ⟨p, next, given, current, accepted, written⟩ := saves.written
  have again := saveConnection_ranked rank accepted
  have rewritten : c.persist (h.ranked rank) next = (d, none) := written
  have handled : c.handle (h.ranked rank) q =
      applied (h.ranked rank) d s { revision := s.revision } := by
    unfold Catalog.handle
    rw [if_neg (not_not.mpr saves.version), saves.serving, saves.save]
    dsimp only
    unfold connectionSave
    rw [given]
    dsimp only
    rw [current, again]
    dsimp only
    rw [rewritten]
    dsimp only
    rw [saves.applies]
    rfl
  rw [handled]
  exact running_of_leaves (leaves_listed (h.ranked rank) _ _ id)

theorem SavesRelay.stored {h : Host} {c d : Catalog} {q : CatalogRequest}
    {s : Profile} (upright : c.Upright) (saves : SavesRelay h c q s d) :
    Sound d.profiles ∧ d.profiles.lookup s.id = some s := by
  obtain ⟨p, next, _, _, accepted, written⟩ := saves.written
  have added := added_of_saveConnection upright.sound accepted
  have same : d.profiles = next := by
    rcases persist_cases h c next with
      ⟨problem, stays⟩ | ⟨_, ⟨problem, _, writes⟩ | writes⟩
    · rw [written] at stays
      exact nomatch (Prod.mk.inj stays).2
    · rw [written] at writes
      exact nomatch (Prod.mk.inj writes).2
    · rw [written] at writes
      rw [(Prod.mk.inj writes).1]
      rfl
  rw [same]
  exact ⟨added.sound, added.stored⟩

end Catalog

end Veil.Control

import Veil.Control.Relay

/-!
# Probes that are shown

The probe of a connection is set when a test of it ends.  It vanishes with its
entry, or when the connection is applied and is disabled or stopped to be
opened again.  Nothing else that happens to a catalog touches it.
-/

namespace Veil.Control

open Lib

namespace Catalog

/-- The probe that is shown under an ID. -/
def shown (c : Catalog) (id : Text) : Option ProbeResult :=
  (c.entries.lookup id).bind Entry.probe

theorem probe_entry (c : Catalog) (id : Text) :
    (c.entry id).probe = c.shown id := by
  unfold entry shown
  cases c.entries.lookup id <;> rfl

theorem shown_update (c : Catalog) (id key : Text) (change : Entry → Entry) :
    (c.update id change).shown key =
      if key = id then (change (c.entry id)).probe else c.shown key := by
  unfold shown
  rw [lookup_update]
  split_ifs <;> rfl

/-- What is left alone shows what it showed. -/
theorem shown_of_leaves {c d : Catalog} {id : Text} (left : Leaves c d id) :
    d.shown id = c.shown id := by
  obtain ⟨serial, same⟩ := left.entry
  rw [← probe_entry, same, ← probe_entry]

/-! ## Probes fade -/

/-- Probes are kept or vanish, and no test begins or ends. -/
structure Fades (c d : Catalog) : Prop where
  shown : ∀ id, d.shown id = none ∨ d.shown id = c.shown id
  tests : d.tests = c.tests

theorem Fades.refl (c : Catalog) : Fades c c :=
  ⟨fun _ => .inr rfl, rfl⟩

theorem Fades.trans {c d e : Catalog} (first : Fades c d)
    (second : Fades d e) : Fades c e where
  shown id := by
    rcases second.shown id with gone | kept
    · exact .inl gone
    · rw [kept]
      exact first.shown id
  tests := second.tests.trans first.tests

/-- What is not shown does not appear. -/
theorem Fades.hidden {c d : Catalog} {id : Text} (fades : Fades c d)
    (hidden : c.shown id = none) : d.shown id = none := by
  rcases fades.shown id with gone | kept
  · exact gone
  · exact kept.trans hidden

theorem Fades.of_entries {c d : Catalog} (entries : d.entries = c.entries)
    (tests : d.tests = c.tests) : Fades c d where
  shown id := by
    unfold Catalog.shown
    rw [entries]
    exact .inr rfl
  tests := tests

theorem tests_update (c : Catalog) (id : Text) (change : Entry → Entry) :
    (c.update id change).tests = c.tests := by
  unfold update
  split <;> rfl

theorem fades_update {c : Catalog} {id : Text} {change : Entry → Entry}
    (fades : ∀ e, (change e).probe = none ∨ (change e).probe = e.probe) :
    Fades c (c.update id change) where
  shown key := by
    rw [shown_update]
    split_ifs with same
    · subst same
      rw [← probe_entry]
      exact fades _
    · exact .inr rfl
  tests := tests_update c id change

/-- A change of an entry that is not one of its probe. -/
theorem fades_keep {c : Catalog} {id : Text} {change : Entry → Entry}
    (keeps : ∀ e, (change e).probe = e.probe) : Fades c (c.update id change) :=
  fades_update fun e => .inr (keeps e)

theorem fades_foldl {α β : Type} (catalog : β → Catalog) {f : β → α → β}
    (each : ∀ b a, Fades (catalog b) (catalog (f b a))) (list : List α)
    (start : β) : Fades (catalog start) (catalog (list.foldl f start)) := by
  induction list generalizing start with
  | nil => exact .refl _
  | cons a rest ih => exact (each start a).trans (ih (f start a))

theorem fades_stop (c : Catalog) (id : Text) : Fades c (c.stop id) :=
  fades_keep fun _ => rfl

theorem fades_halted (c : Catalog) (id : Text) : Fades c (c.halted id) :=
  (fades_stop c id).trans (fades_update fun _ => .inl rfl)

theorem shown_halted (c : Catalog) (id : Text) :
    (c.halted id).shown id = none := by
  unfold halted
  rw [shown_update, if_pos rfl]

theorem fades_openConnection (h : Host) (c : Catalog) (p : Profile) :
    Fades c (openConnection h c p).1 := by
  unfold openConnection
  dsimp only
  split_ifs
  all_goals try exact .refl c
  all_goals
    split
    · exact fades_keep fun _ => rfl
    · exact fades_keep fun _ => rfl

theorem fades_applyConnection (h : Host) (c : Catalog) (p : Profile) :
    Fades c (applyConnection h c p).1 := by
  have touched : Fades c (c.update p.id id) := fades_keep fun _ => rfl
  unfold applyConnection
  apply touched.trans
  generalize c.update p.id id = c
  dsimp only
  split_ifs
  · split
    · exact fades_keep fun _ => rfl
    · exact .refl c
  · split
    · exact fades_keep fun _ => rfl
    · exact fades_keep fun _ => rfl
  · exact (fades_halted c p.id).trans (fades_openConnection h _ p)
  · exact fades_halted c p.id

theorem fades_untilFailure
    {each : Catalog → Profile → Catalog × Option Problem}
    (fades : ∀ d p, Fades d (each d p).1) (c : Catalog) (list : List Profile) :
    Fades c (untilFailure each c list).1 := by
  induction list generalizing c with
  | nil => exact .refl c
  | cons p rest ih =>
      have first := fades c p
      unfold untilFailure
      split
      next d problem outcome =>
        rw [outcome] at first
        exact first
      next d outcome =>
        rw [outcome] at first
        exact first.trans (ih d)

theorem fades_applyWithin (h : Host) (depth : Nat) (c : Catalog)
    (p : Profile) : Fades c (applyWithin h depth c p).1 := by
  induction depth generalizing c p with
  | zero => exact .refl c
  | succ depth ih =>
      unfold applyWithin
      split_ifs
      · exact fades_untilFailure ih c _
      · exact fades_applyConnection h c p

theorem fades_apply (h : Host) (c : Catalog) (p : Profile) :
    Fades c (c.apply h p).1 :=
  fades_applyWithin h _ c p

theorem fades_listed (h : Host) (c : Catalog) (r : CatalogResponse) :
    Fades c (listed h c r).1 :=
  fades_foldl (fun c => c) (fun _ _ => fades_keep fun _ => rfl)
    (h.order c.profiles) c

theorem fades_applied (h : Host) (c : Catalog) (p : Profile)
    (r : CatalogResponse) : Fades c (applied h c p r).1 :=
  (fades_apply h c p).trans (fades_listed h _ _)

theorem shown_discard (c : Catalog) (id key : Text) :
    (c.discard id).shown key = if key = id then none else c.shown key := by
  have erased : (c.discard id).shown key =
      (((c.stop id).entries.erase id).lookup key).bind Entry.probe := rfl
  rw [erased]
  split_ifs with same
  · subst same
    rw [AList.lookup_erase]
    rfl
  · rw [AList.lookup_erase_ne same, stop, lookup_update, if_neg same]
    rfl

theorem fades_discard (c : Catalog) (id : Text) : Fades c (c.discard id) where
  shown key := by
    rw [shown_discard]
    split_ifs
    · exact .inl rfl
    · exact .inr rfl
  tests := tests_update c id _

theorem fades_dropRemoved (c : Catalog) : Fades c c.dropRemoved := by
  apply fades_foldl (fun c => c)
  intro d id
  split_ifs
  · exact .refl d
  · exact fades_discard d id

theorem fades_applySnapshot (h : Host) (c : Catalog) (q : CatalogRequest) :
    Fades c (c.applySnapshot h q).1 := by
  unfold applySnapshot
  split_ifs
  · exact .refl c
  · split
    · exact fades_apply h c _
    · exact .refl c
  · refine @fades_foldl _ _ Prod.fst _ ?_ _ (c, none)
    exact fun outcome p => fades_apply h outcome.1 p

theorem fades_persist (h : Host) (c : Catalog) (next : Profiles) :
    Fades c (c.persist h next).1 := by
  apply Fades.of_entries
  · exact persist_entries h c next
  · unfold persist
    split_ifs <;> rfl

/-! ## Steps that are no tests -/

theorem fades_autostart (h : Host) (c : Catalog) : Fades c (c.autostart h) := by
  apply fades_foldl (fun c => c)
  intro d p
  have applies := fades_apply h d p
  split
  next after outcome =>
    rw [outcome] at applies
    exact applies
  next after problem outcome =>
    rw [outcome] at applies
    exact applies.trans (fades_keep fun _ => rfl)

theorem fades_close (c : Catalog) : Fades c c.close := by
  have closes : Fades c { c with closed := true } := .of_entries rfl rfl
  exact closes.trans (fades_foldl (fun c => c) (fun d id => fades_stop d id) _ _)

theorem fades_migrate (h : Host) (c : Catalog) (saved : Option Saved)
    (stat : Option Problem) : Fades c (c.migrate h saved stat).1 := by
  unfold migrate
  split_ifs
  · exact .refl c
  · cases saved with
    | none => exact .refl c
    | some cfg =>
        dsimp only
        split_ifs
        · exact .refl c
        · exact fades_persist h c _

/-! ## Probes that are cleared -/

/-- Applying a connection clears its probe: it is disabled, or stopped to be
opened again. -/
def Clears (c : Catalog) (v : Profile) : Prop :=
  v.enabled = false ∨ c.way v = .restart

/-- Applying a profile clears the probe of an ID. -/
def ClearsAt (h : Host) (c : Catalog) (p : Profile) (id : Text) : Prop :=
  if p.kind = relayKind then
    ∃ v ∈ reached (c.fails h) (behind h c p), v.id = id ∧ c.way v = .restart
  else p.id = id ∧ c.Clears p

/-- What is left alone is applied in the same way. -/
theorem way_of_leaves {c d : Catalog} {v : Profile} (left : Leaves c d v.id)
    (profiles : d.profiles = c.profiles) : d.way v = c.way v := by
  obtain ⟨serial, same⟩ := left.entry
  unfold way
  rw [same, profiles]

theorem shown_applyConnection {h : Host} {c : Catalog} {v : Profile}
    (clears : c.Clears v) : (applyConnection h c v).1.shown v.id = none := by
  have way := way_of_leaves (confined_touch c v.id v.id not_false)
    (update_profiles c v.id _)
  unfold applyConnection
  generalize found : c.update v.id (fun e => e) = d at way
  rw [show c.update v.id id = d from found]
  dsimp only
  have told := way_spec d v
  dsimp only at told
  have skips : ¬ ((d.entry v.id).run.isSome = true ∧
        (d.entry v.id).active = runtimeRevision d.profiles v ∧
        v.enabled = true) ∧
      ¬ ((d.entry v.id).run.isSome = true ∧ v.enabled = true ∧
        (d.entry v.id).transport = transportRevision d.profiles v) := by
    rcases clears with disabled | restart
    · simp [disabled]
    · rw [way, restart] at told
      exact ⟨fun holds => told.1 ⟨holds.1, holds.2.1⟩,
        fun holds => told.2 ⟨holds.1, holds.2.2⟩⟩
  rw [if_neg skips.1, if_neg skips.2]
  have gone := shown_halted d v.id
  split_ifs
  · exact (fades_openConnection h _ v).hidden gone
  · exact gone

theorem clears_of_leaves {c d : Catalog} {v : Profile} (left : Leaves c d v.id)
    (profiles : d.profiles = c.profiles) (clears : c.Clears v) :
    d.Clears v := by
  unfold Clears
  rw [way_of_leaves left profiles]
  exact clears

/-- Of connections that are applied until one fails, those that are reached
and opened again lose their probes. -/
theorem shown_untilFailure {h : Host}
    {each : Catalog → Profile → Catalog × Option Problem} {c : Catalog}
    {list : List Profile}
    (fades : ∀ d v, Fades d (each d v).1)
    (applies : ∀ d v, v ∈ list → each d v = applyConnection h d v)
    (enabled : ∀ v ∈ list, v.enabled = true)
    (relay : ∀ v ∈ list, v.relayID ≠ [] →
      c.profiles.lookup v.relayID ≠ none)
    (connects : ∀ v ∈ list, Connects c.profiles v.id)
    (distinct : list.Pairwise fun v w => v.id ≠ w.id) {w : Profile}
    (member : w ∈ reached (c.fails h) list) (restart : c.way w = .restart) :
    (untilFailure each c list).1.shown w.id = none := by
  induction list generalizing c with
  | nil => exact nomatch member
  | cons v rest ih =>
      obtain ⟨away, apart⟩ := List.pairwise_cons.mp distinct
      have failed := (applyConnection_spec (h := h)
        (enabled v List.mem_cons_self) (relay v List.mem_cons_self)).1
      have confined := confined_applyConnection h c v
      have kept : (applyConnection h c v).1.profiles = c.profiles :=
        (quiet_applyConnection (connects v List.mem_cons_self)).profiles
      have own : c.Clears v → (applyConnection h c v).1.shown v.id = none :=
        shown_applyConnection
      unfold untilFailure
      rw [applies c v List.mem_cons_self]
      rcases applied : applyConnection h c v with ⟨d, problem⟩
      rw [applied] at failed confined kept own
      dsimp only at failed confined kept own
      cases problem with
      | some problem =>
          have failing : c.fails h v = true := by
            by_contra works
            rw [Bool.not_eq_true] at works
            cases failed.mpr works
          rw [reached_of_fails failing, List.mem_singleton] at member
          subst member
          exact own (.inr restart)
      | none =>
          rw [reached_of_works (failed.mp rfl)] at member
          rcases List.mem_cons.mp member with rfl | later
          · exact (fades_untilFailure fades d rest).hidden (own (.inr restart))
          · have unmoved {u : Profile} (listed : u ∈ rest) : Leaves c d u.id :=
              confined u.id (Ne.symm (away u listed))
            have same : reached (d.fails h) rest = reached (c.fails h) rest :=
              reached_congr fun u listed =>
                (outcome_of_leaves (unmoved listed) kept).1
            apply ih
            · exact fun e u listed => applies e u (List.mem_cons_of_mem v listed)
            · exact fun u listed => enabled u (List.mem_cons_of_mem v listed)
            · exact fun u listed => kept ▸ relay u (List.mem_cons_of_mem v listed)
            · exact fun u listed =>
                kept ▸ connects u (List.mem_cons_of_mem v listed)
            · exact apart
            · rw [same]
              exact later
            · rw [way_of_leaves (unmoved (mem_of_mem_reached later)) kept]
              exact restart

theorem shown_apply {h : Host} {c : Catalog} {p : Profile} {id : Text}
    (sound : Sound c.profiles) (stored : c.profiles.lookup p.id = some p)
    (clears : c.ClearsAt h p id) : (c.apply h p).1.shown id = none := by
  unfold ClearsAt at clears
  by_cases relay : p.kind = relayKind
  · rw [if_pos relay] at clears
    obtain ⟨v, member, rfl, restart⟩ := clears
    obtain ⟨depth, unfolded, applies⟩ := apply_behind (h := h) sound stored relay
    have isBehind {v : Profile} (listed : v ∈ behind h c p) : c.Behind p v :=
      (mem_behind sound).mp listed
    rw [unfolded]
    apply shown_untilFailure (fades_applyWithin h depth) applies
    · exact fun v listed => (isBehind listed).enabled
    · exact fun v listed => ((isBehind listed).spec sound stored).2.2
    · exact fun v listed => ((isBehind listed).spec sound stored).2.1
    · exact behind_distinct h p sound
    · exact member
    · exact restart
  · rw [if_neg relay] at clears
    obtain ⟨rfl, clears⟩ := clears
    unfold apply
    rw [applyWithin, if_neg relay]
    exact shown_applyConnection clears

/-- One round of `applyAll`. -/
def applyNext (h : Host) (outcome : Catalog × Option Problem) (p : Profile) :
    Catalog × Option Problem :=
  ((outcome.1.apply h p).1, join outcome.2 (outcome.1.apply h p).2)

theorem fades_applyNext (h : Host) (list : List Profile)
    (start : Catalog × Option Problem) :
    Fades start.1 (list.foldl (applyNext h) start).1 :=
  @fades_foldl _ _ Prod.fst (applyNext h)
    (fun outcome p => fades_apply h outcome.1 p) list start

/-- Of connections that are all applied, those that are cleared lose their
probes. -/
theorem shown_applyAll {h : Host} {m : Profiles} {list : List Profile}
    (sound : Sound m) (stored : ∀ v ∈ list, m.lookup v.id = some v)
    (direct : ∀ v ∈ list, v.kind ≠ relayKind)
    (distinct : list.Pairwise fun v w => v.id ≠ w.id) {w : Profile}
    (listed : w ∈ list) {start : Catalog × Option Problem}
    (profiles : start.1.profiles = m) (clears : start.1.Clears w) :
    (list.foldl (applyNext h) start).1.shown w.id = none := by
  induction list generalizing start with
  | nil => exact nomatch listed
  | cons v rest ih =>
      obtain ⟨away, apart⟩ := List.pairwise_cons.mp distinct
      have located : start.1.profiles.lookup v.id = some v := by
        rw [profiles]
        exact stored v List.mem_cons_self
      have soundly : Sound start.1.profiles := profiles ▸ sound
      have kept := (quiet_apply (h := h) soundly located).profiles
      have confined := confined_apply (h := h) soundly located
      rw [List.foldl_cons]
      rcases List.mem_cons.mp listed with rfl | later
      · apply (fades_applyNext h rest (applyNext h start w)).hidden
        apply shown_apply soundly located
        unfold ClearsAt
        rw [if_neg (direct w List.mem_cons_self)]
        exact ⟨rfl, clears⟩
      · apply ih
        · exact fun u member => stored u (List.mem_cons_of_mem v member)
        · exact fun u member => direct u (List.mem_cons_of_mem v member)
        · exact apart
        · exact later
        · exact kept.trans profiles
        · apply clears_of_leaves _ kept clears
          apply confined w.id
          rintro (itself | ⟨isRelay, _⟩)
          · exact away w later itself.symm
          · exact direct v List.mem_cons_self isRelay

/-- Entries of stored profiles are left alone, and those of others go. -/
theorem dropRemoved_entries (c : Catalog) (id : Text) :
    (id ∈ c.profiles → Leaves c c.dropRemoved id) ∧
      (id ∉ c.profiles → c.dropRemoved.shown id = none) := by
  have fades (keys : List Text) (d : Catalog) :
      Fades d (keys.foldl (fun d key =>
        if key ∈ d.profiles then d else d.discard key) d) := by
    apply fades_foldl (fun d => d)
    intro d key
    split_ifs
    · exact .refl d
    · exact fades_discard d key
  have fold (keys : List Text) (d : Catalog) (profiles : d.profiles = c.profiles) :
      (id ∈ c.profiles → Leaves d (keys.foldl (fun d key =>
        if key ∈ d.profiles then d else d.discard key) d) id) ∧
      (id ∉ c.profiles → id ∈ keys → (keys.foldl (fun d key =>
        if key ∈ d.profiles then d else d.discard key) d).shown id = none) := by
    induction keys generalizing d with
    | nil => exact ⟨fun _ => .refl d id, fun _ listed => nomatch listed⟩
    | cons key keys ih =>
        rw [List.foldl_cons]
        by_cases stored : key ∈ d.profiles
        · rw [if_pos stored]
          obtain ⟨kept, gone⟩ := ih d profiles
          refine ⟨kept, fun removed listed => ?_⟩
          rcases List.mem_cons.mp listed with rfl | later
          · exact absurd (profiles ▸ stored) removed
          · exact gone removed later
        · rw [if_neg stored]
          obtain ⟨kept, gone⟩ := ih (d.discard key)
            ((discard_profiles d key).trans profiles)
          constructor
          · intro isStored
            have other : id ≠ key := by
              rintro rfl
              exact stored (profiles ▸ isStored)
            exact (confined_discard d key id other).trans (kept isStored)
          · intro removed listed
            rcases List.mem_cons.mp listed with rfl | later
            · apply (fades keys _).hidden
              rw [shown_discard, if_pos rfl]
            · exact gone removed later
  obtain ⟨kept, gone⟩ := fold c.entries.keys c rfl
  refine ⟨kept, fun removed => ?_⟩
  by_cases listed : id ∈ c.entries.keys
  · exact gone removed listed
  · apply (fades_dropRemoved c).hidden
    unfold shown
    rw [AList.lookup_eq_none.mpr fun member => listed (AList.mem_keys.mp member)]
    rfl

end Catalog

end Veil.Control

import Veil.Control.Staged

/-!
# What a step changes

A step of the catalog is quiet, when it changes entries only, or it writes the
store that it proposes.  Every proposal of a sound store is sound and keeps
the kinds of its profiles.
-/

namespace Veil.Control

open Lib

namespace Catalog

/-- The connection of an ID runs. -/
def Runs (c : Catalog) (id : Text) : Prop :=
  ∃ e, c.entries.lookup id = some e ∧ e.run ≠ none

/-- An ID is that of a stored connection. -/
def Connects (m : Profiles) (id : Text) : Prop :=
  ∃ p, m.lookup id = some p ∧ p.kind = connectionKind

/-- Only entries change, and what starts to run is a stored connection. -/
structure Quiet (c d : Catalog) : Prop where
  file : d.file = c.file
  profiles : d.profiles = c.profiles
  runs : ∀ id, d.Runs id → c.Runs id ∨ Connects c.profiles id

theorem Quiet.refl (c : Catalog) : Quiet c c :=
  ⟨rfl, rfl, fun _ runs => .inl runs⟩

theorem Quiet.trans {c d e : Catalog} (first : Quiet c d)
    (second : Quiet d e) : Quiet c e where
  file := second.file.trans first.file
  profiles := second.profiles.trans first.profiles
  runs id runs := by
    rcases second.runs id runs with before | stored
    · exact first.runs id before
    · exact .inr (first.profiles ▸ stored)

/-! ## Entries -/

theorem lookup_update (c : Catalog) (id key : Text)
    (change : Entry → Entry) :
    (c.update id change).entries.lookup key =
      if key = id then some (change (c.entry id)) else c.entries.lookup key := by
  unfold update entry
  cases found : c.entries.lookup id with
  | none =>
      split_ifs with same
      · subst same
        exact AList.lookup_insert c.entries
      · exact AList.lookup_insert_ne same
  | some e =>
      split_ifs with same
      · subst same
        exact AList.lookup_insert c.entries
      · exact AList.lookup_insert_ne same

@[simp]
theorem update_file (c : Catalog) (id : Text) (change : Entry → Entry) :
    (c.update id change).file = c.file := by
  unfold update
  split <;> rfl

@[simp]
theorem update_profiles (c : Catalog) (id : Text) (change : Entry → Entry) :
    (c.update id change).profiles = c.profiles := by
  unfold update
  split <;> rfl

theorem closed_update (c : Catalog) (id : Text) (change : Entry → Entry) :
    (c.update id change).closed = c.closed := by
  unfold update
  split <;> rfl

theorem closed_list (h : Host) (c : Catalog) :
    (c.list h).1.closed = c.closed := by
  unfold list
  dsimp only
  generalize h.order c.profiles = order
  induction order generalizing c with
  | nil => rfl
  | cons entry rest ih =>
      rw [List.foldl_cons, ih]
      exact closed_update c entry.1 id

/-- An entry with a running connection is one that runs. -/
theorem runs_of_entry {c : Catalog} {id : Text}
    (running : (c.entry id).run ≠ none) : c.Runs id := by
  unfold entry at running
  cases found : c.entries.lookup id with
  | none => simp [found] at running
  | some e => exact ⟨e, found, by simpa [found] using running⟩

theorem quiet_update {c : Catalog} {id : Text} {change : Entry → Entry}
    (starts : (change (c.entry id)).run ≠ none →
      (c.entry id).run ≠ none ∨ Connects c.profiles id) :
    Quiet c (c.update id change) where
  file := update_file c id change
  profiles := update_profiles c id change
  runs key := by
    rintro ⟨e, found, running⟩
    rw [lookup_update] at found
    split_ifs at found with same
    · subst same
      obtain rfl := Option.some.inj found
      exact (starts running).imp_left runs_of_entry
    · exact .inl ⟨e, found, running⟩

theorem quiet_stop (c : Catalog) (id : Text) : Quiet c (c.stop id) :=
  quiet_update fun running => absurd rfl running

/-- A quiet change for each element of a list. -/
theorem quiet_foldl {α β : Type} (catalog : β → Catalog) {f : β → α → β}
    {list : List α} (start : β)
    (each : ∀ b a, a ∈ list →
      (catalog b).profiles = (catalog start).profiles →
        Quiet (catalog b) (catalog (f b a))) :
    Quiet (catalog start) (catalog (list.foldl f start)) := by
  induction list generalizing start with
  | nil => exact Quiet.refl _
  | cons a rest ih =>
      have first := each start a (by simp) rfl
      exact first.trans (ih _ fun b later listed same =>
        each b later (by simp [listed]) (same.trans first.profiles))

/-! ## Applying profiles -/

theorem quiet_openConnection {h : Host} {c : Catalog} {p : Profile}
    (stored : Connects c.profiles p.id) : Quiet c (openConnection h c p).1 := by
  unfold openConnection
  dsimp only
  split_ifs
  all_goals try exact Quiet.refl c
  all_goals
    split
    next => exact quiet_update fun running => .inl running
    next => exact quiet_update fun _ => .inr stored

theorem quiet_applyConnection {h : Host} {c : Catalog} {p : Profile}
    (stored : Connects c.profiles p.id) : Quiet c (applyConnection h c p).1 := by
  have touched : Quiet c (c.update p.id id) :=
    quiet_update fun running => .inl running
  unfold applyConnection
  refine touched.trans ?_
  have still : Connects (c.update p.id id).profiles p.id := by
    simpa using stored
  generalize c.update p.id id = c at still
  dsimp only
  split_ifs
  · split
    next => exact quiet_update fun running => .inl running
    next => exact Quiet.refl c
  · split
    next => exact quiet_update fun running => .inl running
    next => exact quiet_update fun _ => .inr still
  · have halted : Quiet c ((c.stop p.id).update p.id
        ({ · with err := none, probe := none })) :=
      (quiet_stop c p.id).trans (quiet_update fun running => .inl running)
    refine halted.trans (quiet_openConnection ?_)
    rw [halted.profiles]
    exact still
  · exact (quiet_stop c p.id).trans
      (quiet_update fun running => .inl running)

theorem quiet_untilFailure
    {each : Catalog → Profile → Catalog × Option Problem} {c : Catalog}
    {list : List Profile}
    (quiet : ∀ d p, p ∈ list → d.profiles = c.profiles →
      Quiet d (each d p).1) : Quiet c (untilFailure each c list).1 := by
  induction list generalizing c with
  | nil => exact Quiet.refl c
  | cons p rest ih =>
      have first := quiet c p (by simp) rfl
      unfold untilFailure
      split
      next d problem outcome =>
        rw [outcome] at first
        exact first
      next d outcome =>
        rw [outcome] at first
        exact first.trans (ih fun e q listed same =>
          quiet e q (by simp [listed]) (same.trans first.profiles))

/-- The profiles gone through are stored under their IDs. -/
theorem stored_of_order {h : Host} {m : Profiles} (sound : Sound m)
    {p : Profile} (listed : p ∈ (h.order m).map (·.2)) :
    m.lookup p.id = some p := by
  obtain ⟨⟨id, q⟩, member, rfl⟩ := List.mem_map.mp listed
  have stored := Host.mem_order.mp member
  rw [sound.keyed id q stored]
  exact stored

theorem quiet_applyWithin {h : Host} (depth : Nat) {c : Catalog}
    {p : Profile} (sound : Sound c.profiles)
    (stored : c.profiles.lookup p.id = some p) :
    Quiet c (applyWithin h depth c p).1 := by
  induction depth generalizing c p with
  | zero => exact Quiet.refl c
  | succ depth ih =>
      unfold applyWithin
      split_ifs with relay
      · apply quiet_untilFailure
        intro d v listed same
        have user := stored_of_order sound (List.mem_of_mem_filter listed)
        exact ih (same ▸ sound) (same ▸ user)
      · exact quiet_applyConnection ⟨p, stored,
          (sound.kind p.id p stored).resolve_right relay⟩

theorem quiet_apply {h : Host} {c : Catalog} {p : Profile}
    (sound : Sound c.profiles) (stored : c.profiles.lookup p.id = some p) :
    Quiet c (c.apply h p).1 :=
  quiet_applyWithin _ sound stored

theorem quiet_list (h : Host) (c : Catalog) : Quiet c (c.list h).1 := by
  exact quiet_foldl (fun c => c) c fun d entry _ _ =>
    quiet_update fun running => .inl running

theorem quiet_listed (h : Host) (c : Catalog) (r : CatalogResponse) :
    Quiet c (listed h c r).1 :=
  quiet_list h c

theorem quiet_applied {h : Host} {c : Catalog} {p : Profile}
    (sound : Sound c.profiles) (stored : c.profiles.lookup p.id = some p)
    (r : CatalogResponse) : Quiet c (applied h c p r).1 :=
  (quiet_apply sound stored).trans (quiet_listed h _ _)

theorem quiet_applySnapshot {h : Host} {c : Catalog} (q : CatalogRequest)
    (sound : Sound c.profiles) : Quiet c (c.applySnapshot h q).1 := by
  unfold applySnapshot
  split_ifs
  · exact Quiet.refl c
  · split
    next p found =>
      apply quiet_apply sound
      rw [sound.keyed q.id p found]
      exact found
    next => exact Quiet.refl c
  · exact quiet_foldl Prod.fst (c, none) fun outcome p listed same =>
      quiet_apply (same ▸ sound)
        (same ▸ stored_of_order sound (List.mem_of_mem_filter listed))

/-! ## Entries that go -/

theorem runs_discard {c : Catalog} {id key : Text}
    (running : (c.discard id).Runs key) : key ≠ id ∧ c.Runs key := by
  obtain ⟨e, found, running⟩ := running
  by_cases same : key = id
  · subst same
    simp [discard] at found
  · refine ⟨same, e, ?_, running⟩
    have located : ((c.stop id).entries.erase id).lookup key = some e := found
    rw [AList.lookup_erase_ne same, stop, lookup_update, if_neg same] at located
    exact located

theorem discard_file (c : Catalog) (id : Text) :
    (c.discard id).file = c.file :=
  update_file c id _

theorem discard_profiles (c : Catalog) (id : Text) :
    (c.discard id).profiles = c.profiles :=
  update_profiles c id _

/-- After removed entries are dropped, only stored profiles run. -/
theorem dropRemoved_spec (c : Catalog) :
    (c.dropRemoved).file = c.file ∧ (c.dropRemoved).profiles = c.profiles ∧
      ∀ id, (c.dropRemoved).Runs id → c.Runs id ∧ id ∈ c.profiles := by
  have fold : ∀ (keys : List Text) (d : Catalog),
      d.profiles = c.profiles →
      let after := keys.foldl (fun c id =>
        if id ∈ c.profiles then c else c.discard id) d
      after.file = d.file ∧ after.profiles = d.profiles ∧
        ∀ id, after.Runs id → d.Runs id ∧ (id ∈ keys → id ∈ c.profiles) := by
    intro keys
    induction keys with
    | nil => exact fun d _ => ⟨rfl, rfl, fun id running => ⟨running, by simp⟩⟩
    | cons key keys ih =>
        intro d same
        dsimp only [List.foldl_cons]
        by_cases stored : key ∈ d.profiles
        · rw [if_pos stored]
          obtain ⟨file, profiles, runs⟩ := ih d same
          refine ⟨file, profiles, fun id running => ?_⟩
          obtain ⟨before, later⟩ := runs id running
          refine ⟨before, fun listed => ?_⟩
          rcases List.mem_cons.mp listed with rfl | after
          · exact same ▸ stored
          · exact later after
        · rw [if_neg stored]
          obtain ⟨file, profiles, runs⟩ := ih (d.discard key)
            ((discard_profiles d key).trans same)
          refine ⟨file.trans (discard_file d key),
            profiles.trans (discard_profiles d key), fun id running => ?_⟩
          obtain ⟨before, later⟩ := runs id running
          obtain ⟨other, earlier⟩ := runs_discard before
          refine ⟨earlier, fun listed => ?_⟩
          rcases List.mem_cons.mp listed with same | after
          · exact absurd same other
          · exact later after
  obtain ⟨file, profiles, runs⟩ := fold c.entries.keys c rfl
  refine ⟨file, profiles, fun id running => ?_⟩
  obtain ⟨before, listed⟩ := runs id running
  have ran := before
  obtain ⟨e, found, _⟩ := ran
  exact ⟨before, listed (AList.mem_keys.mp
    (AList.lookup_isSome.mp (by simp [found])))⟩

/-! ## Steps without a write -/

theorem quiet_autostart {h : Host} {c : Catalog} (sound : Sound c.profiles) :
    Quiet c (c.autostart h) := by
  apply quiet_foldl (fun c => c) c
  intro d p listed same
  have stored := stored_of_order sound (List.mem_of_mem_filter listed)
  have quiet : Quiet d (d.apply h p).1 :=
    quiet_apply (same ▸ sound) (same ▸ stored)
  split
  next after outcome =>
    rw [outcome] at quiet
    exact quiet
  next after problem outcome =>
    rw [outcome] at quiet
    exact quiet.trans (quiet_update fun running => .inl running)

theorem quiet_close (c : Catalog) : Quiet c c.close := by
  have closes : Quiet c { c with closed := true } :=
    ⟨rfl, rfl, fun _ running => .inl running⟩
  exact closes.trans (quiet_foldl (fun c => c) _ fun d id _ _ =>
    quiet_stop d id)

theorem quiet_beginTest (c : Catalog) (version : Int) (id : Text) :
    Quiet c (c.beginTest version id).1 := by
  unfold beginTest
  split_ifs
  · exact Quiet.refl c
  · split
    next => exact Quiet.refl c
    next p _ =>
      split_ifs
      · exact Quiet.refl c
      · exact quiet_update fun running => .inl running
      · have marked : Quiet c (c.update p.id ({ · with testing := true })) :=
          quiet_update fun running => .inl running
        exact marked.trans ⟨rfl, rfl, fun _ running => .inl running⟩

theorem quiet_endTest (h : Host) (c : Catalog) (test : Pending)
    (result : ProbeResult) : Quiet c (c.endTest h test result).1 := by
  have conditional : ∀ (d : Catalog) (holds : Bool) (change : Entry → Entry),
      (∀ e, (change e).run = e.run) →
      Quiet d (if holds then d.update test.profile.id change else d) := by
    intro d holds change keeps
    split_ifs
    · exact quiet_update fun running => .inl (keeps _ ▸ running)
    · exact Quiet.refl d
  have erased : Quiet c { c with tests := c.tests.erase test } :=
    ⟨rfl, rfl, fun _ running => .inl running⟩
  unfold endTest
  refine Quiet.trans ?_ (quiet_listed h _ _)
  refine Quiet.trans ?_ (conditional _ _ _ fun _ => rfl)
  exact erased.trans (conditional _ _ _ fun _ => rfl)

/-! ## Writes -/

/-- The write takes effect and reports an error all the same. -/
def Late (h : Host) : Prop :=
  h.fault = some .openDirectory ∨ h.fault = some .syncDirectory

instance (h : Host) : Decidable (Late h) :=
  inferInstanceAs (Decidable (_ ∨ _))

/-- A store is written. -/
def stores (c : Catalog) (next : Profiles) : Catalog :=
  { c with file := some (next.text ++ ['\n']), profiles := next }

/-- A write is refused or fails and changes nothing, or the store is written,
with an error when the write is late. -/
theorem persist_cases (h : Host) (c : Catalog) (next : Profiles) :
    (∃ problem, c.persist h next = (c, some problem)) ∨
      (next.text.bytes ≤ maxConfigSize ∧
        ((∃ problem, Late h ∧
            c.persist h next = (c.stores next, some problem)) ∨
          c.persist h next = (c.stores next, none))) := by
  unfold persist
  rcases Nat.lt_or_ge maxConfigSize next.text.bytes with large | small
  · rw [if_pos large]
    exact .inl ⟨_, rfl⟩
  · rw [if_neg (Nat.not_lt.mpr small)]
    cases fault : h.fault with
    | none => exact .inr ⟨small, .inr rfl⟩
    | some step =>
        cases step with
        | create | write | sync | close | rename => exact .inl ⟨_, rfl⟩
        | openDirectory =>
            exact .inr ⟨small, .inl ⟨_, .inl fault, rfl⟩⟩
        | syncDirectory =>
            exact .inr ⟨small, .inl ⟨_, .inr fault, rfl⟩⟩

/-- A store is written when nothing fails and it is not too large. -/
theorem persist_written (h : Host) (c : Catalog) (next : Profiles) :
    (h.fault = none ∧ next.text.bytes ≤ maxConfigSize ∧
      c.persist h next = (c.stores next, none)) ∨
    (¬ (h.fault = none ∧ next.text.bytes ≤ maxConfigSize) ∧
      ∃ problem, (c.persist h next).2 = some problem) := by
  unfold persist
  rcases Nat.lt_or_ge maxConfigSize next.text.bytes with large | small
  · rw [if_pos large]
    exact .inr ⟨fun fits => absurd fits.2 (Nat.not_le.mpr large), _, rfl⟩
  · rw [if_neg (Nat.not_lt.mpr small)]
    cases fault : h.fault with
    | none => exact .inl ⟨rfl, small, rfl⟩
    | some step =>
        right
        constructor
        · exact fun fits => nomatch fits.1
        · cases step <;> exact ⟨_, rfl⟩

end Catalog

end Veil.Control

import Veil.Control.Running
import Veil.Control.Shown

/-!
# Probes of what is stored

A probe is to be the result of a test of the profile that is stored: of its
transport, its names and listeners aside.  A test compares revisions before it
stores its result, but a save can leave a probe behind.  This file proves that
every probe that is shown belongs to the stored profile, as long as a write
that changes a transport also clears the probes of those who use it.
-/

namespace Veil.Control

open Lib

/-! ## Where probes come from -/

/-- What the own part of a runtime revision is the revision of. -/
def Profile.cleared (p : Profile) : Profile :=
  { p with name := [], enabled := false }

/-- The transport revision of a test: that of the profile that is tested,
without its listeners, followed by that of the relay when the test began. -/
def Pending.transport (test : Pending) : Text :=
  Profile.revision { test.profile.cleared with inlets := none } ++
    test.revision.drop 64

/-- A catalog, and for each ID the last test whose result was stored. -/
structure Watched where
  catalog : Catalog := {}
  source : Text → Option (Pending × ProbeResult) := fun _ => none

namespace Catalog

/-- A test that ends stores its result. -/
def records (c : Catalog) (test : Pending) : Bool :=
  ((c.entries.lookup test.profile.id).any fun e => e.serial = test.serial) &&
    (c.profiles.lookup test.profile.id).any fun p =>
      !c.closed && runtimeRevision c.profiles p = test.revision

def watch (s : Watched) (action : Action) : Option Watched :=
  (step s.catalog action).map fun catalog =>
    { catalog
      source :=
        match action with
        | .endTest _ test result =>
            if s.catalog.records test then
              Function.update s.source test.profile.id (some (test, result))
            else s.source
        | _ => s.source }

/-- The catalog of an empty store under anything that can happen to it, with
the tests that its probes come from. -/
def watching : Machine Watched Action where
  start s := s = {}
  step := watch

/-- Every probe that is shown is the result of a test with the transport
revision of the profile that is stored under its ID. -/
def Current (s : Watched) : Prop :=
  ∀ id result, s.catalog.shown id = some result →
    ∃ p test, s.catalog.profiles.lookup id = some p ∧
      s.source id = some (test, result) ∧
      test.transport = transportRevision s.catalog.profiles p

/-! ## Writes that renew what is shown -/

/-- The profile of an ID stays stored with its transport revision. -/
def KeepsTransport (m next : Profiles) (id : Text) : Prop :=
  ∃ p q, m.lookup id = some p ∧ next.lookup id = some q ∧
    transportRevision next q = transportRevision m p

/-- A request whose store is written, and not applied yet, is to clear the
probe of an ID. -/
def Invalidates (h : Host) (d : Catalog) (q : CatalogRequest) (id : Text) :
    Prop :=
  match q.action with
  | .connectionSave =>
      q.apply = true ∧ ∃ p r, q.profile = some p ∧
        d.profiles.lookup p.id = some r ∧ d.ClearsAt h r id
  | .connectionStart | .connectionStop =>
      ∃ r, d.profiles.lookup q.id = some r ∧ d.ClearsAt h r id
  | .connectionDelete => q.id = id
  | .connectionsSave =>
      id ∉ d.profiles ∨ q.apply = true ∧
        if q.id ≠ [] then
          ∃ r, d.profiles.lookup q.id = some r ∧ d.ClearsAt h r id
        else
          ∃ v, d.profiles.lookup id = some v ∧ v.kind = connectionKind ∧
            d.Clears v
  | _ => False

/-- Where a probe is shown, a write keeps the transport of the profile, or it
reports no error and the probe is cleared.  A test does not store its result
by a collision of digests. -/
def Renews (c : Catalog) : Action → Prop
  | .request h q =>
      ∀ next, c.proposes h q = some next → next.text.bytes ≤ maxConfigSize →
        (h.fault = none ∨ Late h) → ∀ id, c.shown id ≠ none →
          KeepsTransport c.profiles next id ∨
            (h.fault = none ∧ Invalidates h (c.stores next) q id)
  | .endTest _ test _ =>
      c.records test = true →
        ∀ p, c.profiles.lookup test.profile.id = some p →
          ¬ Collide p.cleared.text test.profile.cleared.text
  | _ => True

/-! ## Tests and their revisions -/

/-- The revision of the relay of a profile. -/
def relayRevision (m : Profiles) (id : Text) : Text :=
  match m.lookup id with
  | some r => Profile.revision { r with name := [] }
  | none => []

/-- A runtime revision is that of the profile followed by that of its relay. -/
theorem runtimeRevision_eq (m : Profiles) (p : Profile) :
    runtimeRevision m p = p.cleared.revision ++ relayRevision m p.relayID := by
  unfold runtimeRevision relayRevision Profile.cleared
  dsimp only
  cases m.lookup p.relayID with
  | none => exact (List.append_nil _).symm
  | some r => dsimp only

theorem length_revision (p : Profile) : p.revision.length = 64 := by
  unfold Profile.revision
  exact Sha256.length_sum (Json.print .compact 0 p.json)

theorem transport_eq {test : Pending} {m : Profiles}
    (revision : test.revision = runtimeRevision m test.profile) :
    test.transport = transportRevision m test.profile := by
  unfold Pending.transport transportRevision
  rw [revision, runtimeRevision_eq, runtimeRevision_eq,
    List.drop_left' (length_revision test.profile.cleared)]
  unfold Profile.cleared
  dsimp only

/-- A test whose runtime revision is that of a stored profile was one of its
transport, unless digests collide. -/
theorem transport_of_revision {test : Pending} {m n : Profiles} {p : Profile}
    (settled : p.config.defaults = .ok p.config)
    (tested : test.profile.config.defaults = .ok test.profile.config)
    (apart : ¬ Collide p.cleared.text test.profile.cleared.text)
    (begun : test.revision = runtimeRevision m test.profile)
    (same : runtimeRevision n p = test.revision) :
    test.transport = transportRevision n p := by
  have own : p.cleared.revision = test.profile.cleared.revision := by
    have joined := same.trans begun
    rw [runtimeRevision_eq, runtimeRevision_eq] at joined
    have lengths : p.cleared.revision.length =
        test.profile.cleared.revision.length := by
      rw [length_revision, length_revision]
    exact (List.append_inj joined lengths).1
  have equal : p.cleared = test.profile.cleared :=
    (Profile.eq_or_collide (p := p.cleared) (q := test.profile.cleared)
      settled tested own).resolve_right apart
  have moved : Pending.transport { test with profile := p } =
      transportRevision n p :=
    transport_eq same.symm
  rw [← moved]
  unfold Pending.transport
  dsimp only
  rw [equal]

/-! ## Requests and what they clear -/

/-- A write is refused, is late, or takes effect without an error. -/
theorem persist_told (h : Host) (c : Catalog) (next : Profiles) :
    (∃ problem, c.persist h next = (c, some problem)) ∨
      (next.text.bytes ≤ maxConfigSize ∧
        ((∃ problem, Late h ∧
            c.persist h next = (c.stores next, some problem)) ∨
          (h.fault = none ∧ c.persist h next = (c.stores next, none)))) := by
  apply (persist_cases h c next).imp_right
  rintro ⟨small, late | same⟩
  · exact ⟨small, .inl late⟩
  · rcases persist_written h c next with ⟨works, _⟩ | ⟨_, problem, failed⟩
    · exact ⟨small, .inr ⟨works, same⟩⟩
    · rw [same] at failed
      exact nomatch failed

theorem Late.fault {h : Host} (late : Late h) : h.fault ≠ none := by
  rcases late with failed | failed
  · rw [failed]
    exact Option.some_ne_none _
  · rw [failed]
    exact Option.some_ne_none _

/-- A handler lets probes fade.  It leaves the store as it is, or it writes
what it proposes, and clears some probes if nothing fails. -/
inductive Handled (h : Host) (c : Catalog) (proposal : Option Profiles)
    (clears : Catalog → Text → Prop) (d : Catalog) : Prop where
  | still (fades : Fades c d) (profiles : d.profiles = c.profiles) :
      Handled h c proposal clears d
  | written {next : Profiles} (proposed : proposal = some next)
      (small : next.text.bytes ≤ maxConfigSize)
      (effect : h.fault = none ∨ Late h) (fades : Fades c d)
      (profiles : d.profiles = next)
      (cleared : h.fault = none → ∀ id, clears (c.stores next) id →
        d.shown id = none) :
      Handled h c proposal clears d

theorem fades_stores (c : Catalog) (next : Profiles) :
    Fades c (c.stores next) :=
  .of_entries rfl rfl

theorem handled_refl {h : Host} {c : Catalog} {proposal : Option Profiles}
    {clears : Catalog → Text → Prop} : Handled h c proposal clears c :=
  .still (.refl c) rfl

theorem handled_listed {h : Host} {c : Catalog} {proposal : Option Profiles}
    {clears : Catalog → Text → Prop} (r : CatalogResponse) :
    Handled h c proposal clears (listed h c r).1 :=
  .still (fades_listed h c r) (quiet_listed h c r).profiles

/-- A store that is written late. -/
theorem handled_late {h : Host} {c d : Catalog} {next : Profiles}
    {clears : Catalog → Text → Prop}
    (small : next.text.bytes ≤ maxConfigSize) (late : Late h)
    (fades : Fades (c.stores next) d) (profiles : d.profiles = next) :
    Handled h c (some next) clears d :=
  .written rfl small (.inr late) ((fades_stores c next).trans fades) profiles
    fun works => absurd works late.fault

/-- A store that is written and applied. -/
theorem handled_applied {h : Host} {c : Catalog} {next : Profiles}
    {p : Profile} {clears : Catalog → Text → Prop} (r : CatalogResponse)
    (small : next.text.bytes ≤ maxConfigSize) (works : h.fault = none)
    (added : Added c.profiles next p)
    (cleared : ∀ id, clears (c.stores next) id →
      (c.stores next).ClearsAt h p id) :
    Handled h c (some next) clears (applied h (c.stores next) p r).1 := by
  apply Handled.written rfl small (.inl works)
  · exact (fades_stores c next).trans (fades_applied h _ p r)
  · exact (quiet_applied added.sound added.stored r).profiles
  · intro _ id clears
    apply (fades_listed h _ _).hidden
    exact shown_apply added.sound added.stored (cleared id clears)

theorem handled_connectionSave {h : Host} {c : Catalog} {q : CatalogRequest}
    (sound : Sound c.profiles) (isSave : q.action = .connectionSave) :
    Handled h c (c.proposesSave h q) (fun d id => d.Invalidates h q id)
      (c.connectionSave h q).1 := by
  unfold connectionSave proposesSave
  cases given : q.profile with
  | none => exact handled_refl
  | some p =>
      dsimp only [Option.bind_some]
      by_cases conflict : c.conflicts q p.id = true
      · rw [if_pos conflict, if_pos conflict]
        exact handled_refl
      · rw [if_neg conflict, if_neg conflict]
        cases saved : c.saveConnection h p q.relay with
        | error problem => exact handled_refl
        | ok result =>
            obtain ⟨r, next⟩ := result
            have added := added_of_saveConnection sound saved
            have own := saveConnection_id saved
            show Handled h c (some next) _ _
            dsimp only
            rcases persist_told h c next with
              ⟨problem, same⟩ | ⟨small, ⟨problem, late, same⟩ | ⟨works, same⟩⟩
            · rw [same]
              exact handled_refl
            · rw [same]
              exact handled_late small late (.refl _) rfl
            · rw [same]
              dsimp only
              by_cases apply : q.apply = true
              · rw [if_pos apply]
                apply handled_applied _ small works added
                intro id clears
                unfold Invalidates at clears
                rw [isSave, given] at clears
                obtain ⟨_, s, t, itself, stored, clears⟩ := clears
                obtain rfl := Option.some.inj itself
                have located : next.lookup p.id = some r := own ▸ added.stored
                obtain rfl := Option.some.inj (stored.symm.trans located)
                exact clears
              · rw [if_neg apply]
                apply Handled.written rfl small (.inl works)
                · exact (fades_stores c next).trans (fades_listed h _ _)
                · exact (quiet_listed h _ _).profiles
                · intro _ id clears
                  unfold Invalidates at clears
                  rw [isSave] at clears
                  exact absurd clears.1 apply

theorem handled_changing {h : Host} {c : Catalog} {q : CatalogRequest}
    {change : Profile → Catalog × CatalogResponse}
    {propose : Profile → Option Profiles} {clears : Catalog → Text → Prop}
    (each : ∀ p, c.profiles.lookup q.id = some p →
      Handled h c (propose p) clears (change p).1) :
    Handled h c
      (if c.conflicts q q.id then none
        else (c.profiles.lookup q.id).bind propose) clears
      (c.changing q change).1 := by
  unfold changing
  split_ifs with conflict
  · exact handled_refl
  · cases found : c.profiles.lookup q.id with
    | none => exact handled_refl
    | some p => exact each p found

theorem handled_connectionToggle {h : Host} {c : Catalog}
    {q : CatalogRequest} {p : Profile} {enabled : Bool}
    (sound : Sound c.profiles) (stored : c.profiles.lookup q.id = some p)
    (toggles : q.action = .connectionStart ∨ q.action = .connectionStop) :
    Handled h c
      (if p.kind ≠ connectionKind then none
        else (c.toggled h p enabled).toOption.map fun p =>
          c.profiles.insert p.id p)
      (fun d id => d.Invalidates h q id) (c.connectionToggle h p enabled).1 := by
  have keyed := sound.keyed q.id p stored
  unfold connectionToggle
  split_ifs with relay
  · exact handled_refl
  · cases accepted : c.toggled h p enabled with
    | error problem => exact handled_refl
    | ok r =>
        have added := added_of_toggled sound stored accepted
        have own : r.id = q.id := (toggled_same accepted).1.trans keyed
        show Handled h c (some (c.profiles.insert r.id r)) _ _
        dsimp only
        rcases persist_told h c (c.profiles.insert r.id r) with
          ⟨problem, same⟩ | ⟨small, ⟨problem, late, same⟩ | ⟨works, same⟩⟩
        · rw [same]
          exact handled_refl
        · rw [same]
          exact handled_late small late (.refl _) rfl
        · rw [same]
          apply handled_applied _ small works added
          intro id clears
          obtain ⟨s, located, clears⟩ : ∃ s,
              (c.stores (c.profiles.insert r.id r)).profiles.lookup q.id =
                some s ∧ (c.stores (c.profiles.insert r.id r)).ClearsAt h s id := by
            unfold Invalidates at clears
            rcases toggles with isStart | isStop
            · rw [isStart] at clears
              exact clears
            · rw [isStop] at clears
              exact clears
          rw [← own] at located
          obtain rfl := Option.some.inj (added.stored.symm.trans located)
          exact clears

theorem handled_connectionDelete {h : Host} {c : Catalog}
    {q : CatalogRequest} {p : Profile} (sound : Sound c.profiles)
    (stored : c.profiles.lookup q.id = some p)
    (isDelete : q.action = .connectionDelete) :
    Handled h c
      (if (c.user h p).isSome then none else some (c.profiles.erase p.id))
      (fun d id => d.Invalidates h q id) (c.connectionDelete h p).1 := by
  have keyed := sound.keyed q.id p stored
  unfold connectionDelete
  cases found : c.user h p with
  | some v => exact handled_refl
  | none =>
      dsimp only [Option.isSome_none]
      rw [if_neg Bool.false_ne_true]
      rcases persist_told h c (c.profiles.erase p.id) with
        ⟨problem, same⟩ | ⟨small, ⟨problem, late, same⟩ | ⟨works, same⟩⟩
      · rw [same]
        exact handled_refl
      · rw [same]
        exact handled_late small late (.refl _) rfl
      · rw [same]
        apply Handled.written rfl small (.inl works)
        · apply (fades_stores c _).trans
          exact (fades_discard _ p.id).trans (fades_listed h _ _)
        · exact (quiet_listed h _ _).profiles.trans (discard_profiles _ _)
        · intro _ id clears
          unfold Invalidates at clears
          rw [isDelete] at clears
          apply (fades_listed h _ _).hidden
          rw [shown_discard, if_pos (clears.symm.trans keyed.symm)]

/-! ### Snapshots -/

/-- What is to be cleared is still to be cleared when the entries of stored
profiles are left alone. -/
theorem clearsAt_of_leaves {h : Host} {c d : Catalog} {p : Profile} {id : Text}
    (sound : Sound c.profiles) (stored : c.profiles.lookup p.id = some p)
    (profiles : d.profiles = c.profiles)
    (left : ∀ key ∈ c.profiles, Leaves c d key) (clears : c.ClearsAt h p id) :
    d.ClearsAt h p id := by
  have leaves {v : Profile} (located : c.profiles.lookup v.id = some v) :
      Leaves c d v.id :=
    left v.id (AList.lookup_isSome.mp (by simp [located]))
  unfold ClearsAt at clears ⊢
  split_ifs at clears ⊢ with relay
  · obtain ⟨v, member, named, restart⟩ := clears
    have same : behind h d p = behind h c p := by
      unfold behind
      rw [profiles]
    have isBehind {w : Profile} (listed : w ∈ behind h c p) : Leaves c d w.id :=
      leaves ((mem_behind sound).mp listed).stored
    have whole : reached (d.fails h) (behind h d p) =
        reached (c.fails h) (behind h c p) := by
      rw [same]
      apply reached_congr
      exact fun w listed => (outcome_of_leaves (isBehind listed) profiles).1
    refine ⟨v, whole ▸ member, named, ?_⟩
    rw [way_of_leaves (isBehind (mem_of_mem_reached member)) profiles]
    exact restart
  · exact ⟨clears.1, clears_of_leaves (leaves stored) profiles clears.2⟩

/-- A snapshot that is applied clears the probes that it is to clear. -/
theorem shown_applySnapshot {h : Host} {c : Catalog} {q : CatalogRequest}
    {id : Text} (sound : Sound c.profiles) (isSave : q.action = .connectionsSave)
    (stored : id ∈ c.profiles) (invalid : c.Invalidates h q id) :
    (c.applySnapshot h q).1.shown id = none := by
  unfold Invalidates at invalid
  rw [isSave] at invalid
  obtain ⟨apply, clears⟩ := invalid.resolve_left (not_not.mpr stored)
  unfold applySnapshot
  rw [if_neg (by simp [apply])]
  split_ifs at clears ⊢ with one
  · obtain ⟨r, found, clears⟩ := clears
    have keyed := sound.keyed q.id r found
    rw [found]
    exact shown_apply sound (keyed.symm ▸ found) clears
  · obtain ⟨v, found, direct, clears⟩ := clears
    obtain rfl := sound.keyed id v found
    have listed : v ∈ ((h.order c.profiles).map (·.2)).filter fun p =>
        p.kind = connectionKind := by
      apply List.mem_filter.mpr
      exact ⟨List.mem_map.mpr ⟨_, Host.mem_order.mpr found, rfl⟩, by simp [direct]⟩
    apply @shown_applyAll h c.profiles _ sound _ _ _ v listed (c, none) rfl clears
    · exact fun w member => stored_of_order sound (List.mem_of_mem_filter member)
    · intro w member relay
      have isConnection : w.kind = connectionKind := by
        simpa using (List.mem_filter.mp member).2
      exact relay_ne_connection (relay.symm.trans isConnection)
    · exact (order_distinct h sound).filter _

theorem invalidates_of_leaves {h : Host} {c d : Catalog} {q : CatalogRequest}
    {id : Text} (sound : Sound c.profiles) (isSave : q.action = .connectionsSave)
    (profiles : d.profiles = c.profiles)
    (left : ∀ key ∈ c.profiles, Leaves c d key)
    (clears : c.Invalidates h q id) : d.Invalidates h q id := by
  unfold Invalidates at clears ⊢
  rw [isSave] at clears ⊢
  dsimp only at clears ⊢
  rw [profiles]
  rcases clears with removed | ⟨apply, clears⟩
  · exact .inl removed
  · refine .inr ⟨apply, ?_⟩
    split_ifs at clears ⊢
    · obtain ⟨r, found, clears⟩ := clears
      have keyed := sound.keyed q.id r found
      exact ⟨r, found, clearsAt_of_leaves sound (keyed.symm ▸ found) profiles
        left clears⟩
    · obtain ⟨v, found, direct, clears⟩ := clears
      have keyed := sound.keyed id v found
      have left := left id (AList.lookup_isSome.mp (by simp [found]))
      exact ⟨v, found, direct, clears_of_leaves (keyed.symm ▸ left) profiles
        clears⟩

theorem handled_connectionsSave {h : Host} {c : Catalog} {q : CatalogRequest}
    {next : Profiles} (sound : Sound next)
    (isSave : q.action = .connectionsSave) :
    Handled h c (some next) (fun d id => d.Invalidates h q id)
      (c.connectionsSave h q next).1 := by
  unfold connectionsSave
  dsimp only
  rcases persist_told h c next with
    ⟨problem, same⟩ | ⟨small, ⟨problem, late, same⟩ | ⟨works, same⟩⟩
  · rw [same]
    exact handled_listed _
  · rw [same]
    exact handled_late small late (fades_listed h _ _)
      (quiet_listed h _ _).profiles
  · rw [same]
    have profiles := (dropRemoved_spec (c.stores next)).2.1
    have entries := dropRemoved_entries (c.stores next)
    have soundly : Sound (c.stores next).dropRemoved.profiles :=
      profiles ▸ sound
    apply Handled.written rfl small (.inl works)
    · apply (fades_stores c next).trans
      apply (fades_dropRemoved _).trans
      exact (fades_applySnapshot h _ q).trans (fades_listed h _ _)
    · have applies := quiet_applySnapshot (h := h) q soundly
      exact ((quiet_listed h _ _).profiles.trans applies.profiles).trans profiles
    · intro _ id clears
      apply (fades_listed h _ _).hidden
      by_cases stored : id ∈ next
      · apply shown_applySnapshot soundly isSave
        · rw [profiles]
          exact stored
        · exact invalidates_of_leaves sound isSave profiles
            (fun key member => (entries key).1 member) clears
      · exact (fades_applySnapshot h _ q).hidden ((entries id).2 stored)

theorem handled_handleSnapshot {h : Host} {c : Catalog} {q : CatalogRequest} :
    Handled h c
      (if q.action = .connectionsSave then c.proposesSnapshot h q else none)
      (fun d id => d.Invalidates h q id) (c.handleSnapshot h q).1 := by
  unfold handleSnapshot
  dsimp only
  cases action : q.action with
  | connectionsGet => exact handled_listed _
  | connectionsValidate =>
      dsimp only
      cases c.validateSnapshot h q.config with
      | error problem => exact handled_refl
      | ok staged => exact handled_refl
  | connectionsSave =>
      rw [if_pos rfl]
      unfold proposesSnapshot
      dsimp only
      split_ifs with conflict
      · exact handled_refl
      · cases accepted : c.validateSnapshot h q.config with
        | error problem => exact handled_refl
        | ok next =>
            obtain ⟨list, _, stored⟩ := accepted_of_validateSnapshot accepted
            exact handled_connectionsSave (sound_of_accepted stored).1 action
  | _ => exact handled_refl

theorem handled_reading {h : Host} {c : Catalog} {q : CatalogRequest}
    {proposal : Option Profiles} {clears : Catalog → Text → Prop}
    {answer : Profile → Catalog × CatalogResponse}
    (each : ∀ p, Handled h c proposal clears (answer p).1) :
    Handled h c proposal clears (c.reading q answer).1 := by
  unfold reading
  split
  · exact handled_refl
  · exact each _

theorem handled_handle {h : Host} {c : Catalog} {q : CatalogRequest}
    (sound : Sound c.profiles) :
    Handled h c (c.proposes h q) (fun d id => d.Invalidates h q id)
      (c.handle h q).1 := by
  unfold handle proposes
  by_cases version : q.version ≠ 1
  · rw [if_pos version]
    exact handled_refl
  · rw [if_neg version]
    by_cases closed : c.closed = true
    · rw [if_pos closed]
      exact handled_refl
    · rw [if_neg closed, if_neg (not_or.mpr ⟨version, closed⟩)]
      have snapshots := handled_handleSnapshot (h := h) (c := c) (q := q)
      have saves := handled_connectionSave (h := h) (c := c) (q := q) sound
      cases action : q.action with
      | connectionsGet | connectionsValidate | connectionsSave
      | connectionsOther =>
          rw [action] at snapshots
          exact snapshots
      | connections => exact handled_listed {}
      | connectionSave => exact saves action
      | connectionStart =>
          exact handled_changing fun p found =>
            handled_connectionToggle sound found (.inl action)
      | connectionStop =>
          exact handled_changing fun p found =>
            handled_connectionToggle sound found (.inr action)
      | connectionDelete =>
          exact handled_changing fun p found =>
            handled_connectionDelete sound found action
      | connectionGet => exact handled_reading fun p => handled_listed _
      | connectionExport => exact handled_reading fun p => handled_refl
      | connectionOther => exact handled_reading fun p => handled_refl

/-! ## Tests -/

theorem profiles_endTest (h : Host) (c : Catalog) (test : Pending)
    (result : ProbeResult) : (c.endTest h test result).1.profiles = c.profiles :=
  (quiet_endTest h c test result).profiles

/-- A test that ends is no longer running, and its result is shown if it is
stored. -/
theorem endTest_spec (h : Host) (c : Catalog) (test : Pending)
    (result : ProbeResult) :
    (∀ key, (c.endTest h test result).1.shown key =
      if key = test.profile.id ∧ c.records test = true then some result
      else c.shown key) ∧
    (c.endTest h test result).1.tests = c.tests.erase test := by
  unfold endTest records
  dsimp only
  generalize ((c.entries.lookup test.profile.id).any fun e =>
    e.serial = test.serial) = same
  generalize ((c.profiles.lookup test.profile.id).any fun p =>
    !c.closed && runtimeRevision c.profiles p = test.revision) = current
  have erased (key : Text) :
      shown { c with tests := c.tests.erase test } key = c.shown key := rfl
  have listing (d : Catalog) (r : CatalogResponse) (key : Text) :
      (listed h d r).1.shown key = d.shown key :=
    shown_of_leaves (leaves_listed h d r key)
  constructor
  · intro key
    rw [listing]
    cases same with
    | false => simp [erased]
    | true =>
        have unmarked : (update { c with tests := c.tests.erase test }
            test.profile.id ({ · with testing := false })).shown key =
              c.shown key := by
          rw [shown_update, probe_entry]
          split_ifs with named
          · rw [named]
            exact erased _
          · exact erased key
        cases current with
        | false =>
            simp only [Bool.true_and, if_true, Bool.false_eq_true, if_false,
              and_false]
            exact unmarked
        | true =>
            simp only [Bool.true_and, if_true, and_true]
            rw [shown_update]
            split_ifs
            · rfl
            · exact unmarked
  · rw [(fades_listed h _ _).tests]
    split_ifs
    all_goals simp only [tests_update]

/-- A test begins, of the profile that is stored and its revision, or nothing
happens to tests. -/
theorem beginTest_spec (c : Catalog) (version : Int) (id : Text) :
    (∀ key, (c.beginTest version id).1.shown key = c.shown key) ∧
      ((c.beginTest version id).1.tests = c.tests ∨
        ∃ test, (c.beginTest version id).1.tests = test :: c.tests ∧
          c.profiles.lookup id = some test.profile ∧
          test.revision = runtimeRevision c.profiles test.profile) := by
  have marked (d : Catalog) (key : Text) (change : Entry → Entry)
      (keeps : ∀ e, (change e).probe = e.probe) (other : Text) :
      (d.update key change).shown other = d.shown other := by
    rw [shown_update, keeps, probe_entry]
    split_ifs with named
    · rw [named]
    · rfl
  unfold beginTest
  split_ifs with refused
  · exact ⟨fun _ => rfl, .inl rfl⟩
  cases found : c.profiles.lookup id with
  | none => exact ⟨fun _ => rfl, .inl rfl⟩
  | some p =>
      dsimp only
      split_ifs
      · exact ⟨fun _ => rfl, .inl rfl⟩
      · exact ⟨marked c p.id _ fun _ => rfl, .inl (tests_update c p.id _)⟩
      · have kept := marked c p.id ({ · with testing := true }) fun _ => rfl
        have tests := tests_update c p.id ({ · with testing := true })
        have profiles := update_profiles c p.id ({ · with testing := true })
        generalize c.update p.id ({ · with testing := true }) = d
          at kept tests profiles ⊢
        have revision : runtimeRevision d.profiles p =
            runtimeRevision c.profiles p := by
          rw [profiles]
        dsimp only
        rw [tests]
        exact ⟨kept, .inr ⟨_, rfl, rfl, revision⟩⟩

/-! ## Probes stay current -/

/-- What holds in a run beside the probes: the store is sound, and a test that
runs is one of the revision that its profile had. -/
structure Begun (c : Catalog) : Prop where
  upright : c.Upright
  tests : ∀ test ∈ c.tests,
    test.profile.config.defaults = .ok test.profile.config ∧
      ∃ m, test.revision = runtimeRevision m test.profile

theorem begun_step {c d : Catalog} {action : Action} (begun : c.Begun)
    (taken : step c action = some d) : d.Begun := by
  have old (test : Pending) (pending : test ∈ c.tests) := begun.tests test pending
  constructor
  · exact upright_step begun.upright taken
  · cases action with
    | request h q =>
        obtain rfl := Option.some.inj taken
        cases handled_handle (h := h) (q := q) begun.upright.sound with
        | still fades | written _ _ _ fades =>
            rw [fades.tests]
            exact old
    | autostart h =>
        obtain rfl := Option.some.inj taken
        rw [(fades_autostart h c).tests]
        exact old
    | beginTest version id =>
        obtain rfl := Option.some.inj taken
        rcases (beginTest_spec c version id).2 with
          same | ⟨first, same, stored, revision⟩
        · rw [same]
          exact old
        · rw [same]
          intro test pending
          rcases List.mem_cons.mp pending with rfl | earlier
          · have sound := begun.upright.sound
            exact ⟨sound.settled id _ stored, c.profiles, revision⟩
          · exact old test earlier
    | endTest h ended result =>
        simp only [step] at taken
        split_ifs at taken
        obtain rfl := Option.some.inj taken
        rw [(endTest_spec h c ended result).2]
        exact fun test pending => old test (List.mem_of_mem_erase pending)
    | migrate h saved stat =>
        obtain rfl := Option.some.inj taken
        rw [(fades_migrate h c saved stat).tests]
        exact old
    | close =>
        obtain rfl := Option.some.inj taken
        rw [(fades_close c).tests]
        exact old

theorem begun_reachable {ok : Catalog → Action → Prop} {c : Catalog}
    (reached : machine.ReachableBy ok c) : c.Begun := by
  apply Machine.ReachableBy.invariant (P := Begun) _ _ reached
  · rintro c rfl
    exact ⟨⟨sound_empty, fun _ => rfl⟩, fun _ pending => nomatch pending⟩
  · intro c action d _ begun _ taken
    exact begun_step begun taken

/-- Probes that fade stay current, where transports are kept or nothing is
shown any more. -/
theorem current_of_fades {s : Watched} {d : Catalog} (current : Current s)
    (fades : Fades s.catalog d)
    (renewed : ∀ id, s.catalog.shown id ≠ none →
      KeepsTransport s.catalog.profiles d.profiles id ∨ d.shown id = none) :
    Current { s with catalog := d } := by
  intro id result shows
  have shown : s.catalog.shown id = some result := by
    rcases fades.shown id with gone | kept
    · exact nomatch gone.symm.trans shows
    · exact kept.symm.trans shows
  obtain ⟨p, test, stored, source, transport⟩ := current id result shown
  rcases renewed id (by simp [shown]) with ⟨v, w, before, after, same⟩ | gone
  · obtain rfl := Option.some.inj (stored.symm.trans before)
    exact ⟨w, test, after, source, transport.trans same.symm⟩
  · exact nomatch gone.symm.trans shows

/-- Probes that fade stay current when the store stays as it is. -/
theorem current_of_still {s : Watched} {d : Catalog} (current : Current s)
    (fades : Fades s.catalog d) (profiles : d.profiles = s.catalog.profiles) :
    Current { s with catalog := d } := by
  apply current_of_fades current fades
  intro id shows
  obtain ⟨result, shown⟩ := Option.ne_none_iff_exists'.mp shows
  obtain ⟨p, _, stored, _⟩ := current id result shown
  rw [profiles]
  exact .inl ⟨p, p, stored, stored, rfl⟩

theorem current_request {s : Watched} {h : Host} {q : CatalogRequest}
    (sound : Sound s.catalog.profiles) (current : Current s)
    (renews : s.catalog.Renews (.request h q)) :
    Current { s with catalog := (s.catalog.handle h q).1 } := by
  cases handled_handle (h := h) (q := q) sound with
  | still fades profiles => exact current_of_still current fades profiles
  | @written next proposed small effect fades profiles cleared =>
      apply current_of_fades current fades
      intro id shows
      rw [profiles]
      rcases renews next proposed small effect id shows with kept | ⟨works, clears⟩
      · exact .inl kept
      · exact .inr (cleared works id clears)

theorem current_migrate {s : Watched} {h : Host} {saved : Option Saved}
    {stat : Option Problem} (upright : s.catalog.Upright) (current : Current s) :
    Current { s with catalog := (s.catalog.migrate h saved stat).1 } := by
  have fades := fades_migrate h s.catalog saved stat
  have taken : step s.catalog (.migrate h saved stat) =
      some (s.catalog.migrate h saved stat).1 := rfl
  rcases step_cases upright.sound upright.empty taken with
    quiet | ⟨h', next, proposed, _⟩
  · exact current_of_still current fades quiet.profiles
  · apply current_of_fades current fades
    intro id shows
    obtain ⟨result, shown⟩ := Option.ne_none_iff_exists'.mp shows
    obtain ⟨p, _, stored, _⟩ := current id result shown
    -- nothing is stored before a migration that writes
    cases proposed_of_proposal proposed with
    | migrated absent =>
        rw [upright.empty absent] at stored
        exact nomatch stored

/-- A test that ends stores a result of the transport that is stored. -/
theorem current_endTest {s : Watched} {h : Host} {test : Pending}
    {result : ProbeResult} (begun : s.catalog.Begun) (current : Current s)
    (pending : test ∈ s.catalog.tests)
    (renews : s.catalog.Renews (.endTest h test result)) :
    Current
      { catalog := (s.catalog.endTest h test result).1
        source :=
          if s.catalog.records test then
            Function.update s.source test.profile.id (some (test, result))
          else s.source } := by
  obtain ⟨shows, _⟩ := endTest_spec h s.catalog test result
  have profiles := profiles_endTest h s.catalog test result
  intro id outcome shown
  dsimp only at shown ⊢
  rw [shows] at shown
  rw [profiles]
  split_ifs at shown with recorded
  · obtain ⟨rfl, recorded⟩ := recorded
    obtain rfl := Option.some.inj shown
    rw [if_pos recorded, Function.update_self]
    have apart := renews recorded
    unfold records at recorded
    rw [Bool.and_eq_true] at recorded
    obtain ⟨p, stored, fits⟩ := (Option.any_eq_true _ _).mp recorded.2
    rw [Bool.and_eq_true, decide_eq_true_eq] at fits
    obtain ⟨tested, m, revision⟩ := begun.tests test pending
    have settled := begun.upright.sound.settled _ p stored
    exact ⟨p, test, stored, rfl,
      transport_of_revision settled tested (apart p stored) revision fits.2⟩
  · obtain ⟨p, source, stored, same, transport⟩ := current id outcome shown
    refine ⟨p, source, stored, ?_, transport⟩
    split_ifs with recorded'
    · have other : id ≠ test.profile.id := fun named =>
        recorded ⟨named, recorded'⟩
      rw [Function.update_of_ne other]
      exact same
    · exact same

theorem current_beginTest {s : Watched} {version : Int} {id : Text}
    (current : Current s) :
    Current { s with catalog := (s.catalog.beginTest version id).1 } := by
  intro key result shown
  dsimp only at shown ⊢
  rw [(beginTest_spec s.catalog version id).1] at shown
  rw [(quiet_beginTest s.catalog version id).profiles]
  exact current key result shown

/-- A step of a catalog that is watched is one of the catalog. -/
theorem watch_taken {s t : Watched} {action : Action}
    (taken : watch s action = some t) :
    step s.catalog action = some t.catalog := by
  obtain ⟨d, moved, rfl⟩ := Option.map_eq_some_iff.mp taken
  exact moved

theorem reachable_of_watching {ok : Watched → Action → Prop} {s : Watched}
    (reached : watching.ReachableBy ok s) : machine.Reachable s.catalog := by
  apply Machine.ReachableBy.project Watched.catalog _ _ reached
  · rintro s rfl
    rfl
  · intro s action t _ taken
    exact .inr ⟨action, trivial, watch_taken taken⟩

theorem current_step {s t : Watched} {action : Action} (begun : s.catalog.Begun)
    (current : Current s) (renews : s.catalog.Renews action)
    (taken : watch s action = some t) : Current t := by
  obtain ⟨d, moved, rfl⟩ := Option.map_eq_some_iff.mp taken
  have sound := begun.upright.sound
  cases action with
  | request h q =>
      obtain rfl := Option.some.inj moved
      exact current_request sound current renews
  | autostart h =>
      obtain rfl := Option.some.inj moved
      exact current_of_still current (fades_autostart h s.catalog)
        (quiet_autostart sound).profiles
  | beginTest version id =>
      obtain rfl := Option.some.inj moved
      exact current_beginTest current
  | endTest h test result =>
      simp only [step] at moved
      split_ifs at moved with pending
      obtain rfl := Option.some.inj moved
      exact current_endTest begun current pending renews
  | migrate h saved stat =>
      obtain rfl := Option.some.inj moved
      exact current_migrate begun.upright current
  | close =>
      obtain rfl := Option.some.inj moved
      exact current_of_still current (fades_close s.catalog)
        (quiet_close s.catalog).profiles

/--
In every run in which the writes renew what is shown, every probe that is
shown was measured with the transport of the profile that is stored.
-/
theorem probes_current {s : Watched}
    (reached : watching.ReachableBy
      (fun s action => s.catalog.Renews action) s) : Current s := by
  apply Machine.ReachableBy.invariant (P := Current) _ _ reached
  · rintro s rfl
    exact fun _ _ shown => nomatch shown
  · intro s action t before current renews taken
    exact current_step (begun_reachable (reachable_of_watching before)) current
      renews taken

/-! ## A connection that is tested and moved -/

/-- A connection that is stored and not tested, of a service that is not
closed. -/
structure Testable (c : Catalog) (p : Profile) : Prop where
  serving : c.closed = false
  stored : c.profiles.lookup p.id = some p
  direct : p.kind = connectionKind
  idle : (c.entry p.id).testing = false

theorem closed_endTest (h : Host) (c : Catalog) (test : Pending)
    (result : ProbeResult) : (c.endTest h test result).1.closed = c.closed := by
  unfold endTest
  dsimp only
  apply (closed_list h _).trans
  split_ifs
  all_goals simp only [closed_update]

/-- A test of such a connection stores its result when nothing comes between
its two halves. -/
theorem Testable.tested {s : Watched} {p : Profile}
    (testable : s.catalog.Testable p) (h : Host) (result : ProbeResult) :
    ∃ test begun ended, test.profile = p ∧
      test.revision = runtimeRevision s.catalog.profiles p ∧
      watch s (.beginTest 1 p.id) = some begun ∧
      begun.catalog.profiles = s.catalog.profiles ∧
      watch begun (.endTest h test result) = some ended ∧
      ended.catalog.profiles = s.catalog.profiles ∧
      ended.catalog.closed = false ∧
      ended.catalog.shown p.id = some result ∧
      ended.source p.id = some (test, result) := by
  obtain ⟨c, source⟩ := s
  obtain ⟨serving, stored, direct, idle⟩ := testable
  dsimp only at serving stored idle ⊢
  have profiles := update_profiles c p.id ({ · with testing := true })
  have closed := closed_update c p.id ({ · with testing := true })
  have located := lookup_update c p.id p.id ({ · with testing := true })
  have began : (c.beginTest 1 p.id).1 =
      let d := c.update p.id ({ · with testing := true })
      { d with tests :=
          { profile := p, serial := (d.entry p.id).serial
            revision := runtimeRevision d.profiles p } :: d.tests } := by
    unfold beginTest
    simp [serving, stored, direct, idle]
  generalize c.update p.id ({ · with testing := true }) = d
    at profiles closed located began
  rw [if_pos rfl] at located
  dsimp only at began
  generalize made : Pending.mk p (d.entry p.id).serial
    (runtimeRevision d.profiles p) = test at began
  have tests : test.profile = p := by
    rw [← made]
  have recorded : records { d with tests := test :: d.tests } test = true := by
    have known : d.profiles.lookup p.id = some p := profiles ▸ stored
    rw [← made]
    simp [records, entry, located, known, closed.trans serving]
  have shows := (endTest_spec h { d with tests := test :: d.tests } test
    result).1 p.id
  rw [tests, if_pos ⟨rfl, recorded⟩] at shows
  refine ⟨test, ⟨{ d with tests := test :: d.tests }, source⟩,
    ⟨(endTest h { d with tests := test :: d.tests } test result).1,
      Function.update source p.id (some (test, result))⟩, tests, ?_, ?_,
    profiles, ?_, ?_, ?_, shows, Function.update_self ..⟩
  · rw [← made, ← profiles]
  · show (some (c.beginTest 1 p.id).1).map _ = _
    rw [began]
    rfl
  · unfold watch step
    simp [recorded, tests]
  · exact (profiles_endTest h _ test result).trans profiles
  · exact (closed_endTest h _ test result).trans (closed.trans serving)

/-- A connection is saved and not applied. -/
def saves (p : Profile) (expected : Text) : Action :=
  .request calmHost
    { action := .connectionSave
      profile := some p
      expectedRevision := some expected }

/-- The connection on another server. -/
def movedOne : Profile :=
  { storedOne with config := { storedOne.config with
      server := "192.0.2.9:443".toList } }

/-- A profile is valid as it is, whatever runs, and can be stored. -/
def takes (c : Catalog) (p : Profile) : Bool :=
  match validate calmHost c.profiles [] p with
  | .ok r => r = p && (Profiles.text (c.profiles.insert p.id p)).bytes ≤
      maxConfigSize
  | .error _ => false

theorem takes_spec {c : Catalog} {p : Profile} (accepted : c.takes p = true)
    (owned : List Inlet) :
    validate calmHost c.profiles owned p = .ok p ∧
      (Profiles.text (c.profiles.insert p.id p)).bytes ≤ maxConfigSize := by
  unfold takes at accepted
  split at accepted
  next r valid =>
    rw [Bool.and_eq_true, decide_eq_true_eq, decide_eq_true_eq] at accepted
    obtain ⟨rfl, small⟩ := accepted
    obtain ⟨belongs, config, usable, made⟩ := validate_ok.mp valid
    refine ⟨validate_ok.mpr ⟨belongs, config, ?_, made⟩, small⟩
    exact ⟨usable.filled, usable.valid, usable.server, fun _ _ => .inr rfl⟩
  next => exact Bool.noConfusion accepted

/-- A connection is saved, and could be saved on another server. -/
theorem reachable_kept :
    ∃ s : Watched, watching.ReachableBy
        (fun s action => s.catalog.Renews action) s ∧
      s.catalog.Testable storedOne ∧ s.catalog.takes movedOne = true := by
  have kept : ((watch {} (saves (sampleConnection "one".toList
      "127.0.0.1:1080".toList) [])).any fun s =>
        !s.catalog.closed &&
          s.catalog.profiles.lookup "one".toList = some storedOne &&
          !(s.catalog.entry "one".toList).testing &&
          s.catalog.takes movedOne) = true := by
    decide +kernel
  obtain ⟨s, taken, holds⟩ := (Option.any_eq_true ..).mp kept
  simp only [Bool.and_eq_true, Bool.not_eq_true', decide_eq_true_eq] at holds
  obtain ⟨⟨⟨serving, stored⟩, idle⟩, accepted⟩ := holds
  have renews : Renews {} (saves (sampleConnection "one".toList
      "127.0.0.1:1080".toList) []) :=
    fun _ _ _ _ _ shows => absurd rfl shows
  exact ⟨s, .step (.start rfl) renews taken,
    ⟨serving, stored, rfl, idle⟩, accepted⟩

/-- The connection is tested. -/
theorem reachable_tested (result : ProbeResult) :
    ∃ (s : Watched) (test : Pending), watching.ReachableBy
        (fun s action => s.catalog.Renews action) s ∧
      s.catalog.closed = false ∧
      s.catalog.profiles.lookup "one".toList = some storedOne ∧
      s.catalog.takes movedOne = true ∧
      s.catalog.shown "one".toList = some result ∧
      s.source "one".toList = some (test, result) ∧
      test.transport = transportRevision s.catalog.profiles storedOne := by
  obtain ⟨s, reached, testable, accepted⟩ := reachable_kept
  have stored := testable.stored
  obtain ⟨test, begun, ended, tested, revision, begins, before, ends, after,
    serving, shown, source⟩ := testable.tested calmHost result
  have renews : begun.catalog.Renews (.endTest calmHost test result) := by
    intro _ p found collide
    rw [tested, before, stored] at found
    obtain rfl := Option.some.inj found
    rw [tested] at collide
    exact collide.1 rfl
  have same : test.transport =
      transportRevision ended.catalog.profiles storedOne := by
    rw [after, ← tested]
    apply transport_eq
    rw [tested]
    exact revision
  have beginning : s.catalog.Renews (.beginTest 1 storedOne.id) := trivial
  refine ⟨ended, test, .step (.step reached beginning begins) renews ends,
    serving, ?_, ?_, shown, source, same⟩
  · rw [after]
    exact stored
  · unfold takes
    rw [after]
    exact accepted

/-- The result of a test is shown, and it is current. -/
theorem probes_current_tested :
    ∃ s : Watched, s.catalog.shown "one".toList = some { ok := true } ∧
      Current s := by
  obtain ⟨s, _, reached, _, _, _, shown, _⟩ := reachable_tested { ok := true }
  exact ⟨s, shown, probes_current reached⟩

/-- A save of a profile that is valid as it is and not applied. -/
theorem handle_saves {c : Catalog} {p old : Profile}
    (serving : c.closed = false) (stored : c.profiles.lookup p.id = some old)
    (accepted : c.takes p = true) :
    step c (saves p old.revision) =
      some (listed calmHost (c.stores (c.profiles.insert p.id p))
        { revision := p.revision }).1 := by
  obtain ⟨valid, small⟩ := takes_spec accepted (c.owned p.id)
  have saved : c.saveConnection calmHost p none =
      .ok (p, c.profiles.insert p.id p) :=
    bind_eq_ok.mpr ⟨c.profiles, rfl, bind_eq_ok.mpr ⟨p, valid, rfl⟩⟩
  have written : c.persist calmHost (c.profiles.insert p.id p) =
      (c.stores (c.profiles.insert p.id p), none) := by
    rcases persist_written calmHost c (c.profiles.insert p.id p) with
      ⟨_, _, written⟩ | ⟨fails, _⟩
    · exact written
    · exact absurd ⟨rfl, small⟩ fails
  have current : c.conflicts { action := .connectionSave, profile := some p
                               expectedRevision := some old.revision } p.id =
      false := by
    unfold conflicts
    rw [stored]
    exact decide_eq_false (not_not.mpr rfl)
  unfold saves step
  dsimp only
  unfold handle
  simp only [serving]
  unfold connectionSave
  simp only [ne_eq, not_true_eq_false, if_false, Bool.false_eq_true, current,
    saved, written]

/-- The revisions of two profiles differ when those of their own parts do. -/
theorem transports_differ {m n : Profiles} {p q : Profile}
    (differ : Profile.revision { p.cleared with inlets := none } ≠
      Profile.revision { q.cleared with inlets := none }) :
    transportRevision m p ≠ transportRevision n q := by
  unfold transportRevision
  rw [runtimeRevision_eq, runtimeRevision_eq]
  intro same
  apply differ
  exact (List.append_inj same ((length_revision _).trans
    (length_revision _).symm)).1

/-- A connection is tested, and then it is moved to another server by a save
that is not applied: the result of the test is still shown. -/
theorem probes_stale :
    ∃ s : Watched, watching.Reachable s ∧
      s.catalog.profiles.lookup "one".toList = some movedOne ∧
      s.catalog.shown "one".toList = some { ok := true } ∧ ¬ Current s := by
  obtain ⟨s, test, reached, serving, stored, accepted, shown, source, transport⟩ :=
    reachable_tested { ok := true }
  have moves := handle_saves (p := movedOne) serving stored accepted
  have stays (key : Text) := shown_of_leaves (leaves_listed calmHost
    (s.catalog.stores (s.catalog.profiles.insert movedOne.id movedOne))
    { revision := movedOne.revision } key)
  have profiles := (quiet_listed calmHost
    (s.catalog.stores (s.catalog.profiles.insert movedOne.id movedOne))
    { revision := movedOne.revision }).profiles
  generalize (listed calmHost _ _).1 = d at moves stays profiles
  have taken : watching.step s (saves movedOne storedOne.revision) =
      some { s with catalog := d } := by
    unfold watching
    dsimp only [watch]
    rw [moves]
    rfl
  have found : d.profiles.lookup "one".toList = some movedOne := by
    rw [profiles]
    exact AList.lookup_insert s.catalog.profiles
  have still : d.shown "one".toList = some { ok := true } :=
    (stays "one".toList).trans shown
  refine ⟨{ s with catalog := d }, .step reached.reachable trivial taken, found,
    still, fun current => ?_⟩
  obtain ⟨p, other, located, origin, same⟩ := current "one".toList _ still
  obtain rfl := Option.some.inj (found.symm.trans located)
  obtain ⟨rfl, _⟩ := Prod.mk.inj (Option.some.inj (source.symm.trans origin))
  have differ : transportRevision s.catalog.profiles storedOne ≠
      transportRevision d.profiles movedOne :=
    transports_differ (by decide +kernel)
  exact differ (transport.symm.trans same)

end Catalog

end Veil.Control

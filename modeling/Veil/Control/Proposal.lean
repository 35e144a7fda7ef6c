import Veil.Control.Changes

/-!
# What a step proposes

Requests that change profiles compute the store they are to be kept in and
hand it to `persist`.  `proposal` names that store.  Every step is quiet or
writes its proposal, and proposals of sound stores are sound.
-/

namespace Veil.Control

open Lib

namespace Catalog

/-! ## Proposals -/

/-- The store that a start or a stop proposes. -/
def proposesToggle (h : Host) (c : Catalog) (q : CatalogRequest)
    (enabled : Bool) : Option Profiles :=
  if c.conflicts q q.id then none
  else
    (c.profiles.lookup q.id).bind fun p =>
      if p.kind ≠ connectionKind then none
      else (c.toggled h p enabled).toOption.map fun p =>
        c.profiles.insert p.id p

/-- The store that a deletion proposes. -/
def proposesDelete (h : Host) (c : Catalog) (q : CatalogRequest) :
    Option Profiles :=
  if c.conflicts q q.id then none
  else
    (c.profiles.lookup q.id).bind fun p =>
      if (c.user h p).isSome then none else some (c.profiles.erase p.id)

/-- The store that a save of one profile proposes. -/
def proposesSave (h : Host) (c : Catalog) (q : CatalogRequest) :
    Option Profiles :=
  q.profile.bind fun p =>
    if c.conflicts q p.id then none
    else (c.saveConnection h p q.relay).toOption.map (·.2)

/-- The store that a save of a snapshot proposes. -/
def proposesSnapshot (h : Host) (c : Catalog) (q : CatalogRequest) :
    Option Profiles :=
  if q.expectedRevision ≠ some (snapshot c.profiles).2 then none
  else (c.validateSnapshot h q.config).toOption

/-- The store that a request hands to `persist`. -/
def proposes (h : Host) (c : Catalog) (q : CatalogRequest) :
    Option Profiles :=
  if q.version ≠ 1 ∨ c.closed then none
  else
    match q.action with
    | .connectionsSave => c.proposesSnapshot h q
    | .connectionSave => c.proposesSave h q
    | .connectionStart => c.proposesToggle h q true
    | .connectionStop => c.proposesToggle h q false
    | .connectionDelete => c.proposesDelete h q
    | _ => none

/-- The store that a migration hands to `persist`. -/
def proposesMigrated (c : Catalog) (saved : Option Saved)
    (stat : Option Problem) : Option Profiles :=
  if stat ≠ none ∨ c.file ≠ none then none
  else
    saved.bind fun cfg =>
      if cfg.1.role ≠ "client".toList ∨ cfg.1.target ≠ [] then none
      else some (c.profiles.insert (migrated cfg.1).id (migrated cfg.1))

/-- The store that an action hands to `persist`, and where. -/
def proposal (c : Catalog) : Action → Option (Host × Profiles)
  | .request h q => (c.proposes h q).map (h, ·)
  | .migrate h saved stat => (c.proposesMigrated saved stat).map (h, ·)
  | _ => none

/-! ## Stores that keep what was stored -/

/-- Every stored profile is still there, with its kind. -/
def Extends (m n : Profiles) : Prop :=
  ∀ id p, m.lookup id = some p → ∃ q, n.lookup id = some q ∧ q.kind = p.kind

/-- A profile in both stores has one kind. -/
def KeepsKinds (m n : Profiles) : Prop :=
  ∀ id p q, m.lookup id = some p → n.lookup id = some q → q.kind = p.kind

theorem Extends.refl (m : Profiles) : Extends m m :=
  fun _ p stored => ⟨p, stored, rfl⟩

theorem Extends.insert {m n : Profiles} (before : Extends m n) {q : Profile}
    (joins : Joins n q) : Extends m (n.insert q.id q) := by
  intro id p stored
  obtain ⟨old, located, kind⟩ := before id p stored
  by_cases same : id = q.id
  · subst same
    exact ⟨q, AList.lookup_insert n, (joins.kept old located).symm.trans kind⟩
  · exact ⟨old, (AList.lookup_insert_ne same).trans located, kind⟩

theorem Extends.keepsKinds {m n : Profiles} (extends' : Extends m n) :
    KeepsKinds m n := by
  intro id p q stored found
  obtain ⟨other, located, kind⟩ := extends' id p stored
  obtain rfl := Option.some.inj (located.symm.trans found)
  exact kind

theorem Extends.mem {m n : Profiles} (extends' : Extends m n) {id : Text}
    (stored : id ∈ m) : id ∈ n := by
  obtain ⟨p, found⟩ := Option.isSome_iff_exists.mp (AList.lookup_isSome.mpr stored)
  obtain ⟨q, located, _⟩ := extends' id p found
  exact AList.lookup_isSome.mp (by simp [located])

/-- A sound store that a profile was added to, or replaced in. -/
structure Added (m next : Profiles) (q : Profile) : Prop where
  sound : Sound next
  kept : Extends m next
  stored : next.lookup q.id = some q

theorem added_of_joins {m n : Profiles} {q : Profile} (sound : Sound n)
    (kept : Extends m n) (joins : Joins n q) : Added m (n.insert q.id q) q where
  sound := sound.insert joins
  kept := kept.insert joins
  stored := AList.lookup_insert n

theorem added_of_stageRelay {h : Host} {c : Catalog} {p : Profile}
    {relay : Option Profile} {staged : Profiles} (sound : Sound c.profiles)
    (accepted : c.stageRelay h p relay = .ok staged) :
    Sound staged ∧ Extends c.profiles staged := by
  cases relay with
  | none =>
      obtain rfl := Except.ok.inj accepted
      exact ⟨sound, Extends.refl _⟩
  | some r =>
      obtain ⟨_, rest⟩ := seq_ok.mp accepted
      obtain ⟨r, valid, rest⟩ := bind_eq_ok.mp rest
      obtain ⟨_, made⟩ := seq_ok.mp rest
      obtain rfl := Except.ok.inj made
      have added := added_of_joins sound (Extends.refl _)
        (joins_of_validate valid).1
      exact ⟨added.sound, added.kept⟩

theorem added_of_saveConnection {h : Host} {c : Catalog} {p q : Profile}
    {relay : Option Profile} {next : Profiles} (sound : Sound c.profiles)
    (accepted : c.saveConnection h p relay = .ok (q, next)) :
    Added c.profiles next q := by
  obtain ⟨staged, relays, rest⟩ := bind_eq_ok.mp accepted
  obtain ⟨r, valid, made⟩ := bind_eq_ok.mp rest
  obtain ⟨rfl, rfl⟩ := Prod.mk.inj (Except.ok.inj made)
  obtain ⟨stagedSound, kept⟩ := added_of_stageRelay sound relays
  exact added_of_joins stagedSound kept (joins_of_validate valid).1

theorem added_of_toggled {h : Host} {c : Catalog} {id : Text} {p q : Profile}
    {enabled : Bool} (sound : Sound c.profiles)
    (stored : c.profiles.lookup id = some p)
    (accepted : c.toggled h p enabled = .ok q) :
    Added c.profiles (c.profiles.insert q.id q) q := by
  apply added_of_joins sound (Extends.refl _)
  cases enabled with
  | true => exact (joins_of_validate accepted).1
  | false =>
      obtain rfl := Except.ok.inj accepted
      exact joins_disabled sound stored

/-- A store without a profile that nothing goes through. -/
theorem sound_of_delete {h : Host} {c : Catalog} {p : Profile}
    (sound : Sound c.profiles) (unused : c.user h p = none) :
    Sound (c.profiles.erase p.id) := by
  apply sound.erase
  intro id v stored through
  rw [user, List.find?_eq_none] at unused
  apply unused v (List.mem_map.mpr ⟨⟨id, v⟩, Host.mem_order.mpr stored, rfl⟩)
  simpa using through

/-! ## Snapshots -/

/-- The profiles that the bytes of a snapshot list. -/
def requested (raw : Text) : Option (List Profile) :=
  match decodeOne "expected one catalog object" (CatalogFile.read · {}) raw with
  | .error _ => none
  | .ok data =>
      if data.version = 1 then some (data.profiles.getD []) else none

/-- A snapshot is validated profile by profile, once it can be staged. -/
theorem validateSnapshot_ok {h : Host} {c : Catalog} {raw : Text}
    {next : Profiles} :
    c.validateSnapshot h raw = .ok next ↔
      raw.bytes ≤ maxConfigSize ∧ ∃ list, requested raw = some list ∧
        list.length ≤ 64 ∧ (list.map (·.id)).Nodup ∧
        (∀ p ∈ list, ∀ before, c.profiles.lookup p.id = some before →
          before.kind = p.kind) ∧
        settle h c.owned (Profiles.addAll ∅ list) list = .ok next := by
  unfold requested
  constructor
  · intro accepted
    obtain ⟨small, rest⟩ := seq_ok.mp accepted
    obtain ⟨data, decoded, rest⟩ := bind_eq_ok.mp rest
    obtain ⟨sized, rest⟩ := seq_ok.mp rest
    obtain ⟨staged, isStaged, settles⟩ := bind_eq_ok.mp rest
    obtain ⟨distinct, _, kinds, rfl⟩ := stage_ok.mp isStaged
    simp only [refuse_ok, not_or, not_not, not_lt] at small sized
    rw [decoded]
    exact ⟨small, data.profiles.getD [], if_pos sized.1, sized.2, distinct,
      kinds, settles⟩
  · rintro ⟨small, list, listed, few, distinct, kinds, settles⟩
    split at listed
    next => simp at listed
    next data decoded =>
      split_ifs at listed with version
      obtain rfl := Option.some.inj listed
      have isStaged := stage_ok.mpr
        ⟨distinct, fun p _ => AList.notMem_empty p.id, kinds, rfl⟩
      have sized : ¬ (data.version ≠ 1 ∨
          64 < (data.profiles.getD []).length) := by
        simp [version, few]
      exact seq_ok.mpr ⟨refuse_ok.mpr (Nat.not_lt.mpr small),
        bind_eq_ok.mpr ⟨data, decoded, seq_ok.mpr ⟨refuse_ok.mpr sized,
          bind_eq_ok.mpr ⟨_, isStaged, settles⟩⟩⟩⟩

/-- What is stored when a snapshot is accepted. -/
structure Accepted (h : Host) (c : Catalog) (list : List Profile)
    (next : Profiles) : Prop where
  few : list.length ≤ 64
  distinct : (list.map (·.id)).Nodup
  kinds : ∀ p ∈ list, ∀ before, c.profiles.lookup p.id = some before →
    before.kind = p.kind
  settled : Settled h c.owned (Profiles.addAll ∅ list) list next

theorem accepted_of_validateSnapshot {h : Host} {c : Catalog} {raw : Text}
    {next : Profiles} (accepted : c.validateSnapshot h raw = .ok next) :
    ∃ list, requested raw = some list ∧ Accepted h c list next := by
  obtain ⟨_, list, listed, few, distinct, kinds, settles⟩ :=
    validateSnapshot_ok.mp accepted
  exact ⟨list, listed, few, distinct, kinds, settled_of_settle distinct
    (fun p member => (Profiles.lookup_addAll distinct).mpr ⟨member, rfl⟩)
    settles⟩

/-- What is stored was listed, up to the configuration. -/
theorem Accepted.listed {h : Host} {c : Catalog} {list : List Profile}
    {next : Profiles} (accepted : Accepted h c list next) {id : Text}
    {q : Profile} (found : next.lookup id = some q) :
    ∃ p ∈ list, p.id = id ∧ p.outline = q.outline := by
  obtain ⟨p, located, same⟩ := accepted.settled.alike.found found
  obtain ⟨member, named⟩ :=
    (Profiles.lookup_addAll accepted.distinct).mp located
  exact ⟨p, member, named, same⟩

/-- A validated snapshot is sound and keeps kinds. -/
theorem sound_of_accepted {h : Host} {c : Catalog} {list : List Profile}
    {next : Profiles} (accepted : Accepted h c list next) :
    Sound next ∧ KeepsKinds c.profiles next := by
  constructor
  · exact sound_of_settled accepted.distinct accepted.few accepted.settled
  · intro id p q stored found
    obtain ⟨r, member, rfl, same⟩ := accepted.listed found
    exact (kind_of_outline same).symm.trans
      (accepted.kinds r member p stored).symm

/-- The profile of a migrated configuration joins the empty store. -/
theorem joins_migrated (cfg : Saved) : Joins ∅ (migrated cfg.1) := by
  exact
    { pattern := (by decide : profileID "default".toList = true)
      room := .inl (by simp)
      kind := .inl rfl
      kept := fun _ stored => by simp at stored
      bare := fun isRelay => absurd isRelay.symm relay_ne_connection
      uses := fun named => absurd rfl named
      few := (by decide : 1 ≤ 8)
      enabled := fun _ => List.cons_ne_nil _ _
      apart := List.pairwise_singleton _ _
      others := fun _ _ _ _ stored => by simp at stored
      settled := cfg.2 }

/-! ## Writing a proposal -/

/-- A store was written in place of that of a catalog.  What runs is a stored
connection or ran before; then it is kept, unless the write was late, or was
not stored before. -/
structure Writes (h : Host) (c : Catalog) (next : Profiles) (d : Catalog) :
    Prop where
  small : next.text.bytes ≤ maxConfigSize
  file : d.file = some (next.text ++ ['\n'])
  profiles : d.profiles = next
  runs : ∀ id, d.Runs id →
    Connects next id ∨ (c.Runs id ∧ (Late h ∨ id ∉ c.profiles ∨ id ∈ next))

theorem writes_of_quiet {h : Host} {c d : Catalog} {next : Profiles}
    (small : next.text.bytes ≤ maxConfigSize)
    (kept : Late h ∨ ∀ id ∈ c.profiles, id ∈ next)
    (quiet : Quiet (c.stores next) d) : Writes h c next d where
  small := small
  file := quiet.file
  profiles := quiet.profiles
  runs id running := by
    rcases quiet.runs id running with before | stored
    · rcases kept with late | keeps
      · exact .inr ⟨before, .inl late⟩
      · by_cases known : id ∈ c.profiles
        · exact .inr ⟨before, .inr (.inr (keeps id known))⟩
        · exact .inr ⟨before, .inr (.inl known)⟩
    · exact .inl stored

/-- A handler is quiet, or it writes what it proposes. -/
def Follows (h : Host) (c : Catalog) (proposal : Option Profiles)
    (d : Catalog) : Prop :=
  Quiet c d ∨ ∃ next, proposal = some next ∧ Writes h c next d

theorem connectionSave_follows {h : Host} {c : Catalog} {q : CatalogRequest}
    (sound : Sound c.profiles) :
    Follows h c (c.proposesSave h q) (c.connectionSave h q).1 := by
  unfold connectionSave proposesSave
  cases q.profile with
  | none => exact .inl (Quiet.refl c)
  | some p =>
      dsimp only [Option.bind_some]
      by_cases conflict : c.conflicts q p.id = true
      · rw [if_pos conflict, if_pos conflict]
        exact .inl (Quiet.refl c)
      · rw [if_neg conflict, if_neg conflict]
        cases saved : c.saveConnection h p q.relay with
        | error problem => exact .inl (Quiet.refl c)
        | ok result =>
            obtain ⟨p, next⟩ := result
            have added := added_of_saveConnection sound saved
            dsimp only
            rcases persist_cases h c next with
              ⟨problem, same⟩ | ⟨small, ⟨problem, late, same⟩ | same⟩
            · rw [same]
              exact .inl (Quiet.refl c)
            · rw [same]
              exact .inr ⟨next, rfl,
                writes_of_quiet small (.inl late) (Quiet.refl _)⟩
            · rw [same]
              refine .inr ⟨next, rfl, writes_of_quiet small
                (.inr fun id => added.kept.mem) ?_⟩
              dsimp only
              split_ifs
              · exact quiet_applied added.sound added.stored _
              · exact quiet_listed h _ _

theorem changing_follows {h : Host} {c : Catalog} {q : CatalogRequest}
    {change : Profile → Catalog × CatalogResponse}
    {propose : Profile → Option Profiles}
    (each : ∀ p, c.profiles.lookup q.id = some p →
      Follows h c (propose p) (change p).1) :
    Follows h c
      (if c.conflicts q q.id then none
        else (c.profiles.lookup q.id).bind propose)
      (c.changing q change).1 := by
  unfold changing
  split_ifs with conflict
  · exact .inl (Quiet.refl c)
  · cases found : c.profiles.lookup q.id with
    | none => exact .inl (Quiet.refl c)
    | some p => exact each p found

theorem connectionToggle_follows {h : Host} {c : Catalog} {id : Text}
    {p : Profile} {enabled : Bool} (sound : Sound c.profiles)
    (stored : c.profiles.lookup id = some p) :
    Follows h c
      (if p.kind ≠ connectionKind then none
        else (c.toggled h p enabled).toOption.map fun p =>
          c.profiles.insert p.id p)
      (c.connectionToggle h p enabled).1 := by
  unfold connectionToggle
  split_ifs with relay
  · exact .inl (Quiet.refl c)
  · cases accepted : c.toggled h p enabled with
    | error problem => exact .inl (Quiet.refl c)
    | ok p =>
        have added := added_of_toggled sound stored accepted
        dsimp only
        rcases persist_cases h c (c.profiles.insert p.id p) with
          ⟨problem, same⟩ | ⟨small, ⟨problem, late, same⟩ | same⟩
        · rw [same]
          exact .inl (Quiet.refl c)
        · rw [same]
          exact .inr ⟨_, rfl,
            writes_of_quiet small (.inl late) (Quiet.refl _)⟩
        · rw [same]
          exact .inr ⟨_, rfl, writes_of_quiet small
            (.inr fun id => added.kept.mem)
            (quiet_applied added.sound added.stored _)⟩

theorem connectionDelete_follows {h : Host} {c : Catalog} {p : Profile} :
    Follows h c
      (if (c.user h p).isSome then none else some (c.profiles.erase p.id))
      (c.connectionDelete h p).1 := by
  unfold connectionDelete
  cases found : c.user h p with
  | some v => exact .inl (Quiet.refl c)
  | none =>
      dsimp only [Option.isSome_none]
      rw [if_neg Bool.false_ne_true]
      rcases persist_cases h c (c.profiles.erase p.id) with
        ⟨problem, same⟩ | ⟨small, ⟨problem, late, same⟩ | same⟩
      · rw [same]
        exact .inl (Quiet.refl c)
      · rw [same]
        exact .inr ⟨_, rfl,
          writes_of_quiet small (.inl late) (Quiet.refl _)⟩
      · rw [same]
        refine .inr ⟨_, rfl, ?_⟩
        have listing := quiet_listed h ((c.stores (c.profiles.erase p.id)).discard
          p.id) {}
        constructor
        · exact small
        · exact listing.file.trans (discard_file _ _)
        · exact listing.profiles.trans (discard_profiles _ _)
        · intro id running
          rcases listing.runs id running with before | stored
          · obtain ⟨other, ran⟩ := runs_discard before
            refine .inr ⟨ran, .inr ?_⟩
            by_cases known : id ∈ c.profiles
            · exact .inr (AList.mem_erase.mpr ⟨other, known⟩)
            · exact .inl known
          · rw [discard_profiles] at stored
            exact .inl stored

theorem connectionsSave_follows {h : Host} {c : Catalog}
    {q : CatalogRequest} {next : Profiles} (sound : Sound next) :
    Follows h c (some next) (c.connectionsSave h q next).1 := by
  unfold connectionsSave
  rcases persist_cases h c next with
    ⟨problem, same⟩ | ⟨small, ⟨problem, late, same⟩ | same⟩
  · rw [same]
    exact .inl (quiet_listed h _ _)
  · rw [same]
    exact .inr ⟨next, rfl,
      writes_of_quiet small (.inl late) (quiet_listed h _ _)⟩
  · rw [same]
    refine .inr ⟨next, rfl, ?_⟩
    obtain ⟨file, profiles, runs⟩ := dropRemoved_spec (c.stores next)
    have applies := quiet_applySnapshot (h := h) q
      (c := (c.stores next).dropRemoved) (profiles ▸ sound)
    have quiet (r : CatalogResponse) := applies.trans (quiet_listed h _ r)
    constructor
    · exact small
    · exact (quiet _).file.trans file
    · exact (quiet _).profiles.trans profiles
    · intro id running
      rcases (quiet _).runs id running with before | stored
      · obtain ⟨ran, kept⟩ := runs id before
        exact .inr ⟨ran, .inr (.inr kept)⟩
      · rw [profiles] at stored
        exact .inl stored

theorem handleSnapshot_follows {h : Host} {c : Catalog}
    {q : CatalogRequest} :
    Follows h c
      (if q.action = .connectionsSave then c.proposesSnapshot h q else none)
      (c.handleSnapshot h q).1 := by
  unfold handleSnapshot
  cases q.action with
  | connectionsGet => exact .inl (quiet_listed h _ _)
  | connectionsValidate =>
      dsimp only
      cases c.validateSnapshot h q.config <;> exact .inl (Quiet.refl c)
  | connectionsSave =>
      rw [if_pos rfl]
      unfold proposesSnapshot
      dsimp only
      split_ifs with conflict
      · exact .inl (Quiet.refl c)
      · cases accepted : c.validateSnapshot h q.config with
        | error problem => exact .inl (Quiet.refl c)
        | ok next =>
            obtain ⟨list, _, stored⟩ := accepted_of_validateSnapshot accepted
            exact connectionsSave_follows (sound_of_accepted stored).1
  | _ => exact .inl (Quiet.refl c)

theorem reading_quiet {c : Catalog} {q : CatalogRequest}
    {answer : Profile → Catalog × CatalogResponse}
    (each : ∀ p, Quiet c (answer p).1) : Quiet c (c.reading q answer).1 := by
  unfold reading
  split
  · exact Quiet.refl c
  · exact each _

/-- A request is quiet or writes what it proposes. -/
theorem handle_follows {h : Host} {c : Catalog} {q : CatalogRequest}
    (sound : Sound c.profiles) :
    Follows h c (c.proposes h q) (c.handle h q).1 := by
  unfold handle proposes
  by_cases version : q.version ≠ 1
  · rw [if_pos version]
    exact .inl (Quiet.refl c)
  · rw [if_neg version]
    by_cases closed : c.closed = true
    · rw [if_pos closed]
      exact .inl (Quiet.refl c)
    · rw [if_neg closed, if_neg (not_or.mpr ⟨version, closed⟩)]
      have snapshots := handleSnapshot_follows (h := h) (c := c) (q := q)
      cases action : q.action with
      | connectionsGet | connectionsValidate | connectionsSave
      | connectionsOther =>
          rw [action] at snapshots
          exact snapshots
      | connections => exact .inl (quiet_listed h c {})
      | connectionSave => exact connectionSave_follows sound
      | connectionStart | connectionStop =>
          exact changing_follows fun p found =>
            connectionToggle_follows sound found
      | connectionDelete =>
          exact changing_follows fun p _ => connectionDelete_follows
      | connectionGet => exact .inl (reading_quiet fun p => quiet_listed h c _)
      | connectionExport => exact .inl (reading_quiet fun p => Quiet.refl c)
      | connectionOther => exact .inl (reading_quiet fun p => Quiet.refl c)

theorem migrate_follows {h : Host} {c : Catalog} {saved : Option Saved}
    {stat : Option Problem} (empty : c.file = none → c.profiles = ∅) :
    Follows h c (c.proposesMigrated saved stat) (c.migrate h saved stat).1 := by
  unfold migrate proposesMigrated
  split_ifs with absent
  · exact .inl (Quiet.refl c)
  · cases saved with
    | none => exact .inl (Quiet.refl c)
    | some cfg =>
        dsimp only [Option.bind_some]
        split_ifs with server
        · exact .inl (Quiet.refl c)
        · rw [not_or, not_not, not_not] at absent
          have nothing := empty absent.2
          rcases persist_cases h c
              (c.profiles.insert (migrated cfg.1).id (migrated cfg.1)) with
            ⟨problem, same⟩ | ⟨small, ⟨problem, _, same⟩ | same⟩
          · rw [same]
            exact .inl (Quiet.refl c)
          all_goals
            rw [same]
            exact .inr ⟨_, rfl, writes_of_quiet small
              (.inr fun id stored => by simp [nothing] at stored)
              (Quiet.refl _)⟩

/-- Every step is quiet or writes what it proposes. -/
theorem step_cases {c d : Catalog} {action : Action}
    (sound : Sound c.profiles) (empty : c.file = none → c.profiles = ∅)
    (taken : step c action = some d) :
    Quiet c d ∨
      ∃ h next, c.proposal action = some (h, next) ∧ Writes h c next d := by
  have follows {h : Host} {proposed : Option Profiles}
      (outcome : Follows h c proposed d) : Quiet c d ∨
        ∃ h' next, proposed.map (h, ·) = some (h', next) ∧
          Writes h' c next d := by
    rcases outcome with quiet | ⟨next, same, writes⟩
    · exact .inl quiet
    · exact .inr ⟨h, next, by rw [same, Option.map_some], writes⟩
  cases action with
  | request h q =>
      obtain rfl := Option.some.inj taken
      exact follows (handle_follows sound)
  | autostart h =>
      obtain rfl := Option.some.inj taken
      exact .inl (quiet_autostart sound)
  | beginTest version id =>
      obtain rfl := Option.some.inj taken
      exact .inl (quiet_beginTest c version id)
  | endTest h test result =>
      simp only [step] at taken
      split_ifs at taken
      obtain rfl := Option.some.inj taken
      exact .inl (quiet_endTest h c test result)
  | migrate h saved stat =>
      obtain rfl := Option.some.inj taken
      exact follows (migrate_follows empty)
  | close =>
      obtain rfl := Option.some.inj taken
      exact .inl (quiet_close c)

/-! ## Proposals are sound -/

theorem toOption_ok {α : Type} {result : Result α} {value : α}
    (same : result.toOption = some value) : result = .ok value := by
  cases result with
  | error problem => simp [Except.toOption] at same
  | ok other => exact congrArg Except.ok (Option.some.inj same)

/-- How the store that an action proposes came about. -/
inductive Proposed (h : Host) (c : Catalog) : Action → Profiles → Prop where
  | saved {q : CatalogRequest} {p r : Profile} {next : Profiles}
      (isSave : q.action = .connectionSave) (given : q.profile = some p)
      (accepted : c.saveConnection h p q.relay = .ok (r, next)) :
      Proposed h c (.request h q) next
  | toggled {q : CatalogRequest} {p r : Profile} {enabled : Bool}
      (stored : c.profiles.lookup q.id = some p)
      (accepted : c.toggled h p enabled = .ok r) :
      Proposed h c (.request h q) (c.profiles.insert r.id r)
  | deleted {q : CatalogRequest} {p : Profile}
      (isDelete : q.action = .connectionDelete)
      (stored : c.profiles.lookup q.id = some p)
      (unused : c.user h p = none) :
      Proposed h c (.request h q) (c.profiles.erase p.id)
  | snapshot {q : CatalogRequest} {list : List Profile} {next : Profiles}
      (isSave : q.action = .connectionsSave)
      (listed : requested q.config = some list)
      (accepted : Accepted h c list next) :
      Proposed h c (.request h q) next
  | migrated {saved : Option Saved} {stat : Option Problem} {cfg : Saved}
      (absent : c.file = none) :
      Proposed h c (.migrate h saved stat)
        (c.profiles.insert (migrated cfg.1).id (migrated cfg.1))

theorem proposed_of_proposes {h : Host} {c : Catalog} {q : CatalogRequest}
    {next : Profiles} (proposed : c.proposes h q = some next) :
    Proposed h c (.request h q) next := by
  have toggle {enabled : Bool}
      (proposed : c.proposesToggle h q enabled = some next) :
      Proposed h c (.request h q) next := by
    unfold proposesToggle at proposed
    split_ifs at proposed
    obtain ⟨p, stored, proposed⟩ := Option.bind_eq_some_iff.mp proposed
    split_ifs at proposed
    obtain ⟨r, accepted, rfl⟩ := Option.map_eq_some_iff.mp proposed
    exact .toggled stored (toOption_ok accepted)
  unfold proposes at proposed
  split_ifs at proposed
  split at proposed
  next isSave =>
    unfold proposesSnapshot at proposed
    split_ifs at proposed
    obtain ⟨list, listed, accepted⟩ :=
      accepted_of_validateSnapshot (toOption_ok proposed)
    exact .snapshot isSave listed accepted
  next isSave =>
    obtain ⟨p, given, proposed⟩ := Option.bind_eq_some_iff.mp proposed
    split_ifs at proposed
    obtain ⟨⟨r, next⟩, accepted, rfl⟩ := Option.map_eq_some_iff.mp proposed
    exact .saved isSave given (toOption_ok accepted)
  next => exact toggle proposed
  next => exact toggle proposed
  next isDelete =>
    unfold proposesDelete at proposed
    split_ifs at proposed
    obtain ⟨p, stored, proposed⟩ := Option.bind_eq_some_iff.mp proposed
    split_ifs at proposed with used
    obtain rfl := Option.some.inj proposed
    exact .deleted isDelete stored (Option.not_isSome_iff_eq_none.mp used)
  next => simp at proposed

theorem proposed_of_proposal {c : Catalog} {action : Action} {h : Host}
    {next : Profiles} (proposed : c.proposal action = some (h, next)) :
    Proposed h c action next := by
  cases action with
  | request _ q =>
      obtain ⟨_, made, same⟩ := Option.map_eq_some_iff.mp proposed
      obtain ⟨rfl, rfl⟩ := Prod.mk.inj same
      exact proposed_of_proposes made
  | migrate _ saved stat =>
      obtain ⟨_, made, same⟩ := Option.map_eq_some_iff.mp proposed
      obtain ⟨rfl, rfl⟩ := Prod.mk.inj same
      unfold proposesMigrated at made
      split_ifs at made with present
      obtain ⟨cfg, _, made⟩ := Option.bind_eq_some_iff.mp made
      split_ifs at made
      obtain rfl := Option.some.inj made
      rw [not_or, not_not, not_not] at present
      exact .migrated present.2
  | autostart | beginTest | endTest | close => simp [proposal] at proposed

theorem sound_of_proposal {c : Catalog} {action : Action} {h : Host}
    {next : Profiles} (sound : Sound c.profiles)
    (empty : c.file = none → c.profiles = ∅)
    (proposed : c.proposal action = some (h, next)) :
    Sound next ∧ KeepsKinds c.profiles next := by
  cases proposed_of_proposal proposed with
  | saved _ _ accepted =>
      have added := added_of_saveConnection sound accepted
      exact ⟨added.sound, added.kept.keepsKinds⟩
  | toggled stored accepted =>
      have added := added_of_toggled sound stored accepted
      exact ⟨added.sound, added.kept.keepsKinds⟩
  | deleted _ stored unused =>
      constructor
      · exact sound_of_delete sound unused
      · intro id v w before found
        rw [(lookup_erase_cases found).2] at before
        rw [Option.some.inj before]
  | snapshot _ _ accepted => exact sound_of_accepted accepted
  | @migrated _ _ cfg absent =>
      rw [empty absent]
      have added := added_of_joins sound_empty (Extends.refl _)
        (joins_migrated cfg)
      exact ⟨added.sound, added.kept.keepsKinds⟩

/-! ## Runs -/

/-- What holds of a catalog in every run: its store is sound, and empty as
long as there is no file. -/
structure Upright (c : Catalog) : Prop where
  sound : Sound c.profiles
  empty : c.file = none → c.profiles = ∅

theorem upright_step {c d : Catalog} {action : Action} (upright : c.Upright)
    (taken : step c action = some d) : d.Upright := by
  rcases step_cases upright.sound upright.empty taken with
    quiet | ⟨h, next, proposed, writes⟩
  · constructor
    · rw [quiet.profiles]
      exact upright.sound
    · rw [quiet.file, quiet.profiles]
      exact upright.empty
  · constructor
    · rw [writes.profiles]
      exact (sound_of_proposal upright.sound upright.empty proposed).1
    · rw [writes.file]
      simp

theorem upright_reachable {ok : Catalog → Action → Prop} {c : Catalog}
    (reached : machine.ReachableBy ok c) : c.Upright := by
  apply Machine.ReachableBy.invariant (P := Upright) _ _ reached
  · rintro c rfl
    exact ⟨sound_empty, fun _ => rfl⟩
  · intro c action d _ upright _ taken
    exact upright_step upright taken

end Catalog

end Veil.Control

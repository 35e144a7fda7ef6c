import Veil.Control.References

/-!
# What a request leaves alone

A request on one connection changes the profile and the entry of that
connection.  The other profiles stay as they are, save for an embedded relay
that is new, and the other entries stay as they are, save for those of the
connections behind a relay that is saved and applied.
-/

namespace Veil.Control

open Lib

/-! ## Revisions tell profiles apart -/

/-- The text that the revision of a profile is the digest of. -/
def Profile.text (p : Profile) : Text :=
  Json.print .compact 0 p.json

/-- Two different texts have one digest. -/
def Collide (a b : Text) : Prop :=
  a ≠ b ∧ Sha256.sum a = Sha256.sum b

theorem Profile.eq_of_text {p q : Profile} (first : p.config.Readable)
    (second : q.config.Readable) (same : p.text = q.text) : p = q := by
  have parsed (r : Profile) : Json.parse r.text = some r.json := by
    have whole := Json.parse_print .compact 0 r.json [] rfl
    rw [List.append_nil] at whole
    exact whole
  have jsons : p.json = q.json := by
    have both := parsed p
    rw [same, parsed q] at both
    exact (Option.some.inj both).symm
  have read := Profile.read_json first
  rw [jsons, Profile.read_json second] at read
  exact (Option.some.inj read).symm

/-- Profiles of one revision are equal, unless their texts collide. -/
theorem Profile.eq_or_collide {p q : Profile}
    (first : p.config.defaults = .ok p.config)
    (second : q.config.defaults = .ok q.config)
    (same : p.revision = q.revision) : p = q ∨ Collide p.text q.text := by
  by_cases equal : p.text = q.text
  · exact .inl (eq_of_text (Config.readable_of_defaults first)
      (Config.readable_of_defaults second) equal)
  · exact .inr ⟨equal, same⟩

namespace Catalog

/-! ## Entries that are left alone -/

/-- The entry of an ID is left as it is, or it is a new one. -/
structure Leaves (c d : Catalog) (id : Text) : Prop where
  kept : ∀ e, c.entries.lookup id = some e → d.entries.lookup id = some e
  fresh : ∀ e, c.entries.lookup id = none → d.entries.lookup id = some e →
    e = { serial := e.serial }

theorem Leaves.refl (c : Catalog) (id : Text) : Leaves c c id where
  kept _ found := found
  fresh e absent found := by simp [absent] at found

theorem Leaves.of_lookup {c d : Catalog} {id : Text}
    (same : d.entries.lookup id = c.entries.lookup id) : Leaves c d id where
  kept _ found := same.trans found
  fresh e absent found := by simp [same, absent] at found

theorem Leaves.trans {c d e : Catalog} {id : Text} (first : Leaves c d id)
    (second : Leaves d e id) : Leaves c e id where
  kept entry found := second.kept entry (first.kept entry found)
  fresh entry absent found := by
    cases between : d.entries.lookup id with
    | none => exact second.fresh entry between found
    | some middle =>
        have same := second.kept middle between
        rw [found] at same
        obtain rfl := Option.some.inj same
        exact first.fresh entry absent between

/-- Only the entries of some IDs change. -/
def Confined (S : Text → Prop) (c d : Catalog) : Prop :=
  ∀ id, ¬ S id → Leaves c d id

namespace Confined

variable {S T : Text → Prop} {c d e : Catalog}

theorem refl (c : Catalog) : Confined S c c :=
  fun id _ => Leaves.refl c id

theorem trans (first : Confined S c d) (second : Confined S d e) :
    Confined S c e :=
  fun id outside => (first id outside).trans (second id outside)

theorem mono (confined : Confined S c d) (wider : ∀ id, S id → T id) :
    Confined T c d :=
  fun id outside => confined id fun inside => outside (wider id inside)

theorem of_entries (same : d.entries = c.entries) : Confined S c d :=
  fun _ _ => Leaves.of_lookup (by rw [same])

end Confined

theorem confined_update (c : Catalog) (id : Text) (change : Entry → Entry) :
    Confined (· = id) c (c.update id change) := by
  intro key distinct
  apply Leaves.of_lookup
  rw [lookup_update, if_neg distinct]

/-- An entry is looked at and made when there is none. -/
theorem confined_touch (c : Catalog) (id : Text) :
    Confined (fun _ => False) c (c.update id fun e => e) := by
  intro key _
  constructor
  · intro e found
    rw [lookup_update]
    split_ifs with same
    · subst same
      simp [entry, found]
    · exact found
  · intro e absent found
    rw [lookup_update] at found
    split_ifs at found with same
    · subst same
      obtain rfl := Option.some.inj found
      simp [entry, absent]
    · simp [absent] at found

theorem confined_stop (c : Catalog) (id : Text) :
    Confined (· = id) c (c.stop id) :=
  confined_update c id _

theorem confined_discard (c : Catalog) (id : Text) :
    Confined (· = id) c (c.discard id) := by
  apply (confined_stop c id).trans
  intro key distinct
  apply Leaves.of_lookup
  exact AList.lookup_erase_ne distinct

theorem confined_openConnection (h : Host) (c : Catalog) (p : Profile) :
    Confined (· = p.id) c (openConnection h c p).1 := by
  unfold openConnection
  dsimp only
  split_ifs
  all_goals try exact .refl c
  all_goals
    split
    · exact confined_update c p.id _
    · exact confined_update c p.id _

theorem confined_applyConnection (h : Host) (c : Catalog) (p : Profile) :
    Confined (· = p.id) c (applyConnection h c p).1 := by
  have touched : Confined (· = p.id) c (c.update p.id id) :=
    confined_update c p.id _
  unfold applyConnection
  apply touched.trans
  generalize c.update p.id id = c
  dsimp only
  split_ifs
  · split
    · exact confined_update c p.id _
    · exact .refl c
  · split
    · exact confined_update c p.id _
    · exact confined_update c p.id _
  · exact ((confined_stop c p.id).trans (confined_update _ p.id _)).trans
      (confined_openConnection h _ p)
  · exact (confined_stop c p.id).trans (confined_update _ p.id _)

theorem confined_untilFailure {S : Text → Prop}
    {each : Catalog → Profile → Catalog × Option Problem} {c : Catalog}
    {list : List Profile}
    (confined : ∀ d p, p ∈ list → Confined S d (each d p).1) :
    Confined S c (untilFailure each c list).1 := by
  induction list generalizing c with
  | nil => exact .refl c
  | cons p rest ih =>
      have first := confined c p (by simp)
      unfold untilFailure
      split
      next d problem outcome =>
        rw [outcome] at first
        exact first
      next d outcome =>
        rw [outcome] at first
        exact first.trans (ih fun e q listed =>
          confined e q (List.mem_cons_of_mem p listed))

/-- The IDs that applying a profile reaches: its own, and for a relay those of
the connections behind it. -/
def Reaches (m : Profiles) (p : Profile) (id : Text) : Prop :=
  id = p.id ∨
    (p.kind = relayKind ∧ ∃ v, m.lookup id = some v ∧ v.relayID = p.id)

theorem id_ne_nil {m : Profiles} (sound : Sound m) {p : Profile}
    (stored : m.lookup p.id = some p) : p.id ≠ [] := by
  intro blank
  have pattern := sound.pattern p.id p stored
  rw [blank] at pattern
  simp [profileID] at pattern

/-- What goes through a relay is a connection. -/
theorem kind_of_relayID {m : Profiles} (sound : Sound m) {p v : Profile}
    (stored : m.lookup p.id = some p) (located : m.lookup v.id = some v)
    (through : v.relayID = p.id) : v.kind ≠ relayKind := by
  intro relay
  have bare := (sound.bare v.id v located relay).1
  rw [through] at bare
  exact id_ne_nil sound stored bare

theorem confined_apply {h : Host} {c : Catalog} {p : Profile}
    (sound : Sound c.profiles) (stored : c.profiles.lookup p.id = some p) :
    Confined (Reaches c.profiles p) c (c.apply h p).1 := by
  unfold apply
  rw [applyWithin]
  split_ifs with relay
  · apply confined_untilFailure
    intro d v listed
    have user := stored_of_order sound (List.mem_of_mem_filter listed)
    obtain ⟨through, _⟩ : v.relayID = p.id ∧ v.enabled := by
      simpa using (List.mem_filter.mp listed).2
    have direct := kind_of_relayID sound stored user through
    cases c.profiles.keys.length with
    | zero => exact .refl d
    | succ depth =>
        rw [applyWithin, if_neg direct]
        apply (confined_applyConnection h d v).mono
        rintro id rfl
        exact .inr ⟨relay, v, user, through⟩
  · exact (confined_applyConnection h c p).mono fun id same => .inl same

theorem confined_list (h : Host) (c : Catalog) :
    Confined (fun _ => False) c (c.list h).1 := by
  unfold list
  dsimp only
  generalize h.order c.profiles = order
  induction order generalizing c with
  | nil => exact .refl c
  | cons entry rest ih =>
      rw [List.foldl_cons]
      exact (confined_touch c entry.1).trans (ih _)

theorem leaves_listed (h : Host) (c : Catalog) (r : CatalogResponse)
    (id : Text) : Leaves c (listed h c r).1 id :=
  confined_list h c id not_false

theorem confined_applied {h : Host} {c : Catalog} {p : Profile}
    (sound : Sound c.profiles) (stored : c.profiles.lookup p.id = some p)
    (r : CatalogResponse) :
    Confined (Reaches c.profiles p) c (applied h c p r).1 :=
  (confined_apply sound stored).trans fun id _ => leaves_listed h _ _ id

/-! ## The entries after a request -/

theorem persist_entries (h : Host) (c : Catalog) (next : Profiles) :
    (c.persist h next).1.entries = c.entries := by
  rcases persist_cases h c next with
    ⟨problem, same⟩ | ⟨_, ⟨problem, _, same⟩ | same⟩
  all_goals
    rw [same]
    try rfl

theorem saveConnection_id {h : Host} {c : Catalog} {p r : Profile}
    {relay : Option Profile} {next : Profiles}
    (accepted : c.saveConnection h p relay = .ok (r, next)) : r.id = p.id := by
  obtain ⟨staged, _, rest⟩ := bind_eq_ok.mp accepted
  obtain ⟨s, valid, made⟩ := bind_eq_ok.mp rest
  obtain ⟨rfl, rfl⟩ := Prod.mk.inj (Except.ok.inj made)
  obtain ⟨_, config, _, rfl⟩ := validate_ok.mp valid
  rfl

theorem toggled_same {h : Host} {c : Catalog} {p r : Profile} {enabled : Bool}
    (accepted : c.toggled h p enabled = .ok r) :
    r.id = p.id ∧ r.kind = p.kind := by
  cases enabled with
  | true =>
      obtain ⟨_, config, _, rfl⟩ := validate_ok.mp accepted
      exact ⟨rfl, rfl⟩
  | false =>
      obtain rfl := Except.ok.inj accepted
      exact ⟨rfl, rfl⟩

/-- A relay with this ID is saved and applied, and the other profile is that
of a connection behind it. -/
structure TakesAlong (d : Catalog) (q : CatalogRequest) (id other : Text) :
    Prop where
  save : q.action = .connectionSave
  applies : q.apply = true
  relay : ∃ r, d.profiles.lookup id = some r ∧ r.kind = relayKind
  behind : ∃ v, d.profiles.lookup other = some v ∧ v.relayID = id

theorem leaves_connectionSave {h : Host} {c : Catalog} {q : CatalogRequest}
    {id other : Text} (sound : Sound c.profiles)
    (save : q.action = .connectionSave)
    (names : ∀ p ∈ q.profile, p.id = id) (distinct : other ≠ id) :
    Leaves c (c.connectionSave h q).1 other ∨
      TakesAlong (c.connectionSave h q).1 q id other := by
  unfold connectionSave
  cases given : q.profile with
  | none => exact .inl (.refl c other)
  | some p =>
      obtain rfl := names p given
      dsimp only
      by_cases conflict : c.conflicts q p.id = true
      · rw [if_pos conflict]
        exact .inl (.refl c other)
      rw [if_neg conflict]
      cases accepted : c.saveConnection h p q.relay with
      | error problem => exact .inl (.refl c other)
      | ok result =>
          obtain ⟨r, next⟩ := result
          have added := added_of_saveConnection sound accepted
          have same := saveConnection_id accepted
          dsimp only
          rcases persist_cases h c next with
            ⟨problem, stays⟩ | ⟨_, ⟨problem, _, writes⟩ | writes⟩
          · rw [stays]
            exact .inl (.refl c other)
          · rw [writes]
            exact .inl (.of_lookup rfl)
          · rw [writes]
            dsimp only
            have stored : Leaves c (c.stores next) other := .of_lookup rfl
            split_ifs with applies
            · by_cases reached : Reaches next r other
              · right
                have kept := (quiet_applied (h := h) (c := c.stores next)
                  added.sound added.stored { revision := r.revision }).profiles
                rcases reached with itself | ⟨relay, behind⟩
                · exact absurd (itself.trans same) distinct
                · constructor
                  · exact save
                  · exact applies
                  · rw [kept, ← same]
                    exact ⟨r, added.stored, relay⟩
                  · rw [kept, ← same]
                    exact behind
              · left
                exact stored.trans (confined_applied (h := h)
                  (c := c.stores next) added.sound added.stored _ other reached)
            · exact .inl (stored.trans (leaves_listed h _ _ other))

theorem leaves_connectionToggle {h : Host} {c : Catalog} {p : Profile}
    {enabled : Bool} {other : Text} (sound : Sound c.profiles)
    (stored : c.profiles.lookup p.id = some p) (distinct : other ≠ p.id) :
    Leaves c (c.connectionToggle h p enabled).1 other := by
  unfold connectionToggle
  split_ifs with relay
  · exact .refl c other
  cases accepted : c.toggled h p enabled with
  | error problem => exact .refl c other
  | ok r =>
      obtain ⟨same, kind⟩ := toggled_same accepted
      have added := added_of_toggled sound stored accepted
      dsimp only
      rcases persist_cases h c (c.profiles.insert r.id r) with
        ⟨problem, stays⟩ | ⟨_, ⟨problem, _, writes⟩ | writes⟩
      · rw [stays]
        exact .refl c other
      · rw [writes]
        exact .of_lookup rfl
      · rw [writes]
        have kept : Leaves c (c.stores (c.profiles.insert r.id r)) other :=
          .of_lookup rfl
        apply kept.trans
        apply confined_applied (h := h) added.sound added.stored {} other
        rintro (itself | ⟨isRelay, _⟩)
        · exact distinct (itself.trans same)
        · rw [kind, not_not.mp relay] at isRelay
          exact relay_ne_connection isRelay.symm

theorem leaves_connectionDelete {h : Host} {c : Catalog} {p : Profile}
    {other : Text} (distinct : other ≠ p.id) :
    Leaves c (c.connectionDelete h p).1 other := by
  unfold connectionDelete
  cases c.user h p with
  | some v => exact .refl c other
  | none =>
      dsimp only
      rcases persist_cases h c (c.profiles.erase p.id) with
        ⟨problem, stays⟩ | ⟨_, ⟨problem, _, writes⟩ | writes⟩
      · rw [stays]
        exact .refl c other
      · rw [writes]
        exact .of_lookup rfl
      · rw [writes]
        have kept : Leaves c (c.stores (c.profiles.erase p.id)) other :=
          .of_lookup rfl
        apply kept.trans
        apply (confined_discard _ p.id other distinct).trans
        exact leaves_listed h _ _ other

theorem leaves_changing {c : Catalog} {q : CatalogRequest}
    {change : Profile → Catalog × CatalogResponse} {other : Text}
    (each : ∀ p, c.profiles.lookup q.id = some p →
      Leaves c (change p).1 other) :
    Leaves c (c.changing q change).1 other := by
  unfold changing
  split_ifs with conflict
  · exact .refl c other
  · cases found : c.profiles.lookup q.id with
    | none => exact .refl c other
    | some p => exact each p found

/-! ## The entries after a test -/

theorem leaves_beginTest {c : Catalog} {version : Int} {id other : Text}
    (sound : Sound c.profiles) (distinct : other ≠ id) :
    Leaves c (c.beginTest version id).1 other := by
  unfold beginTest
  split_ifs with refused
  · exact .refl c other
  cases found : c.profiles.lookup id with
  | none => exact .refl c other
  | some p =>
      have same := sound.keyed id p found
      have away : other ≠ p.id := same ▸ distinct
      dsimp only
      split_ifs
      · exact .refl c other
      · exact confined_update c p.id _ other away
      · exact (confined_update c p.id _ other away).trans (.of_lookup rfl)

theorem leaves_endTest {h : Host} {c : Catalog} {test : Pending}
    {result : ProbeResult} {other : Text}
    (distinct : other ≠ test.profile.id) :
    Leaves c (c.endTest h test result).1 other := by
  have conditional (d : Catalog) (holds : Bool) (change : Entry → Entry) :
      Leaves d (if holds then d.update test.profile.id change else d)
        other := by
    split_ifs
    · exact confined_update d _ change other distinct
    · exact .refl d other
  have erased : Leaves c { c with tests := c.tests.erase test } other :=
    .of_lookup rfl
  unfold endTest
  apply Leaves.trans _ (leaves_listed h _ _ other)
  exact (erased.trans (conditional _ _ _)).trans (conditional _ _ _)

/-- A test that begins is one of the profile that it names. -/
theorem beginTest_names {c : Catalog} {version : Int} {id : Text}
    (sound : Sound c.profiles) {test : Pending}
    (pending : test ∈ (c.beginTest version id).1.tests) :
    test ∈ c.tests ∨ test.profile.id = id := by
  have updated (key : Text) (change : Entry → Entry) :
      (c.update key change).tests = c.tests := by
    unfold update
    split <;> rfl
  unfold beginTest at pending
  split_ifs at pending with refused
  · exact .inl pending
  cases found : c.profiles.lookup id with
  | none =>
      simp only [found] at pending
      exact .inl pending
  | some p =>
      simp only [found] at pending
      split_ifs at pending
      · exact .inl pending
      · rw [updated] at pending
        exact .inl pending
      · rcases List.mem_cons.mp pending with rfl | earlier
        · exact .inr (sound.keyed id p found)
        · rw [updated] at earlier
          exact .inl earlier

/-! ## The profiles after a request -/

/-- A relay is embedded under an ID that was not used. -/
def Embedded (m next : Profiles) (relay : Option Profile) (other : Text) :
    Prop :=
  m.lookup other = none ∧ ∃ r ∈ relay, r.id = other ∧ r.kind = relayKind ∧
    ∃ config, next.lookup other = some { r with config }

/-- The stored relay and the embedded one are told apart by their texts only,
which have one digest. -/
def Mistaken (m next : Profiles) (other : Text) : Prop :=
  ∃ old new, m.lookup other = some old ∧ next.lookup other = some new ∧
    Collide old.text new.text

theorem lookup_stageRelay {h : Host} {c : Catalog} {p : Profile}
    {relay : Option Profile} {staged : Profiles} (sound : Sound c.profiles)
    (accepted : c.stageRelay h p relay = .ok staged) (other : Text) :
    staged.lookup other = c.profiles.lookup other ∨
      Embedded c.profiles staged relay other ∨
      Mistaken c.profiles staged other := by
  cases relay with
  | none =>
      obtain rfl := Except.ok.inj accepted
      exact .inl rfl
  | some r =>
      obtain ⟨fits, rest⟩ := seq_ok.mp accepted
      obtain ⟨s, valid, rest⟩ := bind_eq_ok.mp rest
      obtain ⟨known, made⟩ := seq_ok.mp rest
      obtain rfl := Except.ok.inj made
      simp only [refuse_ok, not_or, not_not] at fits
      simp only [refuse_ok, not_exists, not_and, not_not] at known
      obtain ⟨belongs, config, usable, rfl⟩ := validate_ok.mp valid
      by_cases same : other = r.id
      · subst same
        have stored := AList.lookup_insert (a := r.id)
          (b := { r with config }) c.profiles
        cases before : c.profiles.lookup r.id with
        | none =>
            exact .inr (.inl ⟨before, r, rfl, rfl, fits.2.1, config, stored⟩)
        | some old =>
            have filled := Config.defaults_defaults usable.filled
            rcases Profile.eq_or_collide (sound.settled r.id old before)
                filled (known old before) with equal | collide
            · left
              rw [stored, equal]
            · exact .inr (.inr ⟨old, _, before, stored, collide⟩)
      · exact .inl (AList.lookup_insert_ne same)

theorem lookup_saveConnection {h : Host} {c : Catalog} {p r : Profile}
    {relay : Option Profile} {next : Profiles} (sound : Sound c.profiles)
    (accepted : c.saveConnection h p relay = .ok (r, next)) {other : Text}
    (distinct : other ≠ p.id) :
    next.lookup other = c.profiles.lookup other ∨
      Embedded c.profiles next relay other ∨
      Mistaken c.profiles next other := by
  have same := saveConnection_id accepted
  obtain ⟨staged, relays, rest⟩ := bind_eq_ok.mp accepted
  obtain ⟨s, _, made⟩ := bind_eq_ok.mp rest
  obtain ⟨rfl, rfl⟩ := Prod.mk.inj (Except.ok.inj made)
  have away : other ≠ s.id := same ▸ distinct
  unfold Embedded Mistaken
  rw [AList.lookup_insert_ne away]
  exact lookup_stageRelay sound relays other

/-! ## Requests on one connection -/

/-- A request or one half of a test that names an ID. -/
def Names (id : Text) : Action → Prop
  | .request _ q =>
      match q.action with
      | .connectionSave => ∀ p ∈ q.profile, p.id = id
      | .connectionStart | .connectionStop | .connectionDelete => q.id = id
      | _ => False
  | .beginTest _ key => key = id
  | .endTest _ test _ => test.profile.id = id
  | _ => False

/-- What an action may bring apart from the profile that it names. -/
def Brings (c d : Catalog) (other : Text) : Action → Prop
  | .request _ q =>
      q.action = .connectionSave ∧
        (Embedded c.profiles d.profiles q.relay other ∨
          Mistaken c.profiles d.profiles other)
  | _ => False

/-- A relay is applied, which the other profile uses. -/
def Applies (d : Catalog) (id other : Text) : Action → Prop
  | .request _ q => TakesAlong d q id other
  | _ => False

theorem lookup_proposesToggle {h : Host} {c : Catalog} {q : CatalogRequest}
    {enabled : Bool} {next : Profiles} (sound : Sound c.profiles)
    (proposed : c.proposesToggle h q enabled = some next) {other : Text}
    (distinct : other ≠ q.id) :
    next.lookup other = c.profiles.lookup other := by
  unfold proposesToggle at proposed
  split_ifs at proposed
  obtain ⟨p, found, proposed⟩ := Option.bind_eq_some_iff.mp proposed
  split_ifs at proposed
  obtain ⟨r, accepted, rfl⟩ := Option.map_eq_some_iff.mp proposed
  have same := (toggled_same (toOption_ok accepted)).1
  rw [sound.keyed q.id p found] at same
  exact AList.lookup_insert_ne (same ▸ distinct)

theorem lookup_proposes {h : Host} {c : Catalog} {q : CatalogRequest}
    {id other : Text} {next : Profiles} (sound : Sound c.profiles)
    (names : Names id (.request h q)) (proposed : c.proposes h q = some next)
    (distinct : other ≠ id) :
    next.lookup other = c.profiles.lookup other ∨
      (q.action = .connectionSave ∧
        (Embedded c.profiles next q.relay other ∨
          Mistaken c.profiles next other)) := by
  unfold proposes at proposed
  unfold Names at names
  split_ifs at proposed
  cases action : q.action <;> simp only [action] at names proposed
  case connectionSave =>
    obtain ⟨p, given, proposed⟩ := Option.bind_eq_some_iff.mp proposed
    split_ifs at proposed
    obtain ⟨⟨r, next⟩, accepted, rfl⟩ := Option.map_eq_some_iff.mp proposed
    have away : other ≠ p.id := names p given ▸ distinct
    rcases lookup_saveConnection sound (toOption_ok accepted) away with
      same | brought
    · exact .inl same
    · exact .inr ⟨rfl, brought⟩
  case connectionStart | connectionStop =>
    exact .inl (lookup_proposesToggle sound proposed (names ▸ distinct))
  case connectionDelete =>
    unfold proposesDelete at proposed
    split_ifs at proposed
    obtain ⟨p, found, proposed⟩ := Option.bind_eq_some_iff.mp proposed
    split_ifs at proposed
    obtain rfl := Option.some.inj proposed
    have away : other ≠ p.id := by
      rw [sound.keyed q.id p found, names]
      exact distinct
    exact .inl (AList.lookup_erase_ne away)

theorem profiles_kept {c d : Catalog} {action : Action} {id other : Text}
    (upright : c.Upright) (names : Names id action)
    (taken : step c action = some d) (distinct : other ≠ id) :
    d.profiles.lookup other = c.profiles.lookup other ∨
      Brings c d other action := by
  rcases step_cases upright.sound upright.empty taken with
    quiet | ⟨h, next, proposed, writes⟩
  · rw [quiet.profiles]
    exact .inl rfl
  · cases action with
    | request w q =>
        obtain ⟨_, made, same⟩ := Option.map_eq_some_iff.mp proposed
        obtain ⟨rfl, rfl⟩ := Prod.mk.inj same
        unfold Brings
        rw [writes.profiles]
        exact lookup_proposes upright.sound names made distinct
    | autostart | beginTest | endTest | close => simp [proposal] at proposed
    | migrate => exact False.elim names

theorem entries_kept {c d : Catalog} {action : Action} {id other : Text}
    (upright : c.Upright) (names : Names id action)
    (taken : step c action = some d) (distinct : other ≠ id) :
    Leaves c d other ∨ Applies d id other action := by
  have sound := upright.sound
  cases action with
  | request h q =>
      obtain rfl := Option.some.inj taken
      unfold Names at names
      unfold Applies handle
      by_cases version : q.version ≠ 1
      · rw [if_pos version]
        exact .inl (.refl c other)
      rw [if_neg version]
      by_cases closed : c.closed = true
      · rw [if_pos closed]
        exact .inl (.refl c other)
      rw [if_neg closed]
      have toggle (enabled : Bool) (named : q.id = id) : Leaves c
          (c.changing q fun p => c.connectionToggle h p enabled).1 other := by
        apply leaves_changing
        intro p found
        have same := sound.keyed q.id p found
        apply leaves_connectionToggle sound (same.symm ▸ found)
        rw [same, named]
        exact distinct
      cases action : q.action <;> simp only [action] at names ⊢
      case connectionSave =>
        exact leaves_connectionSave sound action names distinct
      case connectionStart => exact .inl (toggle true names)
      case connectionStop => exact .inl (toggle false names)
      case connectionDelete =>
        left
        apply leaves_changing
        intro p found
        apply leaves_connectionDelete
        rw [sound.keyed q.id p found, names]
        exact distinct
  | beginTest version key =>
      obtain rfl := Option.some.inj taken
      exact .inl (leaves_beginTest sound (names ▸ distinct))
  | endTest h test result =>
      simp only [step] at taken
      split_ifs at taken
      obtain rfl := Option.some.inj taken
      exact .inl (leaves_endTest (names ▸ distinct))
  | autostart | migrate | close => exact False.elim names

/--
A request or a test of one connection, whether it succeeds or fails, leaves
every other profile as it is, unless it embeds a relay under an ID that was
not used; a stored relay could only be mistaken for one whose text has the
same digest.  Every other entry is left as it is, unless a relay that the
other profile uses is saved and applied.
-/
theorem others_kept {c d : Catalog} (reached : machine.Reachable c)
    {action : Action} {id : Text} (names : Names id action)
    (taken : step c action = some d) {other : Text} (distinct : other ≠ id) :
    (d.profiles.lookup other = c.profiles.lookup other ∨
      Brings c d other action) ∧
    (Leaves c d other ∨ Applies d id other action) := by
  have upright := upright_reachable reached
  constructor
  · exact profiles_kept upright names taken distinct
  · exact entries_kept upright names taken distinct

/-- A second connection is saved and opened. -/
def saveSecond : Action :=
  .request calmHost
    { action := .connectionSave
      profile := some (sampleConnection "two".toList "127.0.0.1:1081".toList)
      apply := true
      expectedRevision := some [] }

theorem others_kept_second :
    ∃ c d : Catalog, step c saveSecond = some d ∧ "one".toList ∈ c.profiles ∧
      (d.profiles.lookup "one".toList = c.profiles.lookup "one".toList ∨
        Brings c d "one".toList saveSecond) ∧
      (Leaves c d "one".toList ∨
        Applies d "two".toList "one".toList saveSecond) := by
  have runs : ((machine.run {} saveBehindRelay).any fun c =>
      decide ("one".toList ∈ c.profiles)) = true := by
    decide +kernel
  obtain ⟨c, ran, stored⟩ := (Option.any_eq_true ..).mp runs
  have reached : machine.Reachable c := Machine.run_reachable (.start rfl) ran
  have names : Names "two".toList saveSecond := by
    intro p given
    obtain rfl := Option.some.inj given
    rfl
  exact ⟨c, _, rfl, of_decide_eq_true stored,
    others_kept reached names rfl (by decide)⟩

end Catalog

end Veil.Control

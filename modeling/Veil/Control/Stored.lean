import Veil.Control.References

/-!
# The store on disk

The catalog in memory is what would be loaded from its file.  A store is
checked against the size limit before its last newline is added, and the file
is checked with it, so that a store of exactly that size is written and cannot
be loaded again.
-/

namespace Veil.Control

open Lib

/-! ## Loading what was written -/

theorem addProfiles_ok {m loaded : Profiles} {list : List Profile} :
    addProfiles m list = .ok loaded ↔
      (∀ p ∈ list, profileID p.id = true) ∧ (list.map (·.id)).Nodup ∧
      (∀ p ∈ list, p.id ∉ m) ∧ loaded = m.addAll list := by
  induction list generalizing m with
  | nil =>
      constructor
      · intro accepted
        exact ⟨by simp, by simp, by simp, (Except.ok.inj accepted).symm⟩
      · rintro ⟨_, _, _, rfl⟩
        rfl
  | cons p rest ih =>
      simp only [addProfiles, seq_ok, refuse_ok, ih, Bool.not_eq_false,
        List.map_cons, List.nodup_cons, List.mem_map, not_exists, not_and,
        List.forall_mem_cons, AList.mem_insert, not_or, Profiles.addAll_cons]
      constructor
      · rintro ⟨pattern, fresh, patterns, distinct, later, same⟩
        exact ⟨⟨pattern, patterns⟩,
          ⟨fun q listed => (later q listed).1, distinct⟩,
          ⟨fresh, fun q listed => (later q listed).2⟩, same⟩
      · rintro ⟨⟨pattern, patterns⟩, ⟨apart, distinct⟩, ⟨fresh, later⟩, same⟩
        exact ⟨pattern, fresh, patterns, distinct,
          fun q listed => ⟨apart q listed, later q listed⟩, same⟩

theorem sorted_perm (m : Profiles) :
    m.sorted.Perm (m.entries.map fun entry => entry.2) :=
  List.perm_insertionSort _ _

theorem mem_sorted {m : Profiles} {p : Profile} :
    p ∈ m.sorted ↔ ∃ id, m.lookup id = some p := by
  rw [(sorted_perm m).mem_iff, List.mem_map]
  constructor
  · rintro ⟨⟨id, q⟩, member, rfl⟩
    exact ⟨id, AList.mem_lookup_iff.mpr member⟩
  · rintro ⟨id, found⟩
    exact ⟨⟨id, p⟩, AList.mem_lookup_iff.mp found, rfl⟩

theorem length_sorted (m : Profiles) : m.sorted.length = m.keys.length := by
  rw [(sorted_perm m).length_eq, List.length_map]
  exact (List.length_map _).symm

/-- The IDs of sorted profiles are the keys they are stored under. -/
theorem sorted_ids {m : Profiles} (sound : Sound m) :
    (m.sorted.map (·.id)).Nodup := by
  have ids : (m.entries.map fun entry => entry.2).map (·.id) = m.keys := by
    rw [List.map_map]
    apply List.map_congr_left
    rintro ⟨id, p⟩ member
    exact sound.keyed id p (AList.mem_lookup_iff.mpr member)
  rw [((sorted_perm m).map _).nodup_iff, ids]
  exact m.keys_nodup

theorem lookup_sorted {m : Profiles} (sound : Sound m) (id : Text) :
    (Profiles.addAll ∅ m.sorted).lookup id = m.lookup id := by
  apply Option.ext
  intro p
  rw [Profiles.lookup_addAll (sorted_ids sound), mem_sorted]
  constructor
  · rintro ⟨⟨key, found⟩, rfl⟩
    rw [sound.keyed key p found]
    exact found
  · intro found
    exact ⟨⟨id, found⟩, sound.keyed id p found⟩

/-- The file of a store. -/
def Profiles.fileText (m : Profiles) : Text :=
  m.text ++ ['\n']

theorem bytes_fileText (m : Profiles) :
    m.fileText.bytes = m.text.bytes + 1 := by
  rw [Profiles.fileText, Text.bytes_append]
  rfl

/-- A sound store below the size limit is loaded as it was. -/
theorem openCatalog_fileText {m : Profiles} (sound : Sound m)
    (small : m.text.bytes < maxConfigSize) :
    ∃ loaded, openCatalog (some m.fileText) = .ok loaded ∧
      ∀ id, loaded.lookup id = m.lookup id := by
  have readable : ∀ p ∈ m.sorted, p.config.Readable := by
    intro p listed
    obtain ⟨id, found⟩ := mem_sorted.mp listed
    exact Config.readable_of_defaults (sound.settled id p found)
  have decoded : decodeOne "expected one connection store object"
      (CatalogFile.read · {}) m.fileText = .ok (CatalogFile.ofList m.sorted) :=
    decodeOne_print .indent rfl (CatalogFile.read_ofList readable)
  have fits : ¬ maxConfigSize < m.fileText.bytes := by
    rw [bytes_fileText]
    omega
  have few : ¬ 64 < m.sorted.length := by
    rw [length_sorted]
    exact Nat.not_lt.mpr sound.count
  have added : addProfiles ∅ m.sorted = .ok (Profiles.addAll ∅ m.sorted) := by
    rw [addProfiles_ok]
    refine ⟨?_, sorted_ids sound, by simp, rfl⟩
    intro p listed
    obtain ⟨id, found⟩ := mem_sorted.mp listed
    rw [sound.keyed id p found]
    exact sound.pattern id p found
  refine ⟨Profiles.addAll ∅ m.sorted, ?_, lookup_sorted sound⟩
  exact seq_ok.mpr ⟨refuse_ok.mpr fits, bind_eq_ok.mpr ⟨_, decoded,
    seq_ok.mpr ⟨refuse_ok.mpr few, seq_ok.mpr ⟨refuse_ok.mpr (by
      simp [CatalogFile.ofList]), added⟩⟩⟩⟩

/-- A store of exactly the size limit cannot be loaded. -/
theorem openCatalog_full {m : Profiles} (full : m.text.bytes = maxConfigSize)
    (loaded : Profiles) : openCatalog (some m.fileText) ≠ .ok loaded := by
  intro accepted
  obtain ⟨fits, _⟩ := seq_ok.mp accepted
  rw [refuse_ok, bytes_fileText, full] at fits
  exact fits (Nat.lt_succ_self maxConfigSize)

namespace Catalog

/-! ## Requests whose write fails -/

/-- A request whose write reports an error reports it too, and leaves the file
and the profiles as the write left them. -/
structure Fails (d : Catalog) (outcome : Catalog × CatalogResponse) : Prop where
  error : outcome.2.error ≠ none
  file : outcome.1.file = d.file
  profiles : outcome.1.profiles = d.profiles

theorem fails_failed (d : Catalog) (code : String) (problem : Problem) :
    Fails d (d, .failed code problem) :=
  ⟨Option.some_ne_none _, rfl, rfl⟩

theorem toggle_fails {h : Host} {c d : Catalog} {q : CatalogRequest}
    {enabled : Bool} {next : Profiles} {problem : Problem}
    (proposed : c.proposesToggle h q enabled = some next)
    (failed : c.persist h next = (d, some problem)) :
    Fails d (c.changing q fun p => c.connectionToggle h p enabled) := by
  unfold proposesToggle at proposed
  split_ifs at proposed with conflict
  obtain ⟨p, found, proposed⟩ := Option.bind_eq_some_iff.mp proposed
  split_ifs at proposed with kind
  obtain ⟨r, accepted, rfl⟩ := Option.map_eq_some_iff.mp proposed
  unfold changing
  rw [if_neg conflict, found]
  dsimp only
  unfold connectionToggle
  rw [if_neg kind, toOption_ok accepted]
  dsimp only
  rw [failed]
  exact fails_failed d _ problem

theorem delete_fails {h : Host} {c d : Catalog} {q : CatalogRequest}
    {next : Profiles} {problem : Problem}
    (proposed : c.proposesDelete h q = some next)
    (failed : c.persist h next = (d, some problem)) :
    Fails d (c.changing q fun p => c.connectionDelete h p) := by
  unfold proposesDelete at proposed
  split_ifs at proposed with conflict
  obtain ⟨p, found, proposed⟩ := Option.bind_eq_some_iff.mp proposed
  split_ifs at proposed with used
  obtain rfl := Option.some.inj proposed
  unfold changing
  rw [if_neg conflict, found]
  dsimp only
  unfold connectionDelete
  rw [Option.not_isSome_iff_eq_none.mp used]
  dsimp only
  rw [failed]
  exact fails_failed d _ problem

theorem save_fails {h : Host} {c d : Catalog} {q : CatalogRequest}
    {next : Profiles} {problem : Problem}
    (proposed : c.proposesSave h q = some next)
    (failed : c.persist h next = (d, some problem)) :
    Fails d (c.connectionSave h q) := by
  obtain ⟨p, given, proposed⟩ := Option.bind_eq_some_iff.mp proposed
  split_ifs at proposed with conflict
  obtain ⟨⟨r, next⟩, accepted, rfl⟩ := Option.map_eq_some_iff.mp proposed
  unfold connectionSave
  rw [given]
  dsimp only
  rw [if_neg conflict, toOption_ok accepted]
  dsimp only
  rw [failed]
  exact fails_failed d _ problem

theorem snapshot_fails {h : Host} {c d : Catalog} {q : CatalogRequest}
    {next : Profiles} {problem : Problem} (isSave : q.action = .connectionsSave)
    (proposed : c.proposesSnapshot h q = some next)
    (failed : c.persist h next = (d, some problem)) :
    Fails d (c.handleSnapshot h q) := by
  unfold proposesSnapshot at proposed
  split_ifs at proposed with conflict
  unfold handleSnapshot
  rw [isSave]
  dsimp only
  rw [if_neg conflict, toOption_ok proposed]
  dsimp only
  unfold connectionsSave
  dsimp only
  rw [failed]
  dsimp only
  have listing := quiet_list h d
  exact ⟨Option.some_ne_none _, listing.file, listing.profiles⟩

theorem handle_fails {h : Host} {c d : Catalog} {q : CatalogRequest}
    {next : Profiles} {problem : Problem}
    (proposed : c.proposes h q = some next)
    (failed : c.persist h next = (d, some problem)) :
    Fails d (c.handle h q) := by
  unfold proposes at proposed
  split_ifs at proposed with refused
  rw [not_or, not_not] at refused
  unfold handle
  rw [if_neg (not_not.mpr refused.1), if_neg refused.2]
  cases action : q.action <;> rw [action] at proposed
  case connectionsSave => exact snapshot_fails action proposed failed
  case connectionSave => exact save_fails proposed failed
  case connectionStart => exact toggle_fails proposed failed
  case connectionStop => exact toggle_fails proposed failed
  case connectionDelete => exact delete_fails proposed failed
  all_goals simp at proposed

/-! ## The result -/

/-- The store that an action writes is not of exactly the size limit. -/
def NotFull (c : Catalog) (action : Action) : Prop :=
  ∀ h next, c.proposal action = some (h, next) →
    next.text.bytes ≠ maxConfigSize

/-- The profiles in memory are those that would be loaded. -/
def Loads (c : Catalog) : Prop :=
  ∃ loaded, openCatalog c.file = .ok loaded ∧
    ∀ id, loaded.lookup id = c.profiles.lookup id

theorem step_loads {c d : Catalog} {action : Action} (upright : c.Upright)
    (notFull : c.NotFull action) (loads : c.Loads)
    (taken : step c action = some d) : d.Loads := by
  rcases step_cases upright.sound upright.empty taken with
    quiet | ⟨h, next, proposed, writes⟩
  · unfold Loads
    rw [quiet.file, quiet.profiles]
    exact loads
  · have below : next.text.bytes < maxConfigSize :=
      lt_of_le_of_ne writes.small (notFull h next proposed)
    have sound :=
      (sound_of_proposal upright.sound upright.empty proposed).1
    unfold Loads
    rw [writes.file, writes.profiles]
    exact openCatalog_fileText sound below

/-- The file and the profiles after a request whose write failed. -/
def Consistent (h : Host) (c : Catalog) (next : Profiles)
    (outcome : Catalog × CatalogResponse) : Prop :=
  outcome.2.error ≠ none ∧
    if Late h then
      outcome.1.file = some next.fileText ∧ outcome.1.profiles = next
    else outcome.1.file = c.file ∧ outcome.1.profiles = c.profiles

theorem handle_consistent {h : Host} {c : Catalog} {q : CatalogRequest}
    {next : Profiles} (proposed : c.proposes h q = some next)
    (fault : h.fault ≠ none) (small : next.text.bytes ≤ maxConfigSize) :
    Consistent h c next (c.handle h q) := by
  have persisted : ∃ problem, c.persist h next =
      (if Late h then c.stores next else c, some problem) := by
    unfold persist
    rw [if_neg (Nat.not_lt.mpr small)]
    cases broken : h.fault with
    | none => exact absurd broken fault
    | some step =>
        cases step <;> simp [Late, broken, writeConfig, replaceConfig, stores]
  obtain ⟨problem, failed⟩ := persisted
  obtain ⟨error, file, profiles⟩ := handle_fails proposed failed
  unfold Consistent
  rw [file, profiles]
  refine ⟨error, ?_⟩
  split_ifs
  · exact ⟨rfl, rfl⟩
  · exact ⟨rfl, rfl⟩

/--
As long as no store of exactly the size limit is written, the profiles in
memory are those that would be loaded from the file, after every step.  A
request whose write fails leaves both as they were, or changes both when the
write took effect, and reports the error.
-/
theorem stored_loads {c : Catalog}
    (reached : machine.ReachableBy NotFull c) :
    c.Loads ∧
      ∀ h q next, c.proposes h q = some next → h.fault ≠ none →
        next.text.bytes ≤ maxConfigSize →
        Consistent h c next (c.handle h q) := by
  constructor
  · apply Machine.ReachableBy.invariant (P := Loads) _ _ reached
    · rintro c rfl
      exact ⟨∅, rfl, fun _ => rfl⟩
    · intro c action d before loads notFull taken
      exact step_loads (upright_reachable before) notFull loads taken
  · intro h q next proposed fault small
    exact handle_consistent proposed fault small

/-! ## A store that fills its limit -/

/-- A connection whose server name has the length that is asked for. -/
def roomy (length : Nat) : Profile :=
  { id := "one".toList
    name := "one".toList
    kind := connectionKind
    config := { sampleConfig "192.0.2.2:443" with
      tls := { mode := "tls".toList
               serverName := List.replicate length 'a' } } }

/-- The store that holds one profile with its defaults. -/
def alone (p : Profile) : Profiles :=
  (∅ : Profiles).insert p.id { p with config := p.client.filled }

theorem bytes_escape (length : Nat) :
    Text.bytes ((List.replicate length 'a').flatMap Json.escape) = length := by
  have escaped : Json.escape 'a' = ['a'] := by decide
  have size : Char.utf8Size 'a' = 1 := by decide
  induction length with
  | zero => rfl
  | succ length ih =>
      rw [List.replicate_succ, List.flatMap_cons, Text.bytes_append, ih,
        escaped, Text.bytes_cons, Text.bytes_nil, size]
      omega

theorem longer_roomy (length : Nat) :
    Json.Longer length (CatalogFile.ofList (alone (roomy 0)).sorted).json
      (CatalogFile.ofList (alone (roomy length)).sorted).json := by
  have name : Json.Longer length (.str (roomy 0).config.tls.serverName)
      (.str (roomy length).config.tls.serverName) := by
    apply Json.longer_str
    simp only [roomy, bytes_escape, List.replicate_zero, List.flatMap_nil,
      Text.bytes_nil, Nat.zero_add]
  have settings : Json.Longer length (roomy 0).config.tls.json
      (roomy length).config.tls.json :=
    name.member SettingsField.serverName.name [_] _
  have config : Json.Longer length (roomy 0).client.filled.json
      (roomy length).client.filled.json :=
    settings.member ConfigField.tls.name [_, _, _, _] _
  have profile : Json.Longer length
      (Profile.json { roomy 0 with config := (roomy 0).client.filled })
      (Profile.json { roomy length with config := (roomy length).client.filled }) :=
    config.member ProfileField.config.label [_, _, _, _] _
  exact (profile.item [] []).member CatalogField.profiles.name [_] []

theorem bytes_roomy (length : Nat) :
    (alone (roomy length)).text.bytes =
      (alone (roomy 0)).text.bytes + length :=
  longer_roomy length .indent 0

theorem filled_roomy (length : Nat) :
    (roomy length).client.defaults = .ok (roomy length).client.filled := by
  have base : (roomy 0).client.defaults = .ok (roomy 0).client.filled := by
    decide +kernel
  exact Config.defaults_tls (roomy length).config.tls rfl base

/-- A server name of any length is accepted. -/
theorem validate_roomy (length : Nat) :
    validate calmHost ∅ [] (roomy length) =
      .ok { roomy length with config := (roomy length).client.filled } := by
  have accepted : ((validate calmHost ∅ [] (roomy 0)).toOption.isSome) =
      true := by
    decide +kernel
  obtain ⟨q, same⟩ := Option.isSome_iff_exists.mp accepted
  obtain ⟨belongs, config, usable, _⟩ := validate_ok.mp (toOption_ok same)
  have base := filled_roomy 0
  obtain rfl : config = (roomy 0).client.filled :=
    Except.ok.inj (usable.filled.symm.trans base)
  have valid := Config.validate_tls (roomy length).config.tls rfl
    (Config.defaults_defaults base) usable.valid
  refine validate_ok.mpr ⟨?_, (roomy length).client.filled, ?_, rfl⟩
  · exact ⟨belongs.id, belongs.name, belongs.room, belongs.kind, belongs.kept,
      belongs.relay, belongs.uses, belongs.few, belongs.enabled,
      belongs.proper, belongs.apart, belongs.others⟩
  · exact ⟨filled_roomy length, valid, usable.server, usable.bindable⟩

/-- The request to save a connection without opening it. -/
def saveOnly (p : Profile) : CatalogRequest :=
  { action := .connectionSave
    profile := some p
    expectedRevision := some [] }

theorem stored_loads_saved :
    ∃ c : Catalog, c.profiles.keys.length = 1 ∧ c.Loads := by
  have runs : ((step {} (.request calmHost (saveOnly (roomy 11)))).any fun c =>
      c.profiles.keys.length = 1) = true := by
    decide +kernel
  obtain ⟨c, taken, count⟩ := (Option.any_eq_true ..).mp runs
  have below : NotFull {} (.request calmHost (saveOnly (roomy 11))) := by
    have sized : ((proposal {} (.request calmHost (saveOnly (roomy 11)))).all
        fun proposed => proposed.2.text.bytes ≠ maxConfigSize) = true := by
      decide +kernel
    intro h next proposed
    rw [proposed] at sized
    simpa using sized
  have reached : machine.ReachableBy NotFull c :=
    .step (.start rfl) below taken
  exact ⟨c, by simpa using count, (stored_loads reached).1⟩

/-- A save that is accepted leaves the file of its store. -/
theorem file_saveOnly {p : Profile}
    (accepted : validate calmHost ∅ [] p =
      .ok { p with config := p.client.filled })
    (small : (alone p).text.bytes ≤ maxConfigSize) :
    ((({} : Catalog).handle calmHost (saveOnly p)).1).file =
      some (alone p).fileText := by
  have fresh : ({} : Catalog).conflicts (saveOnly p) p.id ≠ true := by
    simp [conflicts, saveOnly]
  have saved : ({} : Catalog).saveConnection calmHost p none =
      .ok ({ p with config := p.client.filled }, alone p) := by
    unfold saveConnection
    exact bind_eq_ok.mpr ⟨∅, rfl, bind_eq_ok.mpr ⟨_, accepted, rfl⟩⟩
  have written : ({} : Catalog).persist calmHost (alone p) =
      (({} : Catalog).stores (alone p), none) := by
    unfold persist
    rw [if_neg (Nat.not_lt.mpr small)]
    rfl
  have handled : ({} : Catalog).handle calmHost (saveOnly p) =
      listed calmHost (({} : Catalog).stores (alone p))
        { revision :=
            Profile.revision { p with config := p.client.filled } } := by
    show ({} : Catalog).connectionSave calmHost (saveOnly p) = _
    unfold connectionSave
    rw [show (saveOnly p).profile = some p from rfl]
    dsimp only
    rw [if_neg fresh, show (saveOnly p).relay = none from rfl, saved]
    dsimp only
    rw [written]
    rfl
  rw [handled]
  exact (quiet_listed calmHost _ _).file

/-- The profile whose server name fills the store to its limit. -/
def full : Profile :=
  roomy (maxConfigSize - (alone (roomy 0)).text.bytes)

theorem bytes_full : (alone full).text.bytes = maxConfigSize := by
  have small : (alone (roomy 0)).text.bytes ≤ maxConfigSize := by
    decide +kernel
  unfold full
  rw [bytes_roomy]
  exact Nat.add_sub_cancel' small

/-- The service that saved a store of exactly the size limit cannot start
again. -/
theorem stored_unreadable :
    ∃ c : Catalog, machine.Reachable c ∧
      ∀ loaded, openCatalog c.file ≠ .ok loaded := by
  have kept := file_saveOnly (validate_roomy _) bytes_full.le
  have taken : machine.step {} (.request calmHost (saveOnly full)) =
      some (({} : Catalog).handle calmHost (saveOnly full)).1 :=
    rfl
  refine ⟨_, .step (.start rfl) trivial taken, ?_⟩
  rw [show full = roomy _ from rfl, kept]
  exact openCatalog_full bytes_full

end Catalog

end Veil.Control

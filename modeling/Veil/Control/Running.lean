import Veil.Control.Stored

/-!
# Running connections stay in the catalog

A request that removes a profile writes the store first and stops the
connection afterwards.  When the write takes effect and reports an error all
the same, the connection is not stopped and escapes the catalog.  As long as
no such request removes a running connection, what runs is stored and listed, and
a deletion stops it.
-/

namespace Veil.Control

open Lib

/-! ## Deletions -/

/-- Removing a profile does not make the text of a store longer. -/
theorem bytes_text_erase (m : Profiles) (id : Text) :
    (Profiles.text (m.erase id)).bytes ≤ m.text.bytes := by
  have fewer : (Profiles.sorted (m.erase id)).Subperm m.sorted := by
    apply (sorted_perm _).subperm.trans
    apply List.Subperm.trans _ (sorted_perm m).symm.subperm
    exact ((List.kerase_sublist id m.entries).map _).subperm
  obtain ⟨between, same, within⟩ := fewer
  have items := Json.bytes_arr_le .indent (0 + 1)
    ⟨between.map Profile.json, same.map _, within.map _⟩
  unfold Profiles.text
  simp only [CatalogFile.json, CatalogFile.ofList, Json.listJson, Json.print,
    Json.printMembers, Text.bytes_cons, Text.bytes_append]
  omega

namespace Catalog

theorem small_reachable {c : Catalog} (reached : machine.Reachable c) :
    c.profiles.text.bytes ≤ maxConfigSize := by
  apply Machine.ReachableBy.invariant
    (P := fun c : Catalog => c.profiles.text.bytes ≤ maxConfigSize) _ _ reached
  · rintro c rfl
    decide +kernel
  · intro c action d before small _ taken
    have upright := upright_reachable before
    rcases step_cases upright.sound upright.empty taken with
      quiet | ⟨h, next, proposed, writes⟩
    · rw [quiet.profiles]
      exact small
    · rw [writes.profiles]
      exact writes.small

/-- A deletion of an ID with its revision. -/
structure Deletes (c : Catalog) (q : CatalogRequest) (id : Text) : Prop where
  version : q.version = 1
  action : q.action = .connectionDelete
  named : q.id = id
  revision : c.conflicts q id = false

/-- Nothing goes through a connection. -/
theorem unused_of_connects {c : Catalog} (h : Host) {p : Profile}
    (sound : Sound c.profiles) (stored : c.profiles.lookup p.id = some p)
    (kind : p.kind = connectionKind) : c.user h p = none := by
  rw [user, List.find?_eq_none]
  intro v listed uses
  obtain ⟨⟨key, v⟩, member, rfl⟩ := List.mem_map.mp listed
  have through : v.relayID = p.id := by simpa using uses
  have named : p.id ≠ [] := by
    intro blank
    have pattern := sound.pattern p.id p stored
    rw [blank] at pattern
    simp [profileID] at pattern
  obtain ⟨r, found, isRelay⟩ :=
    sound.uses key v (Host.mem_order.mp member) (through ▸ named)
  rw [through, stored] at found
  obtain rfl := Option.some.inj found
  exact relay_ne_connection (isRelay.symm.trans kind)

/-- A deletion whose write does not fail stops its connection. -/
theorem stops_of_deletes {c : Catalog} {h : Host} {q : CatalogRequest}
    {id : Text} (upright : c.Upright)
    (small : c.profiles.text.bytes ≤ maxConfigSize)
    (serving : c.closed = false) (connects : Connects c.profiles id)
    (deletes : c.Deletes q id) (fault : h.fault = none) :
    (c.handle h q).2.error = none ∧ ¬ (c.handle h q).1.Runs id := by
  obtain ⟨p, stored, kind⟩ := connects
  have same := upright.sound.keyed id p stored
  subst same
  have unused := unused_of_connects h upright.sound stored kind
  have fits : (Profiles.text (c.profiles.erase p.id)).bytes ≤ maxConfigSize :=
    (bytes_text_erase c.profiles p.id).trans small
  have written : c.persist h (c.profiles.erase p.id) =
      (c.stores (c.profiles.erase p.id), none) := by
    unfold persist
    rw [if_neg (Nat.not_lt.mpr fits), fault]
    rfl
  have handled : c.handle h q =
      listed h ((c.stores (c.profiles.erase p.id)).discard p.id) {} := by
    unfold handle
    rw [if_neg (not_not.mpr deletes.version), serving, deletes.action]
    dsimp only
    unfold changing
    rw [deletes.named, deletes.revision, stored]
    dsimp only
    unfold connectionDelete
    rw [unused]
    dsimp only
    rw [written]
    rfl
  rw [handled]
  refine ⟨rfl, fun runs => ?_⟩
  rcases (quiet_listed h _ _).runs p.id runs with before | ⟨r, found, _⟩
  · obtain ⟨e, found, _⟩ := before
    simp [discard] at found
  · have gone : ((c.stores (c.profiles.erase p.id)).discard p.id).profiles =
        c.profiles.erase p.id :=
      (quiet_stop _ p.id).profiles
    rw [gone, AList.lookup_erase] at found
    exact absurd found (Option.some_ne_none r).symm

/-! ## What runs -/

/-- No request whose write takes effect and fails all the same removes a
running connection. -/
def Spares (c : Catalog) : Action → Prop
  | .request h q =>
      Late h →
        match q.action with
        | .connectionDelete => ¬ c.Runs q.id
        | .connectionsSave => ∀ list ∈ requested q.config, ∀ id,
            c.Runs id → ∃ p ∈ list, p.id = id
        | _ => True
  | _ => True

theorem row_id (c : Catalog) (id : Text) (p : Profile) :
    (c.row id p).id = id := by
  unfold row
  dsimp only
  generalize (if p.kind = relayKind then none else (c.entry id).run) = run
  cases run <;> rfl

/-- Every stored profile is listed. -/
theorem listed_of_stored (h : Host) {c : Catalog} {id : Text} {p : Profile}
    (stored : c.profiles.lookup id = some p) :
    ∃ row ∈ (c.list h).2, row.id = id := by
  have listed : ⟨id, p⟩ ∈ h.order c.profiles := Host.mem_order.mpr stored
  refine ⟨row (c.list h).1 id p, ?_, row_id _ id p⟩
  exact (List.mem_insertionSort _).mpr (List.mem_map.mpr ⟨_, listed, rfl⟩)

/-- What a late write keeps of what runs. -/
theorem kept_of_spares {h : Host} {c : Catalog} {action : Action}
    {next : Profiles} (upright : c.Upright) (late : Late h)
    (spares : c.Spares action) (proposed : Proposed h c action next)
    {id : Text} (runs : c.Runs id) (stored : id ∈ c.profiles) : id ∈ next := by
  cases proposed with
  | saved _ _ accepted =>
      exact (added_of_saveConnection upright.sound accepted).kept.mem stored
  | toggled found accepted =>
      exact (added_of_toggled upright.sound found accepted).kept.mem stored
  | @deleted q p isDelete found _ =>
      have spared := spares late
      simp only [isDelete] at spared
      rw [AList.mem_erase, upright.sound.keyed q.id p found]
      exact ⟨fun same => spared (same ▸ runs), stored⟩
  | @snapshot q list _ isSave listed accepted =>
      have spared := spares late
      simp only [isSave] at spared
      obtain ⟨p, member, rfl⟩ := spared list listed id runs
      obtain ⟨_, config, _, located⟩ := accepted.settled.listed p member
      exact AList.lookup_isSome.mp (by simp [located])
  | migrated absent =>
      rw [upright.empty absent] at stored
      simp at stored

theorem connects_kept {m n : Profiles} (kinds : KeepsKinds m n) {id : Text}
    (connects : Connects m id) (kept : id ∈ n) : Connects n id := by
  obtain ⟨p, stored, kind⟩ := connects
  obtain ⟨q, found⟩ := Option.isSome_iff_exists.mp (AList.lookup_isSome.mpr kept)
  exact ⟨q, found, (kinds id p q stored found).trans kind⟩

/-- A step that spares what runs keeps running connections stored. -/
theorem step_connects {c d : Catalog} {action : Action} (upright : c.Upright)
    (spares : c.Spares action)
    (connects : ∀ id, c.Runs id → Connects c.profiles id)
    (taken : step c action = some d) {id : Text} (runs : d.Runs id) :
    Connects d.profiles id := by
  rcases step_cases upright.sound upright.empty taken with
    quiet | ⟨h, next, proposed, writes⟩
  · rw [quiet.profiles]
    rcases quiet.runs id runs with before | starts
    · exact connects id before
    · exact starts
  · rw [writes.profiles]
    rcases writes.runs id runs with starts | ⟨before, reason⟩
    · exact starts
    · have known := connects id before
      have stored : id ∈ c.profiles := by
        obtain ⟨p, found, _⟩ := known
        exact AList.lookup_isSome.mp (by simp [found])
      have kept : id ∈ next := by
        rcases reason with late | removed | kept
        · exact kept_of_spares upright late spares
            (proposed_of_proposal proposed) before stored
        · exact absurd stored removed
        · exact kept
      exact connects_kept
        (sound_of_proposal upright.sound upright.empty proposed).2 known kept

/--
As long as no write that fails after it took effect removes a running
connection, what runs is a stored connection.  It is listed, and a deletion
with its revision stops it.
-/
theorem running_stored {c : Catalog}
    (reached : machine.ReachableBy Spares c) {id : Text}
    (runs : c.Runs id) :
    Connects c.profiles id ∧ (∀ h, ∃ row ∈ (c.list h).2, row.id = id) ∧
      (c.closed = false → ∀ h q, h.fault = none → c.Deletes q id →
        (c.handle h q).2.error = none ∧ ¬ (c.handle h q).1.Runs id) := by
  have connects : ∀ id, c.Runs id → Connects c.profiles id := by
    apply Machine.ReachableBy.invariant
      (P := fun c => ∀ id, c.Runs id → Connects c.profiles id) _ _ reached
    · rintro c rfl id ⟨e, found, _⟩
      simp at found
    · intro c action d before connects spares taken id runs
      exact step_connects (upright_reachable before) spares connects taken runs
  have known := connects id runs
  refine ⟨known, ?_, ?_⟩
  · obtain ⟨p, stored, _⟩ := known
    exact fun h => listed_of_stored h stored
  · intro serving h q fault deletes
    exact stops_of_deletes (upright_reachable reached)
      (small_reachable reached.reachable) serving known deletes fault

/-- A connection of an ID runs, as a test. -/
def runsNow (c : Catalog) (id : Text) : Bool :=
  (c.entries.lookup id).any fun e => e.run.isSome

theorem runs_of_runsNow {c : Catalog} {id : Text}
    (now : c.runsNow id = true) : c.Runs id := by
  obtain ⟨e, found, running⟩ := (Option.any_eq_true ..).mp now
  exact ⟨e, found, Option.isSome_iff_ne_none.mp running⟩

/-- A connection is saved and opened. -/
def openOne : Action :=
  .request calmHost
    { action := .connectionSave
      profile := some (sampleConnection "one".toList "127.0.0.1:1080".toList)
      apply := true
      expectedRevision := some [] }

theorem running_stored_opened :
    ∃ c : Catalog, c.Runs "one".toList ∧ Connects c.profiles "one".toList := by
  have opens : ((step {} openOne).any fun c => c.runsNow "one".toList) =
      true := by
    decide +kernel
  obtain ⟨c, taken, now⟩ := (Option.any_eq_true ..).mp opens
  have spared : Spares {} openOne := fun _ => trivial
  have reached : machine.ReachableBy Spares c :=
    .step (.start rfl) spared taken
  have runs := runs_of_runsNow now
  exact ⟨c, runs, (running_stored reached runs).1⟩

/-- The directory cannot be synced after the store was replaced. -/
def lateHost : Host :=
  { calmHost with fault := some .syncDirectory }

/-- The profile that `openOne` stores. -/
def storedOne : Profile :=
  let p := sampleConnection "one".toList "127.0.0.1:1080".toList
  { p with config := p.client.filled }

def deleteOne : Action :=
  .request lateHost
    { action := .connectionDelete
      id := "one".toList
      expectedRevision := some storedOne.revision }

/-- A deletion whose write is late leaves a connection running that is no
longer stored. -/
theorem running_escapes :
    ∃ c : Catalog, machine.Reachable c ∧
      ∃ id, c.Runs id ∧ ¬ Connects c.profiles id := by
  have runs : ((machine.run {} [openOne, deleteOne]).any fun c =>
      c.runsNow "one".toList && (c.profiles.lookup "one".toList).isNone) =
      true := by
    decide +kernel
  obtain ⟨c, ran, escaped⟩ := (Option.any_eq_true ..).mp runs
  rw [Bool.and_eq_true, Option.isNone_iff_eq_none] at escaped
  refine ⟨c, Machine.run_reachable (.start rfl) ran, "one".toList,
    runs_of_runsNow escaped.1, ?_⟩
  rintro ⟨p, stored, _⟩
  rw [escaped.2] at stored
  exact absurd stored (Option.some_ne_none p).symm

end Catalog

end Veil.Control

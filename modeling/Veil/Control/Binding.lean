import Veil.Control.Relay
import Veil.Lib.Endpoint

/-!
# Saving a connection that runs

Validation binds every listener of a profile for a moment, save those that the
running connection owns.  It tells them by comparing the texts of the profile
with the endpoints that the sockets report.  This file proves that a
connection that runs as it is stored can be saved under another name and
started again exactly when its listeners are spelled as the sockets report
them, as far as the rest of the profile is accepted as it is stored.
-/

namespace Veil.Control

open Lib

theorem localAddress_eq (listen : Text) :
    localAddress listen = (endpoint listen).isSome := by
  unfold localAddress endpoint
  cases splitHostPort listen with
  | none => rfl
  | some pair =>
      obtain ⟨host, port⟩ := pair
      dsimp only
      cases parseIP host with
      | none => rfl
      | some ip =>
          cases atoi port with
          | none => rfl
          | some number =>
              dsimp only
              split_ifs with range
              · simpa using range
              · simpa using range

/-- The same machine, on which opening a connection turns out otherwise. -/
def Host.opening (h : Host)
    (opens : Profile → Option Config → Result (List Inlet)) : Host :=
  { h with opens }

namespace Catalog

/-! ## Sockets -/

/-- The endpoints of the listeners of running connections. -/
def listening (c : Catalog) : List Text :=
  c.entries.entries.flatMap fun entry =>
    (entry.2.run.getD []).map (·.listen)

/-- An endpoint cannot be bound exactly when it is held by a listener of a
connection or by another one of the daemon. -/
def Binds (h : Host) (c : Catalog) (others : List Text) : Prop :=
  ∀ listen, h.probe listen ≠ none ↔
    ∃ socket ∈ c.listening ++ others, holds socket listen = true

/-- What is shown of a listener that was asked for and is open. -/
structure Opened (asked shown : Inlet) : Prop where
  protocol : shown.protocol = asked.protocol
  listen : localAddress asked.listen = true →
    shown.listen = reported asked.listen

/-- A connection runs exactly as its profile is stored. -/
structure RunsAs (c : Catalog) (p : Profile) (e : Entry) : Prop where
  serving : c.closed = false
  stored : c.profiles.lookup p.id = some p
  enabled : p.enabled = true
  entry : c.entries.lookup p.id = some e
  listeners : ∃ inlets, e.run = some inlets ∧
    List.Forall₂ Opened p.listeners inlets
  active : e.active = runtimeRevision c.profiles p
  transport : e.transport = transportRevision c.profiles p

theorem mem_listening {c : Catalog} {id : Text} {e : Entry} {inlets : List Inlet}
    {a : Inlet} (found : c.entries.lookup id = some e)
    (runs : e.run = some inlets) (listed : a ∈ inlets) :
    a.listen ∈ c.listening := by
  apply List.mem_flatMap.mpr
  refine ⟨⟨id, e⟩, AList.mem_lookup_iff.mp found, ?_⟩
  rw [runs]
  exact List.mem_map.mpr ⟨a, listed, rfl⟩

theorem Opened.members {asked shown : List Inlet}
    (opened : List.Forall₂ Opened asked shown) :
    (∀ a ∈ asked, ∃ b ∈ shown, Opened a b) ∧
      ∀ b ∈ shown, ∃ a ∈ asked, Opened a b := by
  induction opened with
  | nil => simp
  | @cons a b asked shown first _ ih =>
      constructor
      · rintro x (_ | ⟨_, later⟩)
        · exact ⟨b, List.mem_cons_self, first⟩
        · obtain ⟨y, member, shows⟩ := ih.1 x later
          exact ⟨y, List.mem_cons_of_mem b member, shows⟩
      · rintro y (_ | ⟨_, later⟩)
        · exact ⟨a, List.mem_cons_self, first⟩
        · obtain ⟨x, member, shows⟩ := ih.2 y later
          exact ⟨x, List.mem_cons_of_mem a member, shows⟩

/-- Where addresses are local, the listeners of a connection are owned or can
be bound exactly when they are spelled as they are reported. -/
theorem bindable_iff {h : Host} {c : Catalog} {others : List Text} {id : Text}
    {e : Entry} {asked inlets : List Inlet} (binds : Binds h c others)
    (found : c.entries.lookup id = some e) (runs : e.run = some inlets)
    (opened : List.Forall₂ Opened asked inlets)
    (proper : ∀ a ∈ asked, localAddress a.listen = true) :
    (∀ a ∈ asked, (∃ b ∈ inlets, a.listen = b.listen) ∨
      h.probe a.listen = none) ↔
      ∀ a ∈ asked, reported a.listen = a.listen := by
  have shown {a : Inlet} (listed : a ∈ asked) :
      ∃ b ∈ inlets, b.listen = reported a.listen := by
    obtain ⟨b, member, shows⟩ := (Opened.members opened).1 a listed
    exact ⟨b, member, shows.listen (proper a listed)⟩
  constructor
  · intro each a listed
    rcases each a listed with ⟨b, member, same⟩ | free
    · obtain ⟨asks, isAsked, shows⟩ := (Opened.members opened).2 b member
      have spelled := shows.listen (proper asks isAsked)
      rw [same, spelled]
      exact reported_reported asks.listen
    · obtain ⟨b, member, same⟩ := shown listed
      have fixed := proper a listed
      rw [localAddress_eq] at fixed
      -- the own listener holds the endpoint against the probe
      exfalso
      apply (binds a.listen).mpr _ free
      refine ⟨b.listen, ?_, same ▸ holds_reported fixed⟩
      exact List.mem_append_left _ (mem_listening found runs member)
  · intro spelled a listed
    obtain ⟨b, member, same⟩ := shown listed
    exact .inl ⟨b, member, (same.trans (spelled a listed)).symm⟩

/-! ## Requests on a connection that runs -/

/-- The profile is saved under another name and applied. -/
def renames (p : Profile) (name : Text) : CatalogRequest where
  action := .connectionSave
  profile := some { p with name }
  apply := true
  expectedRevision := some p.revision

def starts (p : Profile) : CatalogRequest where
  action := .connectionStart
  id := p.id
  expectedRevision := some p.revision

/-- The run of a connection stays in place: after the request it runs, even if
no connection can be opened. -/
def Stays (h : Host) (c : Catalog) (q : CatalogRequest) (id : Text) : Prop :=
  ∀ opens, (c.handle (h.opening opens) q).1.Runs id

/-- A request that is to store a profile passes validation and leaves the run
of the profile in place. -/
structure Repeats (h : Host) (c : Catalog) (q : CatalogRequest) (p : Profile) :
    Prop where
  valid : ∃ r, validate h c.profiles (c.owned p.id) p = .ok r
  stays : c.Stays h q p.id

/-- The machine accepts the configuration of a profile, and unless the profile
cannot be written, it is the one with which it runs. -/
structure Settled (h : Host) (c : Catalog) (p : Profile) (config : Config) :
    Prop where
  filled : p.client.defaults = .ok config
  valid : config.validate h.build = .ok ()
  server : serverPort config.server = true
  same : h.fault = none →
    (Profiles.text (c.profiles.insert p.id { p with config })).bytes ≤
      maxConfigSize →
    runtimeRevision c.profiles { p with config } =
        runtimeRevision c.profiles p ∨
      transportRevision c.profiles { p with config } =
        transportRevision c.profiles p

/-- A profile that runs can be stored again: its listeners are spelled as
their sockets report them, and the rest of it is accepted as it is stored. -/
structure Repeatable (h : Host) (c : Catalog) (p : Profile) : Prop where
  spelled : ∀ a ∈ p.listeners,
    localAddress a.listen = true ∧ reported a.listen = a.listen
  protocols : ∀ a ∈ p.listeners, proxyProtocol a.protocol = true
  name : p.name ≠ [] ∧ p.name.bytes ≤ 120
  config : ∃ config, Settled h c p config

/-! ## Validation -/

section

variable {h : Host} {c : Catalog} {others : List Text} {p : Profile} {e : Entry}

theorem RunsAs.kind (sound : Sound c.profiles) (runs : RunsAs c p e) :
    p.kind = connectionKind := by
  apply (sound.kind p.id p runs.stored).resolve_right
  intro relay
  have off := (sound.bare p.id p runs.stored relay).2.2
  rw [runs.enabled] at off
  exact Bool.noConfusion off

theorem RunsAs.relayID (sound : Sound c.profiles) (runs : RunsAs c p e) :
    p.relayID ≠ p.id := by
  intro same
  have named : p.relayID ≠ [] := by
    rw [same]
    exact id_ne_nil sound runs.stored
  obtain ⟨r, found, relay⟩ := sound.uses p.id p runs.stored named
  rw [same, runs.stored] at found
  obtain rfl := Option.some.inj found
  rw [runs.kind sound] at relay
  exact relay_ne_connection relay.symm

/-- What belongs to the store under its name belongs to it under another. -/
theorem RunsAs.belongs_iff (sound : Sound c.profiles) (runs : RunsAs c p e)
    (name : Text) :
    Belongs c.profiles { p with name } ↔
      (name ≠ [] ∧ name.bytes ≤ 120) ∧
      ∀ a ∈ p.listeners,
        proxyProtocol a.protocol = true ∧ localAddress a.listen = true := by
  constructor
  · exact fun belongs => ⟨belongs.name, belongs.proper⟩
  · rintro ⟨short, proper⟩
    have stored := runs.stored
    exact
      { id := sound.pattern p.id p stored
        name := short
        room := .inr (AList.lookup_isSome.mp (by simp [stored]))
        kind := sound.kind p.id p stored
        kept := fun old found => by
          rw [stored] at found
          rw [← Option.some.inj found]
        relay := sound.bare p.id p stored
        uses := sound.uses p.id p stored
        few := sound.few p.id p stored
        enabled := sound.enabled p.id p stored
        proper := proper
        apart := sound.apart p.id p stored
        others := fun a listens id other found distinct b heard =>
          sound.disjoint p.id p id other stored found distinct.symm a listens b
            heard }

theorem RunsAs.owned (runs : RunsAs c p e) :
    ∃ inlets, c.owned p.id = inlets ∧ e.run = some inlets ∧
      List.Forall₂ Opened p.listeners inlets := by
  obtain ⟨inlets, isRun, opened⟩ := runs.listeners
  refine ⟨inlets, ?_, isRun, opened⟩
  simp [Catalog.owned, runs.entry, isRun]

/-- Under any name the profile passes validation exactly when it is spelled as
its sockets report and accepted otherwise. -/
theorem RunsAs.validate_iff (sound : Sound c.profiles) (runs : RunsAs c p e)
    (binds : Binds h c others) {name : Text} {r : Profile} :
    validate h c.profiles (c.owned p.id) { p with name } = .ok r ↔
      (∀ a ∈ p.listeners,
        localAddress a.listen = true ∧ reported a.listen = a.listen) ∧
      (∀ a ∈ p.listeners, proxyProtocol a.protocol = true) ∧
      (name ≠ [] ∧ name.bytes ≤ 120) ∧
      ∃ config, (p.client.defaults = .ok config ∧
        config.validate h.build = .ok () ∧ serverPort config.server = true) ∧
        r = { p with name, config } := by
  obtain ⟨inlets, isOwned, isRun, opened⟩ := runs.owned
  rw [isOwned, validate_ok, runs.belongs_iff sound]
  constructor
  · rintro ⟨⟨short, proper⟩, config, usable, made⟩
    have spelled := (bindable_iff binds runs.entry isRun opened
      fun a listed => (proper a listed).2).mp usable.bindable
    exact ⟨fun a listed => ⟨(proper a listed).2, spelled a listed⟩,
      fun a listed => (proper a listed).1, short, config,
      ⟨usable.filled, usable.valid, usable.server⟩, made⟩
  · rintro ⟨spelled, protocols, short, config, ⟨filled, valid, server⟩, made⟩
    have bindable := (bindable_iff binds runs.entry isRun opened
      fun a listed => (spelled a listed).1).mpr
        fun a listed => (spelled a listed).2
    exact ⟨⟨short, fun a listed => ⟨protocols a listed, (spelled a listed).1⟩⟩,
      config, ⟨filled, valid, server, bindable⟩, made⟩

end

/-! ## Storing and applying -/

/-- What a request does with a profile that passed validation. -/
def storing (h : Host) (c : Catalog) (r : Profile) : Catalog :=
  match c.persist h (c.profiles.insert r.id r) with
  | (c, some _) => c
  | (c, none) => (applied h c r {}).1

section

variable {h : Host} {c : Catalog} {p r : Profile} {e : Entry}

theorem runs_iff_running {id : Text} : c.Runs id ↔ (c.running id).isSome := by
  unfold running entry
  constructor
  · rintro ⟨e, found, runs⟩
    simpa [found, Option.isSome_iff_ne_none] using runs
  · intro runs
    cases found : c.entries.lookup id with
    | none => simp [found] at runs
    | some e =>
        refine ⟨e, found, ?_⟩
        simpa [found, Option.isSome_iff_ne_none] using runs

/-- An enabled connection that runs goes on running whatever opening it would
give, unless it is to be opened again. -/
theorem outcome_opening {v : Profile} (runs : (c.running v.id).isSome) :
    (∀ opens, (c.outcome (h.opening opens) v).isSome) ↔
      c.way v ≠ .restart := by
  constructor
  · intro each restart
    have closed := each fun _ _ => fail ""
    have fails : c.fails (h.opening fun _ _ => fail "") v = true := by
      unfold fails
      rw [restart]
      rfl
    unfold outcome at closed
    rw [restart, fails] at closed
    exact Bool.noConfusion closed
  · intro other opens
    unfold outcome
    cases way : c.way v with
    | current => exact runs
    | relisten =>
        cases c.fails (h.opening opens) v with
        | true => exact runs
        | false => rfl
    | restart => exact absurd way other

theorem way_ne_restart {v : Profile} (runs : (c.entry v.id).run.isSome) :
    c.way v ≠ .restart ↔
      (c.entry v.id).active = runtimeRevision c.profiles v ∨
        (c.entry v.id).transport = transportRevision c.profiles v := by
  have told := way_spec c v
  dsimp only at told
  cases way : c.way v with
  | current =>
      simp only [way] at told
      exact iff_of_true (by simp) (.inl told.2)
  | relisten =>
      simp only [way] at told
      exact iff_of_true (by simp) (.inr told.2.2)
  | restart =>
      simp only [way] at told
      apply iff_of_false (by simp)
      rintro (same | kept)
      · exact told.1 ⟨runs, same⟩
      · exact told.2 ⟨runs, kept⟩

/-- The relay of a profile is found as before once another one is stored. -/
theorem revisions_insert {m : Profiles} {id : Text} {q v : Profile}
    (apart : v.relayID ≠ id) :
    runtimeRevision (m.insert id q) v = runtimeRevision m v ∧
      transportRevision (m.insert id q) v = transportRevision m v := by
  unfold transportRevision runtimeRevision
  dsimp only
  rw [AList.lookup_insert_ne apart]
  exact ⟨rfl, rfl⟩

/-- Names play no part in revisions. -/
theorem revisions_name (m : Profiles) (v : Profile) (name : Text) :
    runtimeRevision m { v with name } = runtimeRevision m v ∧
      transportRevision m { v with name } = transportRevision m v :=
  ⟨rfl, rfl⟩

/-- A connection that is applied runs as told by the way it is applied. -/
theorem running_applied {v : Profile} (direct : v.kind ≠ relayKind)
    (enabled : v.enabled = true)
    (relay : v.relayID ≠ [] → c.profiles.lookup v.relayID ≠ none) :
    (applied h c v {}).1.running v.id = c.outcome h v := by
  have unfolded : c.apply h v = applyConnection h c v := by
    unfold apply
    rw [applyWithin, if_neg direct]
  have listing := running_of_leaves
    (leaves_listed h (c.apply h v).1 {} v.id)
  rw [← (applyConnection_spec enabled relay).2, ← unfolded, ← listing]
  rfl

/-- A connection that runs goes on running when it is applied, unless both of
its revisions change. -/
theorem applied_stays_iff {v : Profile} (direct : v.kind ≠ relayKind)
    (enabled : v.enabled = true)
    (relay : v.relayID ≠ [] → c.profiles.lookup v.relayID ≠ none)
    (runs : (c.entry v.id).run.isSome) :
    (∀ opens, (applied (h.opening opens) c v {}).1.Runs v.id) ↔
      (c.entry v.id).active = runtimeRevision c.profiles v ∨
        (c.entry v.id).transport = transportRevision c.profiles v := by
  have running : (c.running v.id).isSome := by
    unfold Catalog.running
    rw [Option.isSome_map]
    exact runs
  rw [← way_ne_restart runs, ← outcome_opening (h := h) running]
  simp only [runs_iff_running, running_applied direct enabled relay]

/-- When a store is not written, everything runs as before. -/
theorem runs_of_unwritten {problem : Problem} {id : Text}
    (refused : (c.persist h (c.profiles.insert r.id r)).2 = some problem)
    (runs : c.Runs id) : (c.storing h r).Runs id := by
  have entries := persist_entries h c (c.profiles.insert r.id r)
  obtain ⟨e, found, isRun⟩ := runs
  unfold storing
  rcases outcome : c.persist h (c.profiles.insert r.id r) with ⟨d, result⟩
  rw [outcome] at refused entries
  obtain rfl := refused
  refine ⟨e, ?_, isRun⟩
  show d.entries.lookup id = some e
  rw [entries]
  exact found

theorem storing_of_written
    (writes : c.persist h (c.profiles.insert r.id r) =
      (c.stores (c.profiles.insert r.id r), none)) :
    c.storing h r =
      (applied h (c.stores (c.profiles.insert r.id r)) r {}).1 := by
  unfold storing
  rw [writes]

/-- A connection that runs as it is stored goes on running when it is stored
again, unless it is written and its revisions change. -/
theorem RunsAs.stays_iff (sound : Sound c.profiles) (runs : RunsAs c p e)
    (own : r.id = p.id) (kind : r.kind = p.kind)
    (enabled : r.enabled = p.enabled) (relayID : r.relayID = p.relayID) :
    (∀ opens, (c.storing (h.opening opens) r).Runs p.id) ↔
      (h.fault = none →
        (Profiles.text (c.profiles.insert r.id r)).bytes ≤ maxConfigSize →
        runtimeRevision c.profiles r = runtimeRevision c.profiles p ∨
          transportRevision c.profiles r = transportRevision c.profiles p) := by
  obtain ⟨inlets, isRun, _⟩ := runs.listeners
  have apart : r.relayID ≠ r.id := by
    rw [own, relayID]
    exact runs.relayID sound
  rcases persist_written h c (c.profiles.insert r.id r) with
    ⟨works, small, writes⟩ | ⟨fails, problem, refused⟩
  · have direct : r.kind ≠ relayKind := by
      rw [kind, runs.kind sound]
      exact relay_ne_connection.symm
    have present : r.relayID ≠ [] →
        (c.stores (c.profiles.insert r.id r)).profiles.lookup r.relayID ≠
          none := by
      intro named
      obtain ⟨v, found, _⟩ := sound.uses p.id p runs.stored (relayID ▸ named)
      have kept : (c.profiles.insert r.id r).lookup r.relayID =
          c.profiles.lookup r.relayID :=
        AList.lookup_insert_ne apart
      rw [relayID] at kept ⊢
      exact fun absent => nomatch found.symm.trans (kept.symm.trans absent)
    have entry : (c.stores (c.profiles.insert r.id r)).entry r.id = e := by
      unfold Catalog.entry stores
      rw [own, runs.entry]
      rfl
    have asRun :
        ((c.stores (c.profiles.insert r.id r)).entry r.id).run.isSome := by
      rw [entry, isRun]
      rfl
    have stays := applied_stays_iff (h := h) direct (enabled.trans runs.enabled)
      present asRun
    have stored (opens) := storing_of_written (h := h.opening opens)
      (c := c) (r := r) writes
    obtain ⟨runtime, transport⟩ := revisions_insert (q := r) (m := c.profiles)
      apart
    simp only [stored, ← own]
    rw [stays, entry, runs.active, runs.transport]
    show _ = runtimeRevision (c.profiles.insert r.id r) r ∨
      _ = transportRevision (c.profiles.insert r.id r) r ↔ _
    rw [runtime, transport]
    constructor
    · exact fun kept _ _ => kept.imp Eq.symm Eq.symm
    · exact fun kept => (kept works small).imp Eq.symm Eq.symm
  · apply iff_of_true
    · intro opens
      apply runs_of_unwritten (h := h.opening opens) refused
      exact ⟨e, runs.entry, by simp [isRun]⟩
    · exact fun works small => absurd ⟨works, small⟩ fails

end

/-! ## The requests store the profile -/

section

variable {h : Host} {c : Catalog} {p r : Profile} {e : Entry}

theorem RunsAs.unconflicting (runs : RunsAs c p e) {q : CatalogRequest}
    (expected : q.expectedRevision = some p.revision) :
    c.conflicts q p.id = false := by
  unfold conflicts
  rw [runs.stored, expected]
  exact decide_eq_false (not_not.mpr rfl)

/-- A request that saves one profile and applies it. -/
structure Saves (c : Catalog) (q : CatalogRequest) (p : Profile) : Prop where
  version : q.version = 1
  save : q.action = .connectionSave
  given : q.profile = some p
  alone : q.relay = none
  applies : q.apply = true
  current : c.conflicts q p.id = false

theorem Saves.handle {q : CatalogRequest} (saves : Saves c q p)
    (serving : c.closed = false)
    (valid : validate h c.profiles (c.owned p.id) p = .ok r) :
    (c.handle h q).1 = c.storing h r := by
  have accepted : c.saveConnection h p none =
      .ok (r, c.profiles.insert r.id r) :=
    bind_eq_ok.mpr ⟨c.profiles, rfl, bind_eq_ok.mpr ⟨r, valid, rfl⟩⟩
  unfold Catalog.handle
  simp only [saves.version, serving, saves.save]
  unfold connectionSave
  simp only [ne_eq, not_true_eq_false, if_false, Bool.false_eq_true,
    saves.given, saves.current, saves.alone, accepted]
  unfold storing
  rcases c.persist h (c.profiles.insert r.id r) with ⟨d, _ | problem⟩
  · simp only [saves.applies, if_true]
    rfl
  · rfl

theorem RunsAs.handle_renames (runs : RunsAs c p e) {name : Text}
    (valid : validate h c.profiles (c.owned p.id) { p with name } = .ok r) :
    (c.handle h (renames p name)).1 = c.storing h r := by
  have saves : Saves c (renames p name) { p with name } :=
    { version := rfl
      save := rfl
      given := rfl
      alone := rfl
      applies := rfl
      current := runs.unconflicting rfl }
  exact saves.handle runs.serving valid

theorem RunsAs.handle_starts (sound : Sound c.profiles) (runs : RunsAs c p e)
    (valid : validate h c.profiles (c.owned p.id) p = .ok r) :
    (c.handle h (starts p)).1 = c.storing h r := by
  have current := runs.unconflicting (q := starts p) rfl
  have same : { p with enabled := true } = p := by
    rw [← runs.enabled]
  have accepted : c.toggled h p true = .ok r := by
    unfold toggled
    rw [if_pos rfl, same]
    exact valid
  have handled : c.handle h (starts p) =
      c.changing (starts p) fun p => c.connectionToggle h p true := by
    unfold handle
    rw [runs.serving]
    rfl
  rw [handled]
  unfold changing
  dsimp only [starts] at current ⊢
  simp only [current, Bool.false_eq_true, if_false, runs.stored]
  unfold connectionToggle
  rw [if_neg (not_not.mpr (runs.kind sound)), accepted]
  dsimp only
  unfold storing
  rcases c.persist h (c.profiles.insert r.id r) with ⟨d, _ | problem⟩
  · rfl
  · rfl

theorem validate_opening {m : Profiles} {owned : List Inlet} (opens)
    (valid : validate h m owned p = .ok r) :
    validate (h.opening opens) m owned p = .ok r := by
  obtain ⟨belongs, config, usable, made⟩ := validate_ok.mp valid
  exact validate_ok.mpr ⟨belongs, config,
    ⟨usable.filled, usable.valid, usable.server, usable.bindable⟩, made⟩

/-- A request that stores the profile under some name, once it is valid,
passes and leaves the run in place when the profile can be stored again. -/
theorem RunsAs.repeats_iff {others : List Text} {q : CatalogRequest}
    {name : Text} (sound : Sound c.profiles) (runs : RunsAs c p e)
    (binds : Binds h c others)
    (stores : ∀ w r,
      validate w c.profiles (c.owned p.id) { p with name } = .ok r →
        (c.handle w q).1 = c.storing w r) :
    Repeats h c q { p with name } ↔ Repeatable h c { p with name } := by
  obtain ⟨runtime, transport⟩ := revisions_name c.profiles p name
  have stays_iff (config : Config) :=
    runs.stays_iff (h := h) (r := { p with name, config }) sound rfl rfl rfl rfl
  rw [← runtime, ← transport] at stays_iff
  constructor
  · rintro ⟨⟨r, valid⟩, stays⟩
    obtain ⟨spelled, protocols, short, config, ⟨filled, works, server⟩, rfl⟩ :=
      (runs.validate_iff sound binds).mp valid
    have stored (opens) := stores _ _ (validate_opening opens valid)
    unfold Stays at stays
    simp only [stored] at stays
    exact ⟨spelled, protocols, short, config, filled, works, server,
      (stays_iff config).mp stays⟩
  · rintro ⟨spelled, protocols, short, config, settled⟩
    have valid := (runs.validate_iff sound binds).mpr ⟨spelled, protocols,
      short, config, ⟨settled.filled, settled.valid, settled.server⟩, rfl⟩
    refine ⟨⟨_, valid⟩, fun opens => ?_⟩
    rw [stores _ _ (validate_opening opens valid)]
    exact (stays_iff config).mpr settled.same opens

/--
A connection that runs exactly as it is stored can be saved under another name
and started again, with its run left in place, if and only if its listeners
are spelled as their sockets report them, and it is accepted under both names
with the configuration with which it is stored.
-/
theorem saved_again {others : List Text} (reached : machine.Reachable c)
    (runs : RunsAs c p e) (binds : Binds h c others) (name : Text) :
    Repeats h c (renames p name) { p with name } ∧ Repeats h c (starts p) p ↔
      Repeatable h c { p with name } ∧ Repeatable h c p := by
  have sound := (upright_reachable reached).sound
  have saves := runs.repeats_iff (q := renames p name) sound binds
    fun w r valid => runs.handle_renames valid
  have starts : Repeats h c (starts p) p ↔ Repeatable h c p :=
    @RunsAs.repeats_iff h c p e others (starts p) p.name sound runs binds
      fun w r valid => runs.handle_starts sound valid
  exact and_congr saves starts

/-! ## Connections that are saved and opened -/

/-- An enabled connection that does not run and can be opened. -/
structure Opens (h : Host) (c : Catalog) (v : Profile) (inlets : List Inlet) :
    Prop where
  direct : v.kind ≠ relayKind
  enabled : v.enabled = true
  relay : v.relayID ≠ [] → c.profiles.lookup v.relayID ≠ none
  stopped : (c.entry v.id).run = none
  opens : h.opens v (c.relayConfig v) = .ok inlets

theorem Opens.applied {v : Profile} {inlets : List Inlet}
    (opens : Opens h c v inlets) :
    (applied h c v {}).1.closed = c.closed ∧
      ∃ e, (applied h c v {}).1.entries.lookup v.id = some e ∧
        e.run = some inlets ∧ e.active = runtimeRevision c.profiles v ∧
        e.transport = transportRevision c.profiles v := by
  have present : ¬ (v.relayID ≠ [] ∧ c.profiles.lookup v.relayID = none) :=
    fun ⟨named, absent⟩ => opens.relay named absent
  have works := opens.opens
  unfold relayConfig at works
  have unfolded : c.apply h v =
      openConnection h ((c.update v.id id).halted v.id) v := by
    have stopped : ((c.update v.id id).entry v.id).run = none := by
      rw [entry_update]
      exact opens.stopped
    unfold apply
    rw [applyWithin, if_neg opens.direct]
    unfold applyConnection
    dsimp only
    rw [stopped, if_neg (by simp), if_neg (by simp), if_pos opens.enabled]
    rfl
  have profiles : ((c.update v.id id).halted v.id).profiles = c.profiles := by
    rw [halted_profiles, update_profiles]
  have closed : ((c.update v.id id).halted v.id).closed = c.closed := by
    unfold halted stop
    rw [closed_update, closed_update, closed_update]
  generalize (c.update v.id id).halted v.id = d at unfolded profiles closed
  obtain ⟨change, opened, changed⟩ : ∃ change : Entry → Entry,
      (c.apply h v).1 = d.update v.id change ∧ ∀ e,
        (change e).run = some inlets ∧
        (change e).active = runtimeRevision c.profiles v ∧
        (change e).transport = transportRevision c.profiles v := by
    rw [unfolded]
    unfold openConnection
    dsimp only
    rw [profiles, if_neg present, works]
    exact ⟨_, rfl, fun e => ⟨rfl, rfl, rfl⟩⟩
  have located : (c.apply h v).1.entries.lookup v.id =
      some (change (d.entry v.id)) := by
    rw [opened, lookup_update, if_pos rfl]
  constructor
  · show ((c.apply h v).1.list h).1.closed = c.closed
    rw [closed_list, opened, closed_update, closed]
  · have listing := leaves_listed h (c.apply h v).1 {} v.id
    exact ⟨_, listing.kept _ located, changed _⟩

/-- A connection that is saved and opened runs as it is stored, where sockets
report their endpoints. -/
theorem runsAs_saved {q : CatalogRequest} {p r : Profile} {inlets : List Inlet}
    (sound : Sound c.profiles) (serving : c.closed = false) (saves : Saves c q p)
    (valid : validate h c.profiles (c.owned p.id) p = .ok r)
    (opens : Opens h (c.stores (c.profiles.insert r.id r)) r inlets)
    (shown : List.Forall₂ Opened r.listeners inlets)
    (writes : c.persist h (c.profiles.insert r.id r) =
      (c.stores (c.profiles.insert r.id r), none)) :
    ∃ e, RunsAs (c.handle h q).1 r e := by
  have accepted : c.saveConnection h p none =
      .ok (r, c.profiles.insert r.id r) :=
    bind_eq_ok.mpr ⟨c.profiles, rfl, bind_eq_ok.mpr ⟨r, valid, rfl⟩⟩
  have added := added_of_saveConnection sound accepted
  have kept := (quiet_applied (h := h)
    (c := c.stores (c.profiles.insert r.id r)) added.sound added.stored
    {}).profiles
  obtain ⟨closed, e, found, isRun, active, transport⟩ := opens.applied
  rw [saves.handle serving valid, storing_of_written writes]
  refine ⟨e, ?_⟩
  constructor
  · exact closed.trans serving
  · rw [kept]
    exact added.stored
  · exact opens.enabled
  · exact found
  · exact ⟨inlets, isRun, shown⟩
  · rw [kept]
    exact active
  · rw [kept]
    exact transport

end

/-- A machine whose sockets report the endpoints that they are bound to, with
some sockets that are open. -/
def socketHost (sockets : List Text) : Host :=
  let shown (p : Profile) : List Inlet :=
    p.listeners.map fun a => { a with listen := reported a.listen }
  { calmHost with
    probe := fun listen =>
      if sockets.any fun socket => holds socket listen then
        some (.message "address already in use".toList)
      else none
    opens := fun p _ => .ok (shown p)
    changes := fun p => .ok (shown p) }

theorem binds_socketHost (c : Catalog) : Binds (socketHost c.listening) c [] := by
  intro listen
  unfold socketHost
  dsimp only
  rw [List.append_nil, ← List.any_eq_true]
  split_ifs with held
  · simp [held]
  · simp [held]

/-- A connection with one listener is saved and opened. -/
def opensOne (listen : String) : CatalogRequest where
  action := .connectionSave
  profile := some (sampleConnection "one".toList listen.toList)
  apply := true
  expectedRevision := some []

def openedOne (listen : String) : Catalog :=
  (({} : Catalog).handle (socketHost []) (opensOne listen)).1

/-- The connection is valid and its store is small. -/
def accepts (listen : String) : Bool :=
  match validate (socketHost []) ∅ []
      (sampleConnection "one".toList listen.toList) with
  | .ok r => decide ((Profiles.text ((∅ : Profiles).insert r.id r)).bytes ≤
      maxConfigSize)
  | .error _ => false

theorem runsAs_openedOne {listen : String} (accepted : accepts listen = true) :
    ∃ r e, RunsAs (openedOne listen) r e ∧ r.listeners =
      (sampleConnection "one".toList listen.toList).listeners := by
  unfold accepts at accepted
  split at accepted
  next r valid =>
    have small := of_decide_eq_true accepted
    obtain ⟨_, config, _, made⟩ := validate_ok.mp valid
    have saves : Saves {} (opensOne listen)
        (sampleConnection "one".toList listen.toList) :=
      { version := rfl
        save := rfl
        given := rfl
        alone := rfl
        applies := rfl
        current := by simp [conflicts, opensOne] }
    have writes : ({} : Catalog).persist (socketHost [])
        ((∅ : Profiles).insert r.id r) =
          (({} : Catalog).stores ((∅ : Profiles).insert r.id r), none) := by
      rcases persist_written (socketHost []) {} ((∅ : Profiles).insert r.id r) with
        ⟨_, _, writes⟩ | ⟨fails, _⟩
      · exact writes
      · exact absurd ⟨rfl, small⟩ fails
    have opens : Opens (socketHost []) (({} : Catalog).stores
        ((∅ : Profiles).insert r.id r)) r
          (r.listeners.map fun a => { a with listen := reported a.listen }) := by
      rw [made]
      exact
        { direct := relay_ne_connection.symm
          enabled := rfl
          relay := fun named => absurd rfl named
          stopped := rfl
          opens := rfl }
    have shown : List.Forall₂ Opened r.listeners
        (r.listeners.map fun a => { a with listen := reported a.listen }) := by
      rw [List.forall₂_map_right_iff, List.forall₂_same]
      exact fun a _ => ⟨rfl, fun _ => rfl⟩
    obtain ⟨e, runs⟩ := runsAs_saved sound_empty rfl saves valid opens shown
      writes
    refine ⟨r, e, runs, ?_⟩
    rw [made]
    rfl
  next => exact Bool.noConfusion accepted

theorem reachable_openedOne (listen : String) :
    machine.Reachable (openedOne listen) := by
  have taken : machine.step {} (.request (socketHost []) (opensOne listen)) =
      some (openedOne listen) := rfl
  exact .step (.start rfl) trivial taken

theorem saved_again_opened :
    ∃ p e name, RunsAs (openedOne "127.0.0.1:1080") p e ∧
      (Repeats (socketHost (openedOne "127.0.0.1:1080").listening)
          (openedOne "127.0.0.1:1080") (renames p name) { p with name } ∧
        Repeats (socketHost (openedOne "127.0.0.1:1080").listening)
          (openedOne "127.0.0.1:1080") (starts p) p ↔
      Repeatable (socketHost (openedOne "127.0.0.1:1080").listening)
          (openedOne "127.0.0.1:1080") { p with name } ∧
        Repeatable (socketHost (openedOne "127.0.0.1:1080").listening)
          (openedOne "127.0.0.1:1080") p) := by
  have accepted : accepts "127.0.0.1:1080" = true := by
    decide +kernel
  obtain ⟨p, e, runs, _⟩ := runsAs_openedOne accepted
  exact ⟨p, e, "renamed".toList, runs,
    saved_again (reachable_openedOne _) runs (binds_socketHost _) _⟩

/-- A connection that listens on every address by that of IPv4 is saved and
runs, and then it can neither be renamed nor started again. -/
theorem running_refused :
    ∃ (c : Catalog) (h : Host) (p : Profile) (e : Entry),
      machine.Reachable c ∧ RunsAs c p e ∧ Binds h c [] ∧
      p.listeners = [⟨"socks".toList, "0.0.0.0:1080".toList⟩] ∧
      (∀ name, ¬ Repeats h c (renames p name) { p with name }) ∧
      ¬ Repeats h c (starts p) p := by
  have accepted : accepts "0.0.0.0:1080" = true := by
    decide +kernel
  obtain ⟨p, e, runs, listeners⟩ := runsAs_openedOne accepted
  have reached := reachable_openedOne "0.0.0.0:1080"
  have binds := binds_socketHost (openedOne "0.0.0.0:1080")
  have sound := (upright_reachable reached).sound
  have invalid (name : Text) (r : Profile) :
      validate (socketHost (openedOne "0.0.0.0:1080").listening)
        (openedOne "0.0.0.0:1080").profiles
        ((openedOne "0.0.0.0:1080").owned p.id) { p with name } ≠ .ok r := by
    intro valid
    obtain ⟨spelled, _⟩ := (runs.validate_iff sound binds).mp valid
    rw [listeners] at spelled
    have same := (spelled _ (List.mem_singleton_self _)).2
    revert same
    decide +kernel
  refine ⟨_, _, p, e, reached, runs, binds, listeners, ?_, ?_⟩
  · exact fun name repeats => repeats.valid.elim (invalid name)
  · exact fun repeats => repeats.valid.elim (invalid p.name)

end Catalog

end Veil.Control

import Veil.Control.Validation
import Veil.Control.Manager

/-!
# The catalog of connections

The catalog keeps profiles in memory and in a file, and an entry with the
running connection of a profile.  The two maps change at different moments of
a request.  A test of a connection runs outside the lock of the catalog, so
that other requests come between its two halves.
-/

namespace Veil.Control

open Lib

/-! ## The state -/

structure ProbeResult where
  ok : Bool
  error : Option Problem := none
  target : Text := "https://www.google.com/generate_204".toList
  deriving DecidableEq

/-- `connectionEntry`; `run` holds the listeners of the running connection and
the serial number tells one entry of a profile from a later one. -/
structure Entry where
  serial : Nat
  testing : Bool := false
  server : Text := []
  relayID : Text := []
  relayName : Text := []
  relayServer : Text := []
  transport : Text := []
  run : Option (List Inlet) := none
  active : Text := []
  err : Option Problem := none
  probe : Option ProbeResult := none
  deriving DecidableEq

abbrev Entries := AList fun _ : Text => Entry

/-- A test between its two halves. -/
structure Pending where
  profile : Profile
  serial : Nat
  revision : Text
  deriving DecidableEq

/-- `Catalog` and its file. -/
structure Catalog where
  file : Option Text := none
  profiles : Profiles := ∅
  entries : Entries := ∅
  serials : Nat := 0
  tests : List Pending := []
  closed : Bool := false

/-! ## The file -/

/-- The order of texts by their characters. -/
def Text.le : Text → Text → Bool
  | [], _ => true
  | _ :: _, [] => false
  | a :: as, b :: bs => if a = b then Text.le as bs else a.toNat < b.toNat

namespace Profiles

/-- The profiles in the order of their IDs. -/
def sorted (m : Profiles) : List Profile :=
  (m.entries.map fun entry => entry.2).insertionSort fun p q =>
    Text.le p.id q.id

/-- The indented JSON of a store. -/
def text (m : Profiles) : Text :=
  Json.print .indent 0 (CatalogFile.ofList m.sorted).json

end Profiles

/-- The profiles of a stored list, added one after another. -/
def addProfiles : Profiles → List Profile → Result Profiles
  | m, [] => .ok m
  | m, p :: rest => do
      refuse (profileID p.id = false) "invalid saved connection ID"
      refuse (p.id ∈ m) "duplicate saved connection ID"
      addProfiles (m.insert p.id p) rest

/-- `openCatalog` on the file of a store. -/
def openCatalog (file : Option Text) : Result Profiles :=
  match file with
  | none => .ok ∅
  | some b => do
      refuse (maxConfigSize < b.bytes) "connection store too large"
      let data ← decodeOne "expected one connection store object"
        (CatalogFile.read · {}) b
      refuse (64 < (data.profiles.getD []).length) "too many saved profiles"
      refuse (data.version ≠ 1) "unsupported connection store version"
      addProfiles ∅ (data.profiles.getD [])

namespace Catalog

/-- `Catalog.persist` -/
def persist (h : Host) (c : Catalog) (next : Profiles) :
    Catalog × Option Problem :=
  if maxConfigSize < next.text.bytes then
    (c, some (.message "connection store too large".toList))
  else
    let written := writeConfig h.fault c.file (next.text ++ ['\n'])
    ({ c with
        file := written.file
        profiles := if written.committed then next else c.profiles },
      written.error)

/-! ## Entries -/

/-- Change the entry of an ID, which is made when there is none. -/
def update (c : Catalog) (id : Text) (change : Entry → Entry) : Catalog :=
  match c.entries.lookup id with
  | some e => { c with entries := c.entries.insert id (change e) }
  | none =>
      { c with
        entries := c.entries.insert id (change { serial := c.serials })
        serials := c.serials + 1 }

/-- `Catalog.entry`, read. -/
def entry (c : Catalog) (id : Text) : Entry :=
  (c.entries.lookup id).getD { serial := c.serials }

/-- The listeners of the running connection of an ID. -/
def owned (c : Catalog) (id : Text) : List Inlet :=
  ((c.entries.lookup id).bind Entry.run).getD []

/-- `Catalog.runtimeRevision` -/
def runtimeRevision (m : Profiles) (p : Profile) : Text :=
  let own := Profile.revision { p with name := [], enabled := false }
  match m.lookup p.relayID with
  | some r => own ++ Profile.revision { r with name := [] }
  | none => own

/-- `Catalog.transportRevision` -/
def transportRevision (m : Profiles) (p : Profile) : Text :=
  runtimeRevision m { p with inlets := none }

/-- `Catalog.stop` -/
def stop (c : Catalog) (id : Text) : Catalog :=
  c.update id fun e => { e with run := none, active := [] }

/-- The connection of an ID is stopped and its entry goes. -/
def discard (c : Catalog) (id : Text) : Catalog :=
  let c := c.stop id
  { c with entries := c.entries.erase id }

/-- Open the connection of a profile that is not running. -/
def openConnection (h : Host) (c : Catalog) (p : Profile) :
    Catalog × Option Problem :=
  let relay := c.profiles.lookup p.relayID
  if p.relayID ≠ [] ∧ relay = none then
    (c, some (.message "relay does not exist".toList))
  else
    match h.opens p (if p.relayID = [] then none else relay.map (·.config)) with
    | .error problem =>
        (c.update p.id ({ · with err := some problem }), some problem)
    | .ok inlets =>
        (c.update p.id fun e =>
          { e with
            run := some inlets
            active := runtimeRevision c.profiles p
            transport := transportRevision c.profiles p
            server := p.config.server
            relayID := p.relayID
            relayName := (relay.map (·.name)).getD []
            relayServer := (relay.map (·.config.server)).getD [] }, none)

/-- `Catalog.apply` on a connection. -/
def applyConnection (h : Host) (c : Catalog) (p : Profile) :
    Catalog × Option Problem :=
  let c := c.update p.id id
  let e := c.entry p.id
  let wanted := runtimeRevision c.profiles p
  if e.run.isSome ∧ e.active = wanted ∧ p.enabled then
    match c.profiles.lookup p.relayID with
    | some r => (c.update p.id ({ · with relayName := r.name }), none)
    | none => (c, none)
  else if e.run.isSome ∧ p.enabled ∧
      e.transport = transportRevision c.profiles p then
    match h.changes p with
    | .error problem =>
        (c.update p.id ({ · with err := some problem }), some problem)
    | .ok inlets =>
        (c.update p.id ({ · with
          run := some inlets, active := wanted, err := none }), none)
  else
    let c := (c.stop p.id).update p.id ({ · with err := none, probe := none })
    if p.enabled then openConnection h c p else (c, none)

/-- Go through profiles until one of them fails. -/
def untilFailure (each : Catalog → Profile → Catalog × Option Problem) :
    Catalog → List Profile → Catalog × Option Problem
  | c, [] => (c, none)
  | c, p :: rest =>
      match each c p with
      | (c, some problem) => (c, some (.within p.name problem))
      | (c, none) => untilFailure each c rest

/-- `Catalog.apply`; a relay is applied by applying what uses it, and `depth`
bounds the relays in a row. -/
def applyWithin (h : Host) : Nat → Catalog → Profile → Catalog × Option Problem
  | 0, c, _ => (c, none)
  | depth + 1, c, p =>
      if p.kind = relayKind then
        untilFailure (applyWithin h depth) c
          (((h.order c.profiles).map (·.2)).filter fun v =>
            v.relayID = p.id && v.enabled)
      else applyConnection h c p

def apply (h : Host) (c : Catalog) (p : Profile) : Catalog × Option Problem :=
  applyWithin h (c.profiles.keys.length + 1) c p

end Catalog

/-! ## Requests and responses -/

inductive RowState where
  | ready | running | stopped
  deriving DecidableEq

/-- `ConnectionStatus` without the counters of its snapshot. -/
structure Row where
  id : Text
  name : Text
  kind : Text
  server : Text
  enabled : Bool
  relayID : Text
  relayName : Text
  relayServer : Text
  inlets : List Inlet
  revision : Text
  pending : Bool
  state : RowState
  error : Option Problem
  probe : Option ProbeResult
  deriving DecidableEq

/-- The actions whose names start with `connection`, save `connection_test`;
`connectionsOther` and `connectionOther` are those the catalog does not know. -/
inductive CatalogVerb where
  | connections
  | connectionsGet | connectionsValidate | connectionsSave | connectionsOther
  | connectionGet | connectionExport | connectionSave | connectionStart
  | connectionStop | connectionDelete | connectionOther
  deriving DecidableEq

structure CatalogRequest where
  version : Int := 1
  action : CatalogVerb
  id : Text := []
  profile : Option Profile := none
  relay : Option Profile := none
  apply : Bool := false
  config : Text := []
  expectedRevision : Option Text := none

structure CatalogResponse where
  connections : Option (List Row) := none
  profile : Option Profile := none
  relay : Option Profile := none
  probe : Option ProbeResult := none
  revision : Text := []
  config : Text := []
  error : Option Failure := none

def CatalogResponse.failed (code : String) (problem : Problem) :
    CatalogResponse :=
  { error := some ⟨code.toList, problem⟩ }

def CatalogResponse.refused (code text : String) : CatalogResponse :=
  .failed code (.message text.toList)

namespace Catalog

/-- A row of `Catalog.list`. -/
def row (c : Catalog) (id : Text) (p : Profile) : Row :=
  let e := c.entry id
  let relay := c.profiles.lookup p.relayID
  match (if p.kind = relayKind then none else e.run) with
  | some inlets =>
      { id, name := p.name, kind := p.kind, server := e.server
        enabled := p.enabled, relayID := e.relayID, relayName := e.relayName
        relayServer := e.relayServer, inlets, revision := p.revision
        pending := e.active ≠ runtimeRevision c.profiles p
        state := .running, error := e.err, probe := e.probe }
  | none =>
      { id, name := p.name, kind := p.kind, server := p.config.server
        enabled := p.enabled, relayID := p.relayID
        relayName := (relay.map (·.name)).getD []
        relayServer := (relay.map (·.config.server)).getD []
        inlets := p.listeners, revision := p.revision, pending := false
        state := if p.kind = relayKind then .ready else .stopped
        error := e.err, probe := e.probe }

/-- `Catalog.list`; every profile gets an entry. -/
def list (h : Host) (c : Catalog) : Catalog × List Row :=
  let order := h.order c.profiles
  let c := order.foldl (fun c entry => c.update entry.1 id) c
  (c, (order.map fun entry => c.row entry.1 entry.2).insertionSort
    fun a b => Text.le a.name b.name)

/-- A response with the rows at its end. -/
def listed (h : Host) (c : Catalog) (r : CatalogResponse) :
    Catalog × CatalogResponse :=
  let (c, rows) := c.list h
  (c, { r with connections := some rows })

/-- `Catalog.snapshot` -/
def snapshot (m : Profiles) : Text × Text :=
  let b := Json.print .compact 0 (CatalogFile.ofList m.sorted).json
  (b, Sha256.sum b)

/-! ### Saving one profile -/

/-- The profiles with the relay that comes with a connection. -/
def stageRelay (h : Host) (c : Catalog) (p : Profile) (relay : Option Profile) :
    Result Profiles :=
  match relay with
  | none => .ok c.profiles
  | some r => do
      refuse (p.kind ≠ connectionKind ∨ r.kind ≠ relayKind ∨ p.relayID ≠ r.id ∨
        p.id = r.id) "embedded relay does not match the connection"
      let r ← validate h c.profiles (c.owned r.id) r
      refuse (∃ old ∈ c.profiles.lookup r.id, old.revision ≠ r.revision)
        "embedded relay ID already exists; import with a new ID"
      pure (c.profiles.insert r.id r)

/-- `Catalog.saveConnection` up to its write: the profile with its defaults and
the profiles with it. -/
def saveConnection (h : Host) (c : Catalog) (p : Profile)
    (relay : Option Profile) : Result (Profile × Profiles) := do
  let staged ← c.stageRelay h p relay
  let p ← validate h staged (c.owned p.id) p
  pure (p, staged.insert p.id p)

/-- The revision a request has to expect before it changes a profile. -/
def conflicts (c : Catalog) (q : CatalogRequest) (id : Text) : Bool :=
  q.expectedRevision ≠ some (((c.profiles.lookup id).map (·.revision)).getD [])

/-- What `connection_save` and `connection_start` do once the profiles are
written. -/
def applied (h : Host) (c : Catalog) (p : Profile) (r : CatalogResponse) :
    Catalog × CatalogResponse :=
  let (c, problem) := c.apply h p
  listed h c { r with error := problem.map (⟨"start_failed".toList, ·⟩) }

/-- `connection_save` -/
def connectionSave (h : Host) (c : Catalog) (q : CatalogRequest) :
    Catalog × CatalogResponse :=
  match q.profile with
  | none => (c, .refused "invalid_config" "profile is required")
  | some p =>
      if c.conflicts q p.id then
        (c, .refused "conflict"
          "configuration changed; reload before editing")
      else
        match c.saveConnection h p q.relay with
        | .error problem => (c, .failed "invalid_config" problem)
        | .ok (p, next) =>
            match c.persist h next with
            | (c, some problem) => (c, .failed "invalid_config" problem)
            | (c, none) =>
                let r : CatalogResponse := { revision := p.revision }
                if q.apply then applied h c p r else listed h c r

/-- The profile that a start or a stop is to store. -/
def toggled (h : Host) (c : Catalog) (p : Profile) (enabled : Bool) :
    Result Profile :=
  if enabled then validate h c.profiles (c.owned p.id) { p with enabled }
  else .ok { p with enabled }

/-- `connection_start` and `connection_stop` on a profile that exists. -/
def connectionToggle (h : Host) (c : Catalog) (p : Profile) (enabled : Bool) :
    Catalog × CatalogResponse :=
  if p.kind ≠ connectionKind then
    (c, .refused "invalid_config" "relay starts with its connections")
  else
    match c.toggled h p enabled with
    | .error problem => (c, .failed "invalid_config" problem)
    | .ok p =>
        match c.persist h (c.profiles.insert p.id p) with
        | (c, some problem) => (c, .failed "save_failed" problem)
        | (c, none) => applied h c p {}

/-- A profile that goes through the one to be deleted. -/
def user (h : Host) (c : Catalog) (p : Profile) : Option Profile :=
  ((h.order c.profiles).map (·.2)).find? fun v => v.relayID = p.id

/-- `connection_delete` on a profile that exists. -/
def connectionDelete (h : Host) (c : Catalog) (p : Profile) :
    Catalog × CatalogResponse :=
  match c.user h p with
  | some v =>
      (c, .failed "in_use" (.message ("relay is used by ".toList ++ v.name)))
  | none =>
      match c.persist h (c.profiles.erase p.id) with
      | (c, some problem) => (c, .failed "save_failed" problem)
      | (c, none) => listed h (c.discard p.id) {}

/-- `portableProfile` -/
def portable (h : Host) (p : Profile) : Result Profile := do
  let tls ←
    if p.config.tls.caFile = [] then .ok p.config.tls
    else (h.authority p.config.tls.caFile).map fun pem =>
      { p.config.tls with caPEM := pem, caFile := [] }
  pure { p with config := { p.config with tls := { tls with
    certificate := [], privateKeyFile := [], realityPrivateKey := []
    coverAddress := [] } } }

/-- `Catalog.export` -/
def exportProfile (h : Host) (c : Catalog) (p : Profile) : CatalogResponse :=
  match portable h p with
  | .error problem => .failed "export_failed" problem
  | .ok p =>
      if p.relayID = [] then { profile := some p }
      else
        match c.profiles.lookup p.relayID with
        | none => .refused "export_failed" "relay is missing"
        | some r =>
            match portable h r with
            | .error problem => .failed "export_failed" problem
            | .ok r => { profile := some p, relay := some r }

/-- A request that changes the profile of its ID. -/
def changing (c : Catalog) (q : CatalogRequest)
    (change : Profile → Catalog × CatalogResponse) :
    Catalog × CatalogResponse :=
  if c.conflicts q q.id then
    (c, .refused "conflict" "configuration changed; reload before editing")
  else
    match c.profiles.lookup q.id with
    | none => (c, .refused "not_found" "connection not found")
    | some p => change p

/-- A request that reads the profile of its ID. -/
def reading (c : Catalog) (q : CatalogRequest)
    (answer : Profile → Catalog × CatalogResponse) :
    Catalog × CatalogResponse :=
  match c.profiles.lookup q.id with
  | none => (c, .refused "not_found" "connection not found")
  | some p => answer p

/-! ### Saving all profiles -/

/-- The profiles of a snapshot before they are validated. -/
def stage (old : Profiles) : Profiles → List Profile → Result Profiles
  | m, [] => .ok m
  | m, p :: rest => do
      refuse (p.id ∈ m) "duplicate profile ID"
      refuse (∃ before ∈ old.lookup p.id, before.kind ≠ p.kind)
        "profile kind cannot change"
      stage old (m.insert p.id p) rest

/-- Each profile is validated among the others and takes its defaults. -/
def settle (h : Host) (owned : Text → List Inlet) :
    Profiles → List Profile → Result Profiles
  | m, [] => .ok m
  | m, p :: rest =>
      match validate h m (owned p.id) p with
      | .error problem => .error (.within p.name problem)
      | .ok p => settle h owned (m.insert p.id p) rest

/-- `Catalog.validateSnapshot` -/
def validateSnapshot (h : Host) (c : Catalog) (raw : Text) :
    Result Profiles := do
  refuse (maxConfigSize < raw.bytes) "catalog exceeds 1 MiB"
  let data ← decodeOne "expected one catalog object" (CatalogFile.read · {}) raw
  let profiles := data.profiles.getD []
  refuse (data.version ≠ 1 ∨ 64 < profiles.length)
    "invalid catalog version or size"
  let staged ← stage c.profiles ∅ profiles
  settle h c.owned staged profiles

/-- Entries of removed profiles stop and go. -/
def dropRemoved (c : Catalog) : Catalog :=
  c.entries.keys.foldl (fun c id =>
    if id ∈ c.profiles then c else c.discard id) c

/-- `errors.Join` -/
def join : Option Problem → Option Problem → Option Problem
  | none, second => second
  | some first, none => some first
  | some first, some second => some (.joined first second)

/-- Go through all profiles and join what fails. -/
def applyAll (h : Host) (c : Catalog) (profiles : List Profile) :
    Catalog × Option Problem :=
  profiles.foldl (fun outcome p =>
    let (c, problem) := outcome.1.apply h p
    (c, join outcome.2 problem)) (c, none)

/-- What `connections_save` does with `apply`. -/
def applySnapshot (h : Host) (c : Catalog) (q : CatalogRequest) :
    Catalog × Option Problem :=
  if q.apply = false then (c, none)
  else if q.id ≠ [] then
    match c.profiles.lookup q.id with
    | some p => c.apply h p
    | none => (c, none)
  else
    applyAll h c
      (((h.order c.profiles).map (·.2)).filter fun p => p.kind = connectionKind)

/-- `connections_save` after the snapshot is validated. -/
def connectionsSave (h : Host) (c : Catalog) (q : CatalogRequest)
    (staged : Profiles) : Catalog × CatalogResponse :=
  let (data, revision) := snapshot staged
  match c.persist h staged with
  | (c, some problem) =>
      -- the saved state is reported, which a late failure has changed
      let (data, revision) := snapshot c.profiles
      listed h c { config := data, revision
                   error := some ⟨"save_failed".toList, problem⟩ }
  | (c, none) =>
      let (c, problem) := c.dropRemoved.applySnapshot h q
      listed h c { config := data, revision
                   error := problem.map (⟨"start_failed".toList, ·⟩) }

/-- `Catalog.handleSnapshot` -/
def handleSnapshot (h : Host) (c : Catalog) (q : CatalogRequest) :
    Catalog × CatalogResponse :=
  let (current, revision) := snapshot c.profiles
  match q.action with
  | .connectionsGet => listed h c { config := current, revision }
  | .connectionsValidate =>
      match c.validateSnapshot h q.config with
      | .error problem => (c, .failed "invalid_config" problem)
      | .ok staged =>
          (c, { config := (snapshot staged).1, revision := (snapshot staged).2 })
  | .connectionsSave =>
      if q.expectedRevision ≠ some revision then
        (c, .refused "conflict" "catalog changed; reload before saving")
      else
        match c.validateSnapshot h q.config with
        | .error problem => (c, .failed "invalid_config" problem)
        | .ok staged => c.connectionsSave h q staged
  | _ => (c, .refused "unknown_action" "unknown catalog action")

/-- `Catalog.Handle` -/
def handle (h : Host) (c : Catalog) (q : CatalogRequest) :
    Catalog × CatalogResponse :=
  if q.version ≠ 1 then
    (c, .refused "unsupported_version" "expected control protocol version 1")
  else if c.closed then (c, .refused "closed" "manager is closed")
  else
    match q.action with
    | .connectionsGet | .connectionsValidate | .connectionsSave
    | .connectionsOther => c.handleSnapshot h q
    | .connections => listed h c {}
    | .connectionSave => c.connectionSave h q
    | .connectionStart => c.changing q fun p => c.connectionToggle h p true
    | .connectionStop => c.changing q fun p => c.connectionToggle h p false
    | .connectionDelete => c.changing q fun p => c.connectionDelete h p
    | .connectionGet =>
        c.reading q fun p => listed h c { profile := some p }
    | .connectionExport => c.reading q fun p => (c, c.exportProfile h p)
    | .connectionOther =>
        c.reading q fun _ =>
          (c, .refused "unknown_action" "unknown connection action")

/-! ## What happens to a catalog -/

/-- `Catalog.Autostart` -/
def autostart (h : Host) (c : Catalog) : Catalog :=
  (((h.order c.profiles).map (·.2)).filter fun p =>
    p.kind = connectionKind && p.enabled).foldl (fun c p =>
      match c.apply h p with
      | (c, none) => c
      | (c, some problem) =>
          c.update p.id ({ · with err := some problem })) c

/-- `Catalog.Close` -/
def close (c : Catalog) : Catalog :=
  c.entries.keys.foldl stop { c with closed := true }

/-- A configuration with its defaults, as the manager keeps it. -/
abbrev Saved :=
  { c : Config // c.defaults = .ok c }

/-- The profile of the configuration of a single client. -/
def migrated (c : Config) : Profile :=
  { id := "default".toList
    name := c.server
    kind := connectionKind
    enabled := true
    config := c
    inlets := some [{
      protocol := if c.inbound = [] then "socks".toList else c.inbound
      listen := c.listen }] }

/-- `Manager.MigrateConnection`; `stat` is why the file cannot be looked at. -/
def migrate (h : Host) (c : Catalog) (saved : Option Saved)
    (stat : Option Problem) : Catalog × Option Problem :=
  if stat ≠ none ∨ c.file ≠ none then (c, stat)
  else
    match saved with
    | none => (c, none)
    | some cfg =>
        if cfg.1.role ≠ "client".toList ∨ cfg.1.target ≠ [] then
          (c, some (.message
            "connections mode requires a client configuration".toList))
        else
          let p := migrated cfg.1
          c.persist h (c.profiles.insert p.id p)

/-- `Catalog.test` up to the release of the lock. -/
def beginTest (c : Catalog) (version : Int) (id : Text) :
    Catalog × CatalogResponse :=
  if version ≠ 1 ∨ c.closed then
    (c, .refused "unavailable" "invalid version or closed service")
  else
    match c.profiles.lookup id with
    | none => (c, .refused "not_found" "connection not found")
    | some p =>
        if p.kind ≠ connectionKind then
          (c, .refused "invalid_config"
            "test a complete connection that uses this relay")
        else if (c.entry p.id).testing then
          (c.update p.id fun e => e, .refused "busy"
            "a test is already running for this connection")
        else
          let c := c.update p.id ({ · with testing := true })
          let test : Pending :=
            { profile := p, serial := (c.entry p.id).serial
              revision := runtimeRevision c.profiles p }
          ({ c with tests := test :: c.tests }, {})

/-- `Catalog.test` once the probe has its result. -/
def endTest (h : Host) (c : Catalog) (test : Pending) (result : ProbeResult) :
    Catalog × CatalogResponse :=
  let id := test.profile.id
  let c := { c with tests := c.tests.erase test }
  let same := (c.entries.lookup id).any fun e => e.serial = test.serial
  let current := (c.profiles.lookup id).any fun p =>
    !c.closed && runtimeRevision c.profiles p = test.revision
  let c := if same then c.update id ({ · with testing := false }) else c
  let c :=
    if same && current then c.update id ({ · with probe := some result }) else c
  listed h c { probe := some result }

inductive Action where
  | request (h : Host) (q : CatalogRequest)
  | autostart (h : Host)
  | beginTest (version : Int) (id : Text)
  | endTest (h : Host) (test : Pending) (result : ProbeResult)
  | migrate (h : Host) (saved : Option Saved) (stat : Option Problem)
  | close

def step (c : Catalog) : Action → Option Catalog
  | .request h q => some (c.handle h q).1
  | .autostart h => some (c.autostart h)
  | .beginTest version id => some (c.beginTest version id).1
  | .endTest h test result =>
      if test ∈ c.tests then some (c.endTest h test result).1 else none
  | .migrate h saved stat => some (c.migrate h saved stat).1
  | .close => some c.close

/-- The catalog of an empty store, under anything that can happen to it. -/
def machine : Machine Catalog Action where
  start c := c = {}
  step := step

end Catalog

end Veil.Control

import Veil.Control.Profile
import Mathlib.Data.List.AList
import Mathlib.Data.List.Sort

/-!
# Validation of a profile among others

`Catalog.validate` checks a profile against the profiles it is to be stored
with.  It accepts exactly the profiles that fit among them and whose
configuration and listeners the machine can put to use.
-/

namespace Veil.Control

open Lib

/-- `Catalog.profiles` -/
abbrev Profiles := AList fun _ : Text => Profile

/-- What the machine that the service runs on does during one request. -/
structure Host where
  /-- why the service of a configuration cannot be built -/
  build : Config → Option Problem
  /-- why an address cannot be listened on -/
  probe : Text → Option Problem
  /-- the step of replacing the file that fails -/
  fault : Option WriteStep
  /-- the listeners of a connection that is opened, with its relay -/
  opens : Profile → Option Config → Result (List Inlet)
  /-- the listeners of a connection after they were changed -/
  changes : Profile → Result (List Inlet)
  /-- the certificates in a file of authorities -/
  authority : Text → Result Text
  /-- the order in which maps are gone through -/
  rank : Text → Nat

/-- The profiles in the order of the machine. -/
def Host.order (h : Host) (profiles : Profiles) :
    List ((_ : Text) × Profile) :=
  profiles.entries.insertionSort fun a b => h.rank a.1 ≤ h.rank b.1

theorem Host.mem_order {h : Host} {profiles : Profiles} {id : Text}
    {p : Profile} :
    ⟨id, p⟩ ∈ h.order profiles ↔ profiles.lookup id = some p := by
  unfold Host.order
  rw [List.mem_insertionSort]
  exact AList.mem_lookup_iff.symm

/-! ## Checks -/

/-- A check that fails with a message. -/
def refuse (bad : Prop) [Decidable bad] (text : String) : Result Unit :=
  if bad then fail text else .ok ()

@[simp]
theorem refuse_ok {bad : Prop} [Decidable bad] {text : String} :
    refuse bad text = .ok () ↔ ¬ bad := by
  unfold refuse fail
  split_ifs with holds <;> simp [holds]

theorem seq_ok {α : Type} {first : Result Unit} {next : Result α}
    {value : α} :
    (first >>= fun _ => next) = .ok value ↔
      first = .ok () ∧ next = .ok value := by
  rw [bind_eq_ok]
  constructor
  · rintro ⟨⟨⟩, done, rest⟩
    exact ⟨done, rest⟩
  · rintro ⟨done, rest⟩
    exact ⟨(), done, rest⟩

/-- `profileID` -/
def profileID (id : Text) : Bool :=
  match id with
  | [] => false
  | first :: rest =>
      first.isAlphanum && rest.length ≤ 47 &&
        rest.all fun char => char.isAlphanum || char = '_' || char = '-'

/-- `overlap`: the ports of two listeners are compared as texts. -/
def overlap (a b : Text) : Bool :=
  let (aHost, aPort) := (splitHostPort a).getD ([], [])
  let (bHost, bPort) := (splitHostPort b).getD ([], [])
  if aPort ≠ bPort then false
  else
    aHost = bHost ||
      match parseIP aHost, parseIP bHost with
      | some aIP, some bIP => aIP = bIP || unspecified aIP || unspecified bIP
      | _, _ => false

theorem overlap_comm (a b : Text) : overlap a b = overlap b a := by
  unfold overlap
  obtain ⟨aHost, aPort⟩ := (splitHostPort a).getD ([], [])
  obtain ⟨bHost, bPort⟩ := (splitHostPort b).getD ([], [])
  by_cases port : aPort = bPort
  · subst port
    have hosts : decide (aHost = bHost) = decide (bHost = aHost) := by
      simp only [eq_comm]
    simp only [ne_eq, not_true_eq_false, if_false, hosts]
    congr 1
    cases parseIP aHost with
    | none => cases parseIP bHost <;> rfl
    | some aIP =>
        cases parseIP bHost with
        | none => rfl
        | some bIP =>
            have same : decide (aIP = bIP) = decide (bIP = aIP) := by
              simp only [eq_comm]
            simp only [same, Bool.or_assoc, Bool.or_comm (unspecified aIP)]
  · have other : ¬ bPort = aPort := fun same => port same.symm
    simp [port, other]

/-- A listener has a local IP address and a port. -/
def localAddress (listen : Text) : Bool :=
  match splitHostPort listen with
  | none => false
  | some (host, port) =>
      match parseIP host, atoi port with
      | some _, some number => 1 ≤ number && number ≤ 65535
      | _, _ => false

def proxyProtocol (protocol : Text) : Bool :=
  protocol = "socks".toList || protocol = "http".toList ||
    protocol = "mixed".toList

def checkProtocol (a : Inlet) : Result Unit :=
  refuse (proxyProtocol a.protocol = false) "invalid proxy protocol"

def checkLocal (a : Inlet) : Result Unit :=
  refuse (localAddress a.listen = false)
    "listener requires a local IP address and port 1–65535"

/-- A listener against those before it in its profile. -/
def checkEarlier (before : List Inlet) (a : Inlet) : Result Unit :=
  if before.any fun b => overlap a.listen b.listen then
    .error (.message ("overlapping listeners: ".toList ++ a.listen))
  else .ok ()

/-- A listener against those of other profiles. -/
def checkOthers (others : List ((_ : Text) × Profile)) (id : Text)
    (a : Inlet) : Result Unit :=
  match others.find? fun other => other.1 ≠ id &&
      other.2.listeners.any fun b => overlap a.listen b.listen with
  | some other =>
      .error (.message ("port is assigned to ".toList ++ other.2.name ++
        ": ".toList ++ a.listen))
  | none => .ok ()

/-- A listener that the profile does not own yet is bound for a moment. -/
def checkBind (h : Host) (owned : List Inlet) (a : Inlet) : Result Unit :=
  if owned.any fun b => a.listen = b.listen then .ok ()
  else
    match h.probe a.listen with
    | some problem =>
        .error (.within ("listener ".toList ++ a.listen) problem)
    | none => .ok ()

def checkInlets (h : Host) (profiles : Profiles) (owned : List Inlet)
    (id : Text) : List Inlet → List Inlet → Result Unit
  | _, [] => .ok ()
  | before, a :: rest => do
      checkProtocol a
      checkLocal a
      checkEarlier before a
      checkOthers (h.order profiles) id a
      checkBind h owned a
      checkInlets h profiles owned id (before ++ [a]) rest

def checkName (p : Profile) : Result Unit :=
  refuse (profileID p.id = false ∨ p.name = [] ∨ 120 < p.name.bytes)
    "name and a valid connection ID are required"

def checkCount (profiles : Profiles) (p : Profile) : Result Unit :=
  refuse (64 ≤ profiles.keys.length ∧ p.id ∉ profiles) "at most 64 profiles"

def checkKind (profiles : Profiles) (p : Profile) : Result Unit := do
  refuse (p.kind ≠ connectionKind ∧ p.kind ≠ relayKind) "invalid profile kind"
  refuse (∃ old ∈ profiles.lookup p.id, old.kind ≠ p.kind)
    "profile kind cannot change"

def serverPort (server : Text) : Bool :=
  match splitHostPort server with
  | none => false
  | some (_, port) => port ≠ []

def checkServer (c : Config) : Result Unit :=
  refuse (serverPort c.server = false) "server must include host and port"

def checkRelay (p : Profile) : Result Unit :=
  refuse (p.relayID ≠ [] ∨ p.listeners ≠ [] ∨ p.enabled)
    "relay profiles have no listeners or enable switch"

/-- The relay that a profile names exists. -/
def checkRelayID (profiles : Profiles) (p : Profile) : Result Unit :=
  refuse (p.relayID ≠ [] ∧
      ¬ ∃ r ∈ profiles.lookup p.relayID, r.kind = relayKind)
    "select an existing relay"

def checkConnection (h : Host) (profiles : Profiles) (owned : List Inlet)
    (p : Profile) : Result Unit := do
  checkRelayID profiles p
  refuse (8 < p.listeners.length) "at most 8 listeners per connection"
  refuse (p.enabled ∧ p.listeners = []) "enable at least one proxy listener"
  checkInlets h profiles owned p.id [] p.listeners

def checkShape (h : Host) (profiles : Profiles) (owned : List Inlet)
    (p : Profile) : Result Unit :=
  if p.kind = relayKind then checkRelay p
  else checkConnection h profiles owned p

/-- The configuration of a profile as that of a client without target. -/
def Profile.client (p : Profile) : Config :=
  { p.config with
    role := "client".toList
    target := []
    inbound := []
    listen := "127.0.0.1:0".toList }

/-- `Catalog.validate`; the profile is returned with its defaults. -/
def validate (h : Host) (profiles : Profiles) (owned : List Inlet)
    (p : Profile) : Result Profile := do
  checkName p
  checkCount profiles p
  checkKind profiles p
  let config ← p.client.defaults
  config.validate h.build
  checkServer config
  checkShape h profiles owned p
  pure { p with config }

/-! ## What is accepted -/

/-- A profile fits among others: this depends on the profiles alone. -/
structure Belongs (profiles : Profiles) (p : Profile) : Prop where
  id : profileID p.id = true
  name : p.name ≠ [] ∧ p.name.bytes ≤ 120
  room : profiles.keys.length < 64 ∨ p.id ∈ profiles
  kind : p.kind = connectionKind ∨ p.kind = relayKind
  kept : ∀ old, profiles.lookup p.id = some old → old.kind = p.kind
  relay : p.kind = relayKind →
    p.relayID = [] ∧ p.listeners = [] ∧ p.enabled = false
  uses : p.relayID ≠ [] →
    ∃ r, profiles.lookup p.relayID = some r ∧ r.kind = relayKind
  few : p.listeners.length ≤ 8
  enabled : p.enabled = true → p.listeners ≠ []
  proper : ∀ a ∈ p.listeners,
    proxyProtocol a.protocol = true ∧ localAddress a.listen = true
  apart : p.listeners.Pairwise fun b a => overlap a.listen b.listen = false
  others : ∀ a ∈ p.listeners, ∀ id other, profiles.lookup id = some other →
    id ≠ p.id → ∀ b ∈ other.listeners, overlap a.listen b.listen = false

/-- The machine can put a profile to use; `config` is its configuration with
the defaults. -/
structure Usable (h : Host) (owned : List Inlet) (p : Profile)
    (config : Config) : Prop where
  filled : p.client.defaults = .ok config
  valid : config.validate h.build = .ok ()
  server : serverPort config.server = true
  bindable : ∀ a ∈ p.listeners,
    (∃ b ∈ owned, a.listen = b.listen) ∨ h.probe a.listen = none

theorem checkEarlier_ok {before : List Inlet} {a : Inlet} :
    checkEarlier before a = .ok () ↔
      ∀ b ∈ before, overlap a.listen b.listen = false := by
  unfold checkEarlier
  split_ifs with some
  · simpa using some
  · simpa using some

theorem checkOthers_ok {h : Host} {profiles : Profiles} {id : Text}
    {a : Inlet} :
    checkOthers (h.order profiles) id a = .ok () ↔
      ∀ key other, profiles.lookup key = some other → key ≠ id →
        ∀ b ∈ other.listeners, overlap a.listen b.listen = false := by
  have found : checkOthers (h.order profiles) id a = .ok () ↔
      (h.order profiles).find? (fun other => other.1 ≠ id &&
        other.2.listeners.any fun b => overlap a.listen b.listen) = none := by
    unfold checkOthers
    split
    next other same =>
      rw [same]
      simp
    next none =>
      rw [none]
      simp
  rw [found, List.find?_eq_none]
  constructor
  · intro clear key other stored distinct b listens
    by_contra clash
    apply clear ⟨key, other⟩ (Host.mem_order.mpr stored)
    simp only [Bool.and_eq_true, decide_eq_true_eq, List.any_eq_true]
    exact ⟨distinct, b, listens, by simpa using clash⟩
  · rintro clear ⟨key, other⟩ stored clash
    simp only [Bool.and_eq_true, decide_eq_true_eq, List.any_eq_true] at clash
    obtain ⟨distinct, b, listens, overlaps⟩ := clash
    have disjoint := clear key other (Host.mem_order.mp stored) distinct b
      listens
    simp [disjoint] at overlaps

theorem checkBind_ok {h : Host} {owned : List Inlet} {a : Inlet} :
    checkBind h owned a = .ok () ↔
      (∃ b ∈ owned, a.listen = b.listen) ∨ h.probe a.listen = none := by
  unfold checkBind
  split_ifs with held
  · simp only [List.any_eq_true, decide_eq_true_eq] at held
    simp [held]
  · simp only [List.any_eq_true, decide_eq_true_eq] at held
    split
    next problem fails => simp [held, fails]
    next works => simp [works]

theorem checkInlets_ok {h : Host} {profiles : Profiles} {owned : List Inlet}
    {id : Text} {before list : List Inlet} :
    checkInlets h profiles owned id before list = .ok () ↔
      (∀ a ∈ list, proxyProtocol a.protocol = true ∧
        localAddress a.listen = true) ∧
      (∀ a ∈ list, ∀ b ∈ before, overlap a.listen b.listen = false) ∧
      list.Pairwise (fun b a => overlap a.listen b.listen = false) ∧
      (∀ a ∈ list, ∀ key other, profiles.lookup key = some other →
        key ≠ id → ∀ b ∈ other.listeners,
          overlap a.listen b.listen = false) ∧
      (∀ a ∈ list, (∃ b ∈ owned, a.listen = b.listen) ∨
        h.probe a.listen = none) := by
  induction list generalizing before with
  | nil => simp [checkInlets]
  | cons a rest ih =>
      simp only [checkInlets, seq_ok, ih, checkProtocol, checkLocal,
        refuse_ok, Bool.not_eq_false, checkEarlier_ok, checkOthers_ok,
        checkBind_ok, List.forall_mem_cons, List.pairwise_cons,
        List.forall_mem_append, List.not_mem_nil,
        false_implies, implies_true, and_true]
      constructor
      · rintro ⟨protocol, address, earlier, others, bound, proper, after,
          apart, elsewhere, binds⟩
        exact ⟨⟨⟨protocol, address⟩, proper⟩,
          ⟨earlier, fun b listed => (after b listed).1⟩,
          ⟨fun b listed => (after b listed).2, apart⟩,
          ⟨others, elsewhere⟩, bound, binds⟩
      · rintro ⟨⟨⟨protocol, address⟩, proper⟩, ⟨earlier, after⟩,
          ⟨next, apart⟩, ⟨others, elsewhere⟩, bound, binds⟩
        exact ⟨protocol, address, earlier, others, bound, proper,
          fun b listed => ⟨after b listed, next b listed⟩, apart, elsewhere,
          binds⟩

theorem relay_ne_connection : relayKind ≠ connectionKind := by
  decide

/-- The checks that differ for relays and connections. -/
structure Shape (h : Host) (profiles : Profiles) (owned : List Inlet)
    (p : Profile) : Prop where
  relay : p.kind = relayKind →
    p.relayID = [] ∧ p.listeners = [] ∧ p.enabled = false
  uses : p.relayID ≠ [] →
    ∃ r, profiles.lookup p.relayID = some r ∧ r.kind = relayKind
  few : p.listeners.length ≤ 8
  enabled : p.enabled = true → p.listeners ≠ []
  inlets : checkInlets h profiles owned p.id [] p.listeners = .ok ()

theorem checkShape_ok {h : Host} {profiles : Profiles} {owned : List Inlet}
    {p : Profile} :
    checkShape h profiles owned p = .ok () ↔ Shape h profiles owned p := by
  unfold checkShape
  split_ifs with relay
  · have bare : checkRelay p = .ok () ↔
        p.relayID = [] ∧ p.listeners = [] ∧ p.enabled = false := by
      simp [checkRelay]
    rw [bare]
    constructor
    · rintro ⟨relayID, listeners, enabled⟩
      constructor
      · exact fun _ => ⟨relayID, listeners, enabled⟩
      · exact fun named => absurd relayID named
      · simp [listeners]
      · simp [enabled]
      · rw [listeners, checkInlets]
    · exact fun shape => shape.relay relay
  · simp only [checkConnection, checkRelayID, seq_ok, refuse_ok,
      Option.mem_def, not_and, not_not, not_lt]
    constructor
    · rintro ⟨uses, few, enabled, inlets⟩
      exact ⟨fun same => absurd same relay, uses, few, enabled, inlets⟩
    · rintro ⟨_, uses, few, enabled, inlets⟩
      exact ⟨uses, few, enabled, inlets⟩

/-- Validation accepts what belongs and can be used, and fills in the
defaults. -/
theorem validate_ok {h : Host} {profiles : Profiles} {owned : List Inlet}
    {p q : Profile} :
    validate h profiles owned p = .ok q ↔
      Belongs profiles p ∧
        ∃ config, Usable h owned p config ∧ q = { p with config } := by
  rw [validate, seq_ok, seq_ok, seq_ok, bind_eq_ok]
  simp only [seq_ok, checkShape_ok, checkName, checkCount, checkKind,
    checkServer, refuse_ok, not_or, not_and, not_not, Bool.not_eq_false,
    not_lt, Option.mem_def, not_exists]
  constructor
  · rintro ⟨⟨id, name⟩, room, ⟨kind, kept⟩, config, filled, valid, server,
      shape, made⟩
    obtain ⟨proper, _, apart, others, bindable⟩ :=
      checkInlets_ok.mp shape.inlets
    constructor
    · exact
        { id, name, kept, proper, apart, others
          room := (Nat.lt_or_ge _ 64).imp_right room
          kind := (em (p.kind = connectionKind)).imp_right kind
          relay := shape.relay
          uses := shape.uses
          few := shape.few
          enabled := shape.enabled }
    · exact ⟨config, ⟨filled, valid, server, bindable⟩,
        (Except.ok.inj made).symm⟩
  · rintro ⟨belongs, config, usable, rfl⟩
    have inlets : checkInlets h profiles owned p.id [] p.listeners = .ok () :=
      checkInlets_ok.mpr ⟨belongs.proper, by simp, belongs.apart,
        belongs.others, usable.bindable⟩
    have full : 64 ≤ profiles.keys.length → p.id ∈ profiles := fun large =>
      belongs.room.resolve_left (Nat.not_lt.mpr large)
    exact ⟨⟨belongs.id, belongs.name⟩, full,
      ⟨fun other => belongs.kind.resolve_left other, belongs.kept⟩, config,
      usable.filled, usable.valid, usable.server,
      ⟨belongs.relay, belongs.uses, belongs.few, belongs.enabled, inlets⟩,
      rfl⟩

end Veil.Control

import Veil.Control.References

/-!
# Migration of a single client

The catalog takes over the configuration of a single client, which was
accepted when it was saved.  Catalogs are stricter than that: a listener needs
an IP address and a port, and the name of a profile has a bound.  This file
proves that the migrated profile is valid exactly when its configuration
happens to meet these rules.
-/

namespace Veil.Control

open Lib

/-! ## What a client is made of -/

/-- `core.ClientConfig` -/
structure ClientConfig where
  secret : Text
  tls : Settings
  traffic : Option Mux.Profile
  maxConnections : Int
  maxIdle : Int
  handshakeTimeout : Int
  dialTimeout : Int
  idleTimeout : Int
  poolTimeout : Int
  server : Text

namespace Config

/-- What `New` hands to `core.NewClient`. -/
def clientConfig (c : Config) : ClientConfig where
  secret := c.secret
  tls := c.tls
  traffic := c.traffic
  maxConnections := c.maxConnections
  maxIdle := c.maxIdle
  handshakeTimeout := c.handshakeSeconds
  dialTimeout := c.dialSeconds
  idleTimeout := c.idleSeconds
  poolTimeout := c.poolSeconds
  server := c.server

/-- A configuration of a client without target. -/
structure Untargeted (c : Config) : Prop where
  role : c.role = "client".toList
  target : c.target = []

/-- A configuration as that of a client in a profile. -/
def inProfile (c : Config) : Config :=
  { c with
    role := "client".toList
    target := []
    inbound := []
    listen := "127.0.0.1:0".toList }

end Config

/-- Clients without target are built by `core.NewClient` alone: where they
listen and which protocols they accept plays no part. -/
def BuildsClients (build : Config → Option Problem)
    (newClient : ClientConfig → Option Problem) : Prop :=
  ∀ c : Config, c.Untargeted → build c = newClient c.clientConfig

/-- A save of the manager accepts a configuration. -/
def Accepts (build : Config → Option Problem) (c : Config) : Prop :=
  ∃ b p, parse build b true = .ok p ∧ p.config = c

/-- A configuration that listens on an IP address and a port that is fixed,
with a server that is short enough for a name. -/
structure Migratable (c : Config) : Prop where
  host : ∀ host port, splitHostPort c.listen = some (host, port) →
    (parseIP host).isSome
  port : ∀ host port, splitHostPort c.listen = some (host, port) →
    atoi port ≠ some 0
  server : c.server.bytes ≤ 120

/-! ## What was accepted -/

theorem validate_of_accepts {build : Config → Option Problem} {c : Config}
    (accepted : Accepts build c) :
    c.defaults = .ok c ∧ c.validate build = .ok () := by
  obtain ⟨b, p, parsed, rfl⟩ := accepted
  have filled := (parse_spec parsed).1
  constructor
  · exact filled
  · unfold parse at parsed
    obtain ⟨config, _, checked⟩ := bind_eq_ok.mp parsed
    obtain ⟨_, valid, written⟩ := bind_eq_ok.mp checked
    unfold Config.normalized at written
    split_ifs at written
    · simp [fail] at written
    · obtain rfl := Except.ok.inj written
      exact valid

/-- A configuration with its defaults that is valid is accepted as it is
written. -/
theorem accepts_of_validate {build : Config → Option Problem} {c : Config}
    (filled : c.defaults = .ok c) (valid : c.validate build = .ok ())
    (small : c.marshal.bytes ≤ maxConfigSize) : Accepts build c := by
  have read := Config.parse_marshal filled small
  refine ⟨c.marshal, ⟨c, c.marshal, Sha256.sum c.marshal⟩, ?_, rfl⟩
  simp only [parse, read, bind, Except.bind, Config.validateIf, if_true, valid,
    Config.normalized, if_neg (Nat.not_lt.mpr small)]

/-- The endpoint of a configuration has a port number. -/
def Numbered (address : Text) (zero : Bool) : Prop :=
  ∃ host port number, splitHostPort address = some (host, port) ∧
    atoi port = some number ∧ 0 ≤ number ∧ number ≤ 65535 ∧
    (zero = false → number ≠ 0 ∧ host ≠ [])

theorem Config.checkPort_ok {name : String} {address : Text} {zero : Bool} :
    Config.checkPort name address zero = .ok () ↔ Numbered address zero := by
  unfold Config.checkPort Numbered
  cases split : splitHostPort address with
  | none => simp
  | some pair =>
      obtain ⟨host, port⟩ := pair
      simp only [Option.some.injEq, Prod.mk.injEq]
      cases read : atoi port with
      | none =>
          constructor
          · intro holds
            simp [fail] at holds
          · rintro ⟨_, _, number, ⟨rfl, rfl⟩, found, _⟩
            simp [read] at found
      | some number =>
          dsimp only
          split_ifs with bad
          · constructor
            · intro holds
              simp [fail] at holds
            · rintro ⟨_, _, value, ⟨rfl, rfl⟩, found, low, high, set⟩
              obtain rfl := Option.some.inj (read.symm.trans found)
              rcases bad with negative | large | ⟨off, missing⟩
              · omega
              · omega
              · rcases missing with isZero | empty
                · exact absurd isZero (set off).1
                · exact absurd empty (set off).2
          · rw [not_or, not_or, not_and, not_or] at bad
            obtain ⟨low, high, set⟩ := bad
            simp only [true_iff]
            exact ⟨host, port, number, ⟨rfl, rfl⟩, read, by omega, by omega,
              set⟩

theorem Config.new_ok {build : Config → Option Problem} {c d : Config}
    (filled : c.defaults = .ok c) :
    c.new build = .ok d ↔ build c = none ∧ d = c := by
  unfold new
  simp only [filled, bind, Except.bind]
  cases build c with
  | none => simp [pure, Except.pure, eq_comm]
  | some problem => simp

theorem Config.validate_ok {build : Config → Option Problem} {c : Config}
    (filled : c.defaults = .ok c) :
    c.validate build = .ok () ↔
      Numbered c.listen true ∧
      (c.role = "client".toList → Numbered c.server false) ∧
      build c = none := by
  have built : (do let _ ← c.new build : Result Unit) = .ok () ↔
      build c = none := by
    rw [bind_eq_ok]
    simp [new_ok filled, pure, Except.pure]
  unfold validate
  simp only [filled]
  rw [bind_eq_ok]
  simp only [Except.ok.injEq, exists_eq_left', seq_ok, checkPort_ok]
  split_ifs with client
  · simp only [seq_ok, checkPort_ok, built, client, true_implies]
  · simp only [built, client, false_implies, true_and]

/-! ## The configuration in the profile -/

theorem Config.filled_of_defaults {c : Config} (filled : c.defaults = .ok c) :
    c.filled = c ∧ c.checkTraffic = .ok () ∧ c.check = .ok () := by
  obtain ⟨same, traffic, checked⟩ := defaults_eq filled
  rw [← same] at checked
  exact ⟨same.symm, traffic, checked⟩

theorem Config.check_ok {c : Config} :
    c.check = .ok () ↔
      c.checkLimits = .ok () ∧ c.checkRole = .ok () ∧
      c.checkTarget = .ok () ∧ c.checkInbound = .ok () ∧
      c.checkFallback = .ok () ∧ decodeKey c.secret = .ok () := by
  unfold check
  simp only [seq_ok]

/-- The configuration of a client keeps its defaults in a profile. -/
theorem defaults_inProfile {c : Config} (filled : c.defaults = .ok c)
    (client : c.Untargeted) : c.inProfile.defaults = .ok c.inProfile := by
  obtain ⟨same, traffic, checked⟩ := Config.filled_of_defaults filled
  obtain ⟨limits, role, _, _, fallback, key⟩ := Config.check_ok.mp checked
  have kept : c.inProfile.filled = c.inProfile := by
    have listens : c.inProfile.listen ≠ [] := by simp [Config.inProfile]
    simp only [Config.filled, if_neg listens]
    rw [← same]
    simp only [Config.filled, Config.inProfile,
      Config.orElse_orElse]
  have accepted : c.inProfile.check = .ok () := by
    rw [Config.check_ok]
    unfold Config.checkRole at role
    unfold Config.checkFallback at fallback
    rw [client.role] at role fallback
    exact ⟨limits, role, rfl, rfl, fallback, key⟩
  have budget : c.inProfile.checkTraffic = .ok () := traffic
  unfold Config.defaults
  rw [kept, budget, accepted]
  rfl

/-- What the manager accepted is accepted in a profile. -/
theorem validate_inProfile {build : Config → Option Problem}
    {newClient : ClientConfig → Option Problem}
    (builds : BuildsClients build newClient) {c : Config}
    (filled : c.defaults = .ok c) (client : c.Untargeted)
    (valid : c.validate build = .ok ()) :
    c.inProfile.validate build = .ok () := by
  obtain ⟨_, server, built⟩ := (Config.validate_ok filled).mp valid
  rw [Config.validate_ok (defaults_inProfile filled client)]
  refine ⟨?_, fun _ => server client.role, ?_⟩
  · show Numbered "127.0.0.1:0".toList true
    exact ⟨"127.0.0.1".toList, "0".toList, 0, by decide, by decide, by decide,
      by decide, fun fixed => by simp at fixed⟩
  · have same : c.inProfile.clientConfig = c.clientConfig := rfl
    rw [builds c.inProfile ⟨rfl, rfl⟩, same, ← builds c client]
    exact built

theorem serverPort_of_numbered {server : Text}
    (numbered : Numbered server false) : serverPort server = true := by
  obtain ⟨host, port, number, split, read, _⟩ := numbered
  have written : port ≠ [] := by
    rintro rfl
    simp [atoi, decimal] at read
  simp [serverPort, split, written]

theorem localAddress_iff {listen : Text} (numbered : Numbered listen true) :
    localAddress listen = true ↔
      (∀ host port, splitHostPort listen = some (host, port) →
        (parseIP host).isSome) ∧
      ∀ host port, splitHostPort listen = some (host, port) →
        atoi port ≠ some 0 := by
  obtain ⟨host, port, number, split, read, low, high, _⟩ := numbered
  have known : localAddress listen = true ↔
      (parseIP host).isSome ∧ number ≠ 0 := by
    unfold localAddress
    simp only [split, read]
    cases parseIP host with
    | none => simp
    | some ip =>
        simp only [Bool.and_eq_true, decide_eq_true_eq, Option.isSome_some,
          true_and]
        omega
  rw [known]
  constructor
  · rintro ⟨literal, fixed⟩
    constructor
    · intro _ _ same
      obtain ⟨rfl, rfl⟩ := Prod.mk.inj (Option.some.inj (split.symm.trans same))
      exact literal
    · intro _ _ same zero
      obtain ⟨rfl, rfl⟩ := Prod.mk.inj (Option.some.inj (split.symm.trans same))
      exact fixed (Option.some.inj (read.symm.trans zero))
  · rintro ⟨literal, fixed⟩
    constructor
    · exact literal host port split
    · rintro rfl
      exact fixed host port split read

/-! ## The migrated profile -/

namespace Catalog

theorem proxyProtocol_inbound {c : Config} (checked : c.checkInbound = .ok ()) :
    proxyProtocol (if c.inbound = [] then "socks".toList else c.inbound) =
      true := by
  unfold Config.checkInbound at checked
  split_ifs at checked with absent misplaced unknown
  · rw [if_pos absent]
    decide
  · simp [fail] at checked
  · simp [fail] at checked
  · rw [if_neg absent]
    unfold proxyProtocol
    simp only [Bool.or_eq_true, decide_eq_true_eq]
    tauto

/-- Among itself alone the migrated profile belongs as far as its listener is
local and its name is not too long. -/
theorem belongs_migrated {c : Config} (filled : c.defaults = .ok c)
    (client : c.Untargeted) :
    Belongs ((∅ : Profiles).insert (migrated c).id (migrated c)) (migrated c) ↔
      localAddress c.listen = true ∧ c.server.bytes ≤ 120 := by
  obtain ⟨_, _, checked⟩ := Config.filled_of_defaults filled
  obtain ⟨_, role, _, inbound, _, _⟩ := Config.check_ok.mp checked
  constructor
  · intro belongs
    exact ⟨(belongs.proper _ (List.mem_singleton_self _)).2, belongs.name.2⟩
  · rintro ⟨local_, short⟩
    have named : c.server ≠ [] := by
      rintro none
      unfold Config.checkRole at role
      simp [client.role, none, fail] at role
    exact
      { id := (by decide : profileID "default".toList = true)
        name := ⟨named, short⟩
        room := .inl (by simp)
        kind := .inl rfl
        kept := fun old stored => by
          rw [AList.lookup_insert] at stored
          rw [← Option.some.inj stored]
        relay := fun isRelay => absurd isRelay.symm relay_ne_connection
        uses := fun named => absurd rfl named
        few := (by decide : 1 ≤ 8)
        enabled := fun _ => List.cons_ne_nil _ _
        proper := by
          intro a listens
          obtain rfl := List.mem_singleton.mp listens
          exact ⟨proxyProtocol_inbound inbound, local_⟩
        apart := List.pairwise_singleton _ _
        others := by
          intro a _ id other stored distinct
          rw [AList.lookup_insert_ne distinct] at stored
          simp at stored }

/-- A migration that stores a profile stores it alone. -/
theorem migrate_stores {h : Host} {c : Catalog}
    (upright : c.Upright) (absent : c.file = none) {cfg : Saved}
    {p : Profile}
    (stored : (c.migrate h (some cfg) none).1.profiles.lookup
      "default".toList = some p) :
    p = migrated cfg.1 ∧
      (c.migrate h (some cfg) none).1.profiles =
        (∅ : Profiles).insert (migrated cfg.1).id (migrated cfg.1) := by
  have nothing := upright.empty absent
  rcases migrate_follows upright.empty with quiet | ⟨next, proposed, writes⟩
  · rw [quiet.profiles, nothing] at stored
    simp at stored
  · unfold proposesMigrated at proposed
    split_ifs at proposed
    · obtain ⟨other, isSaved, proposed⟩ := Option.bind_eq_some_iff.mp proposed
      split_ifs at proposed
      obtain rfl := Option.some.inj isSaved
      obtain rfl := Option.some.inj proposed
      rw [nothing] at writes
      rw [writes.profiles] at stored
      rw [show "default".toList = (migrated cfg.1).id from rfl,
        AList.lookup_insert] at stored
      exact ⟨(Option.some.inj stored).symm, writes.profiles⟩

/--
The profile that is stored by a migration is valid among the stored profiles,
if every listener can be bound, exactly when its configuration listens on an
IP address and a port that is fixed, under a server of at most 120 bytes.
-/
theorem migration_valid {h w : Host}
    {newClient : ClientConfig → Option Problem}
    (builds : BuildsClients h.build newClient)
    (binds : ∀ address, h.probe address = none)
    {c : Catalog} (reached : machine.Reachable c) (absent : c.file = none)
    {cfg : Saved} (accepted : Accepts h.build cfg.1)
    (client : cfg.1.Untargeted) {p : Profile}
    (stored : (c.migrate w (some cfg) none).1.profiles.lookup
      "default".toList = some p) :
    (∃ q, validate h (c.migrate w (some cfg) none).1.profiles
      ((c.migrate w (some cfg) none).1.owned p.id) p = .ok q) ↔
      Migratable cfg.1 := by
  obtain ⟨rfl, alone⟩ := migrate_stores (upright_reachable reached) absent stored
  obtain ⟨filled, valid⟩ := validate_of_accepts accepted
  obtain ⟨numbered, server, _⟩ := (Config.validate_ok filled).mp valid
  have usable : Usable h ((c.migrate w (some cfg) none).1.owned
      (migrated cfg.1).id) (migrated cfg.1) cfg.1.inProfile :=
    { filled := defaults_inProfile filled client
      valid := validate_inProfile builds filled client valid
      server := serverPort_of_numbered (server client.role)
      bindable := fun a _ => .inr (binds a.listen) }
  rw [alone]
  simp only [validate_ok]
  constructor
  · rintro ⟨_, belongs, _⟩
    obtain ⟨listens, short⟩ := (belongs_migrated filled client).mp belongs
    obtain ⟨host, port⟩ := (localAddress_iff numbered).mp listens
    exact ⟨host, port, short⟩
  · intro migratable
    have belongs := (belongs_migrated filled client).mpr
      ⟨(localAddress_iff numbered).mpr ⟨migratable.host, migratable.port⟩,
        migratable.server⟩
    exact ⟨_, belongs, _, usable, rfl⟩

/-! ## A listener on every address -/

/-- A client that was saved with its defaults. -/
def sampleClient (listen : String) : Config :=
  { sampleConfig "192.0.2.2:443" with
    role := "client".toList, listen := listen.toList }.filled

theorem defaults_sampleClient (listen : String) :
    (sampleClient listen).defaults = .ok (sampleClient listen) := by
  apply Config.defaults_defaults
    (c := { sampleConfig "192.0.2.2:443" with
      role := "client".toList, listen := listen.toList })
  rfl

def savedClient (listen : String) : Saved :=
  ⟨sampleClient listen, defaults_sampleClient listen⟩

/-- A catalog after the migration of a client into an empty store. -/
def migratedClient (listen : String) : Catalog :=
  (migrate calmHost {} (some (savedClient listen)) none).1

theorem migration_valid_local :
    (∃ q, validate calmHost (migratedClient "127.0.0.1:1080").profiles
      ((migratedClient "127.0.0.1:1080").owned
        (migrated (savedClient "127.0.0.1:1080").1).id)
      (migrated (savedClient "127.0.0.1:1080").1) = .ok q) ↔
      Migratable (savedClient "127.0.0.1:1080").1 := by
  have accepted : Accepts calmHost.build (savedClient "127.0.0.1:1080").1 := by
    apply accepts_of_validate (savedClient "127.0.0.1:1080").2
    · decide +kernel
    · decide +kernel
  have stored : (migratedClient "127.0.0.1:1080").profiles.lookup
      "default".toList = some (migrated (savedClient "127.0.0.1:1080").1) := by
    decide +kernel
  have builds : BuildsClients calmHost.build fun _ => none := fun _ _ => rfl
  have binds : ∀ address, calmHost.probe address = none := fun _ => rfl
  have reached : machine.Reachable {} := .start rfl
  have client : (savedClient "127.0.0.1:1080").1.Untargeted := ⟨rfl, rfl⟩
  unfold migratedClient at stored ⊢
  exact migration_valid builds binds reached rfl accepted client stored

/-- A client that listens on every address is saved, and its migrated profile
can neither be started nor edited. -/
theorem migration_refused :
    Accepts calmHost.build (sampleClient ":1080") ∧
      (sampleClient ":1080").Untargeted ∧
      (migratedClient ":1080").profiles.lookup "default".toList =
        some (migrated (sampleClient ":1080")) ∧
      ∀ owned q, validate calmHost (migratedClient ":1080").profiles owned
        (migrated (sampleClient ":1080")) ≠ .ok q := by
  have accepted : Accepts calmHost.build (sampleClient ":1080") := by
    apply accepts_of_validate (defaults_sampleClient _)
    · decide +kernel
    · decide +kernel
  refine ⟨accepted, ⟨rfl, rfl⟩, ?_, ?_⟩
  · decide +kernel
  · intro owned q valid
    have belongs := (validate_ok.mp valid).1
    have listens := (belongs.proper _ (List.mem_singleton_self _)).2
    revert listens
    decide

end Catalog

end Veil.Control

import Veil.Control.Config

/-!
# Configurations as JSON

Each structure is written member by member under its names and read back by
`Config.read`, which refuses unknown members.  A negative bound of a traffic
range, which no profile may have, is refused where it is read.
-/

namespace Veil.Control

open Lib

/-- A text that is left out when it is empty. -/
def textOrNone (text : Text) : Option Json :=
  if text = [] then none else some (.str text)

/-- A text that may be left out is read back. -/
theorem readMembers_text {ι σ : Type} {ofName : Text → Option ι}
    {set : ι → Json → σ → Option σ} {name : Text} {field : ι}
    (update : Text → σ → σ) {text : Text} {members : List (Text × Json)}
    {state : σ} (isName : ofName name = some field)
    (isSet : ∀ text, set field (.str text) state = some (update text state))
    (empty : update [] state = state) :
    Json.readMembers ofName set
        (Json.optional name (textOrNone text) ++ members) state =
      Json.readMembers ofName set members (update text state) := by
  apply Json.readMembers_optional update isName
  · intro absent
    unfold textOrNone at absent
    split_ifs at absent with isEmpty
    rw [isEmpty, empty]
  · intro written present
    unfold textOrNone at present
    split_ifs at present
    obtain rfl := Option.some.inj present
    exact isSet text

/-! ## Transport settings -/

inductive SettingsField where
  | mode | serverName | certificate | privateKeyFile | caFile | caPEM
  | realityPrivateKey | realityPublicKey | shortID | coverAddress
  | fingerprint | fingerprints | recordPadding
  deriving DecidableEq

namespace SettingsField

def name : SettingsField → Text
  | mode => "mode".toList
  | serverName => "server_name".toList
  | certificate => "certificate".toList
  | privateKeyFile => "private_key_file".toList
  | caFile => "ca_file".toList
  | caPEM => "ca_pem".toList
  | realityPrivateKey => "reality_private_key".toList
  | realityPublicKey => "reality_public_key".toList
  | shortID => "short_id".toList
  | coverAddress => "cover_address".toList
  | fingerprint => "fingerprint".toList
  | fingerprints => "fingerprints".toList
  | recordPadding => "record_padding".toList

def ofName : Text → Option SettingsField :=
  Json.named [mode, serverName, certificate, privateKeyFile, caFile, caPEM,
    realityPrivateKey, realityPublicKey, shortID, coverAddress, fingerprint,
    fingerprints, recordPadding] name

theorem ofName_name (field : SettingsField) :
    ofName field.name = some field := by
  cases field <;> decide +kernel

end SettingsField

namespace Settings

def json (s : Settings) : Json :=
  .obj ((SettingsField.mode.name, .str s.mode) ::
    (SettingsField.serverName.name, .str s.serverName) ::
    (SettingsField.certificate.name, .str s.certificate) ::
    (SettingsField.privateKeyFile.name, .str s.privateKeyFile) ::
    (SettingsField.caFile.name, .str s.caFile) ::
    (Json.optional SettingsField.caPEM.name (textOrNone s.caPEM) ++
      [(SettingsField.realityPrivateKey.name, .str s.realityPrivateKey),
        (SettingsField.realityPublicKey.name, .str s.realityPublicKey),
        (SettingsField.shortID.name, .str s.shortID),
        (SettingsField.coverAddress.name, .str s.coverAddress),
        (SettingsField.fingerprint.name, .str s.fingerprint),
        (SettingsField.fingerprints.name, Json.listJson .str s.fingerprints),
        (SettingsField.recordPadding.name, .bool s.recordPadding)]))

def set (field : SettingsField) (json : Json) (s : Settings) :
    Option Settings :=
  match field with
  | .mode => (Json.readText json s.mode).map ({ s with mode := · })
  | .serverName =>
      (Json.readText json s.serverName).map ({ s with serverName := · })
  | .certificate =>
      (Json.readText json s.certificate).map ({ s with certificate := · })
  | .privateKeyFile =>
      (Json.readText json s.privateKeyFile).map
        ({ s with privateKeyFile := · })
  | .caFile => (Json.readText json s.caFile).map ({ s with caFile := · })
  | .caPEM => (Json.readText json s.caPEM).map ({ s with caPEM := · })
  | .realityPrivateKey =>
      (Json.readText json s.realityPrivateKey).map
        ({ s with realityPrivateKey := · })
  | .realityPublicKey =>
      (Json.readText json s.realityPublicKey).map
        ({ s with realityPublicKey := · })
  | .shortID => (Json.readText json s.shortID).map ({ s with shortID := · })
  | .coverAddress =>
      (Json.readText json s.coverAddress).map ({ s with coverAddress := · })
  | .fingerprint =>
      (Json.readText json s.fingerprint).map ({ s with fingerprint := · })
  | .fingerprints =>
      (Json.readList Json.readText [] json s.fingerprints).map
        ({ s with fingerprints := · })
  | .recordPadding =>
      (Json.readBool json s.recordPadding).map ({ s with recordPadding := · })

def read : Json → Settings → Option Settings :=
  Json.readStruct SettingsField.ofName set

theorem set_fingerprints (list : Option (List Text)) (s : Settings) :
    set .fingerprints (Json.listJson .str list) s =
      some { s with fingerprints := list } := by
  have texts : Json.readList Json.readText [] (Json.listJson .str list)
      s.fingerprints = some list :=
    Json.readList_listJson fun _ _ _ _ => rfl
  simp [set, texts]

/-- Transport settings are read back. -/
theorem read_json (s : Settings) : read s.json {} = some s := by
  have member := SettingsField.ofName_name
  simp only [read, json, Json.readStruct]
  rw [Json.readMembers_cons (member .mode) rfl,
    Json.readMembers_cons (member .serverName) rfl,
    Json.readMembers_cons (member .certificate) rfl,
    Json.readMembers_cons (member .privateKeyFile) rfl,
    Json.readMembers_cons (member .caFile) rfl,
    readMembers_text (fun text s => { s with caPEM := text })
      (member .caPEM) (fun _ => rfl) rfl,
    Json.readMembers_cons (member .realityPrivateKey) rfl,
    Json.readMembers_cons (member .realityPublicKey) rfl,
    Json.readMembers_cons (member .shortID) rfl,
    Json.readMembers_cons (member .coverAddress) rfl,
    Json.readMembers_cons (member .fingerprint) rfl,
    Json.readMembers_cons (member .fingerprints) (set_fingerprints _ _),
    Json.readMembers_cons (member .recordPadding) rfl, Json.readMembers]

end Settings

/-! ## Fallbacks -/

inductive HTTPSField where
  | address | serverName | caFile | http2
  deriving DecidableEq

namespace HTTPSField

def name : HTTPSField → Text
  | address => "address".toList
  | serverName => "server_name".toList
  | caFile => "ca_file".toList
  | http2 => "http2".toList

def ofName : Text → Option HTTPSField :=
  Json.named [address, serverName, caFile, http2] name

theorem ofName_name (field : HTTPSField) :
    ofName field.name = some field := by
  cases field <;> decide +kernel

end HTTPSField

namespace HTTPSFallback

/-- A switch that is left out when it is off. -/
def switch (value : Bool) : Option Json :=
  if value then some (.bool true) else none

def json (s : HTTPSFallback) : Json :=
  .obj ((HTTPSField.address.name, .str s.address) ::
    (HTTPSField.serverName.name, .str s.serverName) ::
    (Json.optional HTTPSField.caFile.name (textOrNone s.caFile) ++
      (Json.optional HTTPSField.http2.name (switch s.http2) ++ [])))

def set (field : HTTPSField) (json : Json) (s : HTTPSFallback) :
    Option HTTPSFallback :=
  match field with
  | .address => (Json.readText json s.address).map ({ s with address := · })
  | .serverName =>
      (Json.readText json s.serverName).map ({ s with serverName := · })
  | .caFile => (Json.readText json s.caFile).map ({ s with caFile := · })
  | .http2 => (Json.readBool json s.http2).map ({ s with http2 := · })

def read : Json → HTTPSFallback → Option HTTPSFallback :=
  Json.readStruct HTTPSField.ofName set

theorem read_json (s : HTTPSFallback) : read s.json {} = some s := by
  have member := HTTPSField.ofName_name
  simp only [read, json, Json.readStruct]
  rw [Json.readMembers_cons (member .address) rfl,
    Json.readMembers_cons (member .serverName) rfl,
    readMembers_text (fun text s => { s with caFile := text })
      (member .caFile) (fun _ => rfl) rfl,
    Json.readMembers_optional (fun value s => { s with http2 := value })
      (member .http2)]
  · rfl
  · cases s.http2 <;> simp [switch]
  · cases s.http2 with
    | false => simp [switch]
    | true =>
        rintro written ⟨⟩
        rfl

end HTTPSFallback

inductive FallbackField where
  | http1 | h2c | https
  deriving DecidableEq

namespace FallbackField

def name : FallbackField → Text
  | http1 => "http1".toList
  | h2c => "h2c".toList
  | https => "https".toList

def ofName : Text → Option FallbackField :=
  Json.named [http1, h2c, https] name

theorem ofName_name (field : FallbackField) :
    ofName field.name = some field := by
  cases field <;> decide +kernel

end FallbackField

namespace HTTPFallback

def json (s : HTTPFallback) : Json :=
  .obj (Json.optional FallbackField.http1.name (textOrNone s.http1) ++
    (Json.optional FallbackField.h2c.name (textOrNone s.h2c) ++
      (Json.optional FallbackField.https.name
        (s.https.map HTTPSFallback.json) ++ [])))

def set (field : FallbackField) (json : Json) (s : HTTPFallback) :
    Option HTTPFallback :=
  match field with
  | .http1 => (Json.readText json s.http1).map ({ s with http1 := · })
  | .h2c => (Json.readText json s.h2c).map ({ s with h2c := · })
  | .https =>
      (Json.readOptional HTTPSFallback.read {} json s.https).map
        ({ s with https := · })

def read : Json → HTTPFallback → Option HTTPFallback :=
  Json.readStruct FallbackField.ofName set

theorem read_json (s : HTTPFallback) : read s.json {} = some s := by
  have member := FallbackField.ofName_name
  simp only [read, json, Json.readStruct]
  rw [readMembers_text (fun text s => { s with http1 := text })
      (member .http1) (fun _ => rfl) rfl,
    readMembers_text (fun text s => { s with h2c := text })
      (member .h2c) (fun _ => rfl) rfl,
    Json.readMembers_optional (fun value s => { s with https := value })
      (member .https)]
  · rfl
  · intro absent
    simp [Option.map_eq_none_iff.mp absent]
  · intro written present
    obtain ⟨https, same, rfl⟩ := Option.map_eq_some_iff.mp present
    have inner := HTTPSFallback.read_json https
    have notNull : ∀ old, Json.readOptional HTTPSFallback.read {} https.json
        old = (HTTPSFallback.read https.json (old.getD {})).map some :=
      fun _ => rfl
    simp [set, notNull, inner, same]

end HTTPFallback

/-! ## Traffic profiles -/

inductive RangeField where
  | min | max
  deriving DecidableEq

namespace RangeField

def name : RangeField → Text
  | min => "min".toList
  | max => "max".toList

def ofName : Text → Option RangeField :=
  Json.named [min, max] name

theorem ofName_name (field : RangeField) :
    ofName field.name = some field := by
  cases field <;> decide +kernel

end RangeField

def readNat : Json → Nat → Option Nat
  | .null, old => some old
  | .num (.ofNat value), _ => if value < 2 ^ 63 then some value else none
  | _, _ => none

theorem readNat_num {value old : Nat} (fits : value < 2 ^ 63) :
    readNat (.num (.ofNat value)) old = some value := by
  simp only [readNat]
  rw [if_pos fits]

def rangeJson (range : Mux.Range) : Json :=
  .obj [(RangeField.min.name, .num (.ofNat range.min)),
    (RangeField.max.name, .num (.ofNat range.max))]

def setRange (field : RangeField) (json : Json) (range : Mux.Range) :
    Option Mux.Range :=
  match field with
  | .min => (readNat json range.min).map ({ range with min := · })
  | .max => (readNat json range.max).map ({ range with max := · })

def readRange : Json → Mux.Range → Option Mux.Range :=
  Json.readStruct RangeField.ofName setRange

/-- Both bounds of a range are integers of the program. -/
def Fits (range : Mux.Range) : Prop :=
  range.min < 2 ^ 63 ∧ range.max < 2 ^ 63

theorem readRange_json {range : Mux.Range} (fits : Fits range)
    (old : Mux.Range) : readRange (rangeJson range) old = some range := by
  have member := RangeField.ofName_name
  have first : setRange .min (.num (.ofNat range.min)) old =
      some { old with min := range.min } := by
    simp only [setRange, readNat_num fits.1, Option.map_some]
  have second : setRange .max (.num (.ofNat range.max))
      { old with min := range.min } = some range := by
    simp only [setRange, readNat_num fits.2, Option.map_some]
  simp only [readRange, rangeJson, Json.readStruct]
  rw [Json.readMembers_cons (member .min) first,
    Json.readMembers_cons (member .max) second, Json.readMembers]

inductive TrafficField where
  | version | quantum | startupSize | startupWrites | paddingLimit
  | paddingBudget | creditBlocks | controlPadding
  deriving DecidableEq

namespace TrafficField

def name : TrafficField → Text
  | version => "version".toList
  | quantum => "quantum_bytes".toList
  | startupSize => "startup_bytes".toList
  | startupWrites => "startup_writes".toList
  | paddingLimit => "padding_limit".toList
  | paddingBudget => "padding_budget".toList
  | creditBlocks => "credit_blocks".toList
  | controlPadding => "control_padding_limit".toList

def ofName : Text → Option TrafficField :=
  Json.named [version, quantum, startupSize, startupWrites, paddingLimit,
    paddingBudget, creditBlocks, controlPadding] name

theorem ofName_name (field : TrafficField) :
    ofName field.name = some field := by
  cases field <;> decide +kernel

end TrafficField

def noTraffic : Mux.Profile :=
  ⟨0, ⟨0, 0⟩, ⟨0, 0⟩, ⟨0, 0⟩, ⟨0, 0⟩, ⟨0, 0⟩, ⟨0, 0⟩, ⟨0, 0⟩⟩

def trafficJson (p : Mux.Profile) : Json :=
  .obj [(TrafficField.version.name, .num (.ofNat p.version)),
    (TrafficField.quantum.name, rangeJson p.quantum),
    (TrafficField.startupSize.name, rangeJson p.startupSize),
    (TrafficField.startupWrites.name, rangeJson p.startupWrites),
    (TrafficField.paddingLimit.name, rangeJson p.paddingLimit),
    (TrafficField.paddingBudget.name, rangeJson p.paddingBudget),
    (TrafficField.creditBlocks.name, rangeJson p.creditBlocks),
    (TrafficField.controlPadding.name, rangeJson p.controlPadding)]

def setTraffic (field : TrafficField) (json : Json) (p : Mux.Profile) :
    Option Mux.Profile :=
  match field with
  | .version => (readNat json p.version).map ({ p with version := · })
  | .quantum => (readRange json p.quantum).map ({ p with quantum := · })
  | .startupSize =>
      (readRange json p.startupSize).map ({ p with startupSize := · })
  | .startupWrites =>
      (readRange json p.startupWrites).map ({ p with startupWrites := · })
  | .paddingLimit =>
      (readRange json p.paddingLimit).map ({ p with paddingLimit := · })
  | .paddingBudget =>
      (readRange json p.paddingBudget).map ({ p with paddingBudget := · })
  | .creditBlocks =>
      (readRange json p.creditBlocks).map ({ p with creditBlocks := · })
  | .controlPadding =>
      (readRange json p.controlPadding).map ({ p with controlPadding := · })

def readTraffic : Json → Mux.Profile → Option Mux.Profile :=
  Json.readStruct TrafficField.ofName setTraffic

/-- A profile that passes its check has small bounds. -/
theorem fits_of_within {range : Mux.Range} {low high : Nat}
    (within : Mux.Profile.within range low high = true)
    (small : high < 2 ^ 63) : Fits range := by
  simp only [Mux.Profile.within, Bool.and_eq_true, decide_eq_true_eq] at within
  constructor <;> omega

theorem readTraffic_json {p : Mux.Profile} (valid : p.validate = true) :
    readTraffic (trafficJson p) noTraffic = some p := by
  simp only [Mux.Profile.validate, Bool.and_eq_true, beq_iff_eq] at valid
  obtain ⟨⟨⟨⟨⟨⟨⟨version, quantum⟩, size⟩, writes⟩, limit⟩, budget⟩, credit⟩,
    control⟩ := valid
  have member := TrafficField.ofName_name
  have reads {range : Mux.Range} {low high : Nat}
      (within : Mux.Profile.within range low high = true)
      (small : high < 2 ^ 63) (old : Mux.Range) :
      readRange (rangeJson range) old = some range :=
    readRange_json (fits_of_within within small) old
  have fields (field : TrafficField) (json : Json) (old : Mux.Profile)
      (next : Mux.Profile) (isSet : setTraffic field json old = some next)
      (members : List (Text × Json)) :
      Json.readMembers TrafficField.ofName setTraffic
          ((field.name, json) :: members) old =
        Json.readMembers TrafficField.ofName setTraffic members next :=
    Json.readMembers_cons (member field) isSet
  simp only [readTraffic, trafficJson, Json.readStruct]
  rw [fields .version _ _ { noTraffic with version := p.version }
      (by simp only [setTraffic, readNat_num (by omega : p.version < 2 ^ 63),
        Option.map_some])]
  simp only [Json.readMembers, member, setTraffic, Option.bind_eq_bind,
    Option.bind_some, reads quantum (by decide), reads size (by decide),
    reads writes (by decide), reads limit (by decide),
    reads budget (by decide), reads credit (by decide),
    reads control (by decide), Option.map_some]

/-! ## Configurations -/

inductive ConfigField where
  | role | listen | server | target | inbound | secret | tls | httpFallback
  | traffic | maxConnections | maxIdle | handshakeSeconds | dialSeconds
  | idleSeconds | poolSeconds
  deriving DecidableEq

namespace ConfigField

def name : ConfigField → Text
  | role => "role".toList
  | listen => "listen".toList
  | server => "server".toList
  | target => "target".toList
  | inbound => "inbound".toList
  | secret => "secret".toList
  | tls => "tls".toList
  | httpFallback => "http_fallback".toList
  | traffic => "traffic".toList
  | maxConnections => "max_connections".toList
  | maxIdle => "max_idle".toList
  | handshakeSeconds => "handshake_seconds".toList
  | dialSeconds => "dial_seconds".toList
  | idleSeconds => "idle_seconds".toList
  | poolSeconds => "pool_seconds".toList

def ofName : Text → Option ConfigField :=
  Json.named [role, listen, server, target, inbound, secret, tls, httpFallback,
    traffic, maxConnections, maxIdle, handshakeSeconds, dialSeconds,
    idleSeconds, poolSeconds] name

theorem ofName_name (field : ConfigField) :
    ofName field.name = some field := by
  cases field <;> decide +kernel

end ConfigField

namespace Config

/-- The members that a profile may lack, and the numbers after them. -/
def options (c : Config) : List (Text × Json) :=
  Json.optional ConfigField.httpFallback.name
      (c.httpFallback.map HTTPFallback.json) ++
    (Json.optional ConfigField.traffic.name (c.traffic.map trafficJson) ++
      [(ConfigField.maxConnections.name, .num c.maxConnections),
        (ConfigField.maxIdle.name, .num c.maxIdle),
        (ConfigField.handshakeSeconds.name, .num c.handshakeSeconds),
        (ConfigField.dialSeconds.name, .num c.dialSeconds),
        (ConfigField.idleSeconds.name, .num c.idleSeconds),
        (ConfigField.poolSeconds.name, .num c.poolSeconds)])

def json (c : Config) : Json :=
  .obj ((ConfigField.role.name, .str c.role) ::
    (ConfigField.listen.name, .str c.listen) ::
    (ConfigField.server.name, .str c.server) ::
    (Json.optional ConfigField.target.name (textOrNone c.target) ++
      (Json.optional ConfigField.inbound.name (textOrNone c.inbound) ++
        ((ConfigField.secret.name, .str c.secret) ::
          (ConfigField.tls.name, c.tls.json) :: c.options))))

def set (field : ConfigField) (json : Json) (c : Config) : Option Config :=
  match field with
  | .role => (Json.readText json c.role).map ({ c with role := · })
  | .listen => (Json.readText json c.listen).map ({ c with listen := · })
  | .server => (Json.readText json c.server).map ({ c with server := · })
  | .target => (Json.readText json c.target).map ({ c with target := · })
  | .inbound => (Json.readText json c.inbound).map ({ c with inbound := · })
  | .secret => (Json.readText json c.secret).map ({ c with secret := · })
  | .tls => (Settings.read json c.tls).map ({ c with tls := · })
  | .httpFallback =>
      (Json.readOptional HTTPFallback.read {} json c.httpFallback).map
        ({ c with httpFallback := · })
  | .traffic =>
      (Json.readOptional readTraffic noTraffic json c.traffic).map
        ({ c with traffic := · })
  | .maxConnections =>
      (Json.readInt json c.maxConnections).map
        ({ c with maxConnections := · })
  | .maxIdle => (Json.readInt json c.maxIdle).map ({ c with maxIdle := · })
  | .handshakeSeconds =>
      (Json.readInt json c.handshakeSeconds).map
        ({ c with handshakeSeconds := · })
  | .dialSeconds =>
      (Json.readInt json c.dialSeconds).map ({ c with dialSeconds := · })
  | .idleSeconds =>
      (Json.readInt json c.idleSeconds).map ({ c with idleSeconds := · })
  | .poolSeconds =>
      (Json.readInt json c.poolSeconds).map ({ c with poolSeconds := · })

def read : Json → Config → Option Config :=
  Json.readStruct ConfigField.ofName set

/-- What a configuration needs to be read back: its numbers are integers of
the program and its traffic profile is a valid one. -/
structure Readable (c : Config) : Prop where
  traffic : ∀ p ∈ c.traffic, p.validate = true
  integers : ∀ value ∈ [c.maxConnections, c.maxIdle, c.handshakeSeconds,
    c.dialSeconds, c.idleSeconds, c.poolSeconds],
    -2 ^ 63 ≤ value ∧ value < 2 ^ 63

theorem set_tls (c : Config) (settings : Settings) (unset : c.tls = {}) :
    set .tls settings.json c = some { c with tls := settings } := by
  simp [set, unset, Settings.read_json]

theorem set_httpFallback (c : Config) (fallback : HTTPFallback)
    (unset : c.httpFallback = none) :
    set .httpFallback fallback.json c =
      some { c with httpFallback := some fallback } := by
  have notNull (old : Option HTTPFallback) :
      Json.readOptional HTTPFallback.read {} fallback.json old =
        (HTTPFallback.read fallback.json (old.getD {})).map some :=
    rfl
  simp [set, notNull, unset, HTTPFallback.read_json]

theorem set_traffic (c : Config) {profile : Mux.Profile}
    (valid : profile.validate = true) (unset : c.traffic = none) :
    set .traffic (trafficJson profile) c =
      some { c with traffic := some profile } := by
  have notNull (old : Option Mux.Profile) :
      Json.readOptional readTraffic noTraffic (trafficJson profile) old =
        (readTraffic (trafficJson profile) (old.getD noTraffic)).map some :=
    rfl
  simp [set, notNull, unset, readTraffic_json valid]

theorem readInt_num {value : Int} (old : Int)
    (fits : -2 ^ 63 ≤ value ∧ value < 2 ^ 63) :
    Json.readInt (.num value) old = some value := by
  simp only [Json.readInt]
  rw [if_pos fits]

/-- The last members are read back into a configuration that has neither
fallback nor traffic profile yet. -/
theorem readMembers_options {c : Config} (readable : c.Readable)
    (state : Config) (noFallback : state.httpFallback = none)
    (unprofiled : state.traffic = none) :
    Json.readMembers ConfigField.ofName set c.options state =
      some { state with
        httpFallback := c.httpFallback
        traffic := c.traffic
        maxConnections := c.maxConnections
        maxIdle := c.maxIdle
        handshakeSeconds := c.handshakeSeconds
        dialSeconds := c.dialSeconds
        idleSeconds := c.idleSeconds
        poolSeconds := c.poolSeconds } := by
  have member := ConfigField.ofName_name
  have integer := readable.integers
  simp only [List.forall_mem_cons, List.not_mem_nil, false_implies,
    implies_true, and_true] at integer
  obtain ⟨connections, idle, handshake, dial, idles, pool⟩ := integer
  unfold options
  rw [Json.readMembers_optional
      (fun value c => { c with httpFallback := value }) (member .httpFallback),
    Json.readMembers_optional
      (fun value c => { c with traffic := value }) (member .traffic)]
  · simp only [Json.readMembers, member, set, Option.bind_eq_bind,
      Option.bind_some, readInt_num _ connections, readInt_num _ idle,
      readInt_num _ handshake, readInt_num _ dial, readInt_num _ idles,
      readInt_num _ pool, Option.map_some]
  · intro absent
    rw [Option.map_eq_none_iff.mp absent, ← unprofiled]
  · intro written present
    obtain ⟨profile, same, rfl⟩ := Option.map_eq_some_iff.mp present
    rw [same]
    exact set_traffic _ (readable.traffic profile same) unprofiled
  · intro absent
    rw [Option.map_eq_none_iff.mp absent, ← noFallback]
  · intro written present
    obtain ⟨fallback, same, rfl⟩ := Option.map_eq_some_iff.mp present
    rw [same]
    exact set_httpFallback _ fallback noFallback

/-- Configurations are read back. -/
theorem read_json {c : Config} (readable : c.Readable) :
    read c.json {} = some c := by
  have member := ConfigField.ofName_name
  simp only [read, json, Json.readStruct]
  rw [Json.readMembers_cons (member .role) rfl,
    Json.readMembers_cons (member .listen) rfl,
    Json.readMembers_cons (member .server) rfl,
    readMembers_text (fun text c => { c with target := text })
      (member .target) (fun _ => rfl) rfl,
    readMembers_text (fun text c => { c with inbound := text })
      (member .inbound) (fun _ => rfl) rfl,
    Json.readMembers_cons (member .secret) rfl,
    Json.readMembers_cons (member .tls) (set_tls _ _ rfl)]
  exact readMembers_options readable _ rfl rfl

theorem readable_of_check {c : Config} (traffic : c.checkTraffic = .ok ())
    (limits : c.checkLimits = .ok ()) : c.Readable := by
  constructor
  · rintro profile present
    simp only [checkTraffic, Option.mem_def.mp present] at traffic
    split_ifs at traffic with version invalid
    · simp [fail] at traffic
    · simp [fail] at traffic
    · simpa using invalid
  · simp only [checkLimits] at limits
    split_ifs at limits with counts seconds
    · simp [fail] at limits
    · simp [fail] at limits
    · simp only [List.any_cons, List.any_nil, Bool.or_eq_true,
        decide_eq_true_eq, Bool.false_eq_true, or_false, not_or] at seconds
      simp only [List.forall_mem_cons, List.not_mem_nil, false_implies,
        implies_true, and_true]
      omega

/-- What `Defaults` accepts is read back. -/
theorem readable_of_defaults {c d : Config} (filled : c.defaults = .ok d) :
    d.Readable := by
  obtain ⟨rfl, traffic, checked⟩ := defaults_eq filled
  apply readable_of_check
  · exact traffic
  · simp only [check, bind, Except.bind] at checked
    split at checked
    next => simp at checked
    next limits => exact limits

end Config

end Veil.Control

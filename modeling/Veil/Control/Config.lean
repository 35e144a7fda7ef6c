import Veil.Lib.Address
import Veil.Mux.Profile

/-!
# Configurations

`service.Config` with the defaults it is given and the checks it has to pass.
Whether a configuration that passes them can be put to use depends on the
transport and on certificate files; `build` stands for that answer.
-/

namespace Veil.Control

open Lib

/-- An error value; `library` is one that a library or the system made and
`joined` is made of two. -/
inductive Problem where
  | message (text : Text)
  | within (context : Text) (cause : Problem)
  | library (text : Text)
  | joined (first second : Problem)
  deriving DecidableEq

abbrev Result := Except Problem

def fail {α : Type} (text : String) : Result α :=
  .error (.message text.toList)

/-- `transport.Settings` -/
structure Settings where
  mode : Text := []
  serverName : Text := []
  certificate : Text := []
  privateKeyFile : Text := []
  caFile : Text := []
  caPEM : Text := []
  realityPrivateKey : Text := []
  realityPublicKey : Text := []
  shortID : Text := []
  coverAddress : Text := []
  fingerprint : Text := []
  fingerprints : Option (List Text) := none
  recordPadding : Bool := false
  deriving DecidableEq

structure HTTPSFallback where
  address : Text := []
  serverName : Text := []
  caFile : Text := []
  http2 : Bool := false
  deriving DecidableEq

structure HTTPFallback where
  http1 : Text := []
  h2c : Text := []
  https : Option HTTPSFallback := none
  deriving DecidableEq

/-- `service.Config` -/
structure Config where
  role : Text := []
  listen : Text := []
  server : Text := []
  target : Text := []
  inbound : Text := []
  secret : Text := []
  tls : Settings := {}
  httpFallback : Option HTTPFallback := none
  traffic : Option Mux.Profile := none
  maxConnections : Int := 0
  maxIdle : Int := 0
  handshakeSeconds : Int := 0
  dialSeconds : Int := 0
  idleSeconds : Int := 0
  poolSeconds : Int := 0
  deriving DecidableEq

/-! ## Addresses and keys -/

def protocolError : Problem :=
  .message "veil: invalid frame or state".toList

/-- `wire.EncodeAddress` -/
def encodeAddress (address : Text) : Result (List UInt8) :=
  match splitHostPort address with
  | none => .error (.library address)
  | some (host, port) =>
      match atoi port with
      | none => .error protocolError
      | some number =>
          if number < 1 ∨ 65535 < number then .error protocolError
          else
            let tail := [UInt8.ofNat (number.toNat / 256),
              UInt8.ofNat number.toNat]
            match parseIP host with
            | some ip =>
                if ip.take 12 = mapped [] then
                  .ok (1 :: (ip.drop 12).map UInt8.ofNat ++ tail)
                else .ok (4 :: ip.map UInt8.ofNat ++ tail)
            | none =>
                let bytes := host.flatMap String.utf8EncodeChar
                if bytes = [] ∨ 255 < bytes.length then .error protocolError
                else .ok (3 :: UInt8.ofNat bytes.length :: bytes ++ tail)

/-- A byte that may not stand in a host name. -/
def forbidden (byte : UInt8) : Bool :=
  byte ≤ 32 || byte = 127 || byte = 58 || byte = 47 || byte = 92

/-- `wire.DecodeAddress` reports no error. -/
def decodesAddress (bytes : List UInt8) : Bool :=
  let port (rest : List UInt8) : Bool := rest.length = 2 && rest ≠ [0, 0]
  match bytes with
  | 1 :: rest => 4 ≤ rest.length && port (rest.drop 4)
  | 4 :: rest => 16 ≤ rest.length && port (rest.drop 16)
  | 3 :: length :: rest =>
      length ≠ 0 && length.toNat ≤ rest.length &&
        !(rest.take length.toNat).any forbidden &&
        port (rest.drop length.toNat)
  | _ => false

def base64url (char : Char) : Bool :=
  char.isAlphanum || char = '-' || char = '_'

/-- `transport.DecodeKey`: unpadded base64url of 32 bytes; line ends are
passed over and the two bits that are left at the end are not looked at. -/
def decodeKey (text : Text) : Result Unit :=
  let digits := text.filter fun char => char ≠ '\r' && char ≠ '\n'
  if digits.length = 43 ∧ digits.all base64url then .ok ()
  else fail "expected a 32-byte unpadded base64url key"

/-! ## Defaults -/

def orElse (value default : Int) : Int :=
  if value = 0 then default else value

def defaultListen (role : Text) : Text :=
  if role = "client".toList then "127.0.0.1:1080".toList
  else "127.0.0.1:8443".toList

theorem defaultListen_ne_nil (role : Text) : defaultListen role ≠ [] := by
  unfold defaultListen
  split_ifs <;> simp

namespace Config

/-- The zero values replaced by the defaults. -/
def filled (c : Config) : Config :=
  { c with
    maxConnections := orElse c.maxConnections 64
    maxIdle := orElse c.maxIdle 8
    handshakeSeconds := orElse c.handshakeSeconds 10
    dialSeconds := orElse c.dialSeconds 10
    idleSeconds := orElse c.idleSeconds 1800
    poolSeconds := orElse c.poolSeconds 300
    listen := if c.listen = [] then defaultListen c.role else c.listen }

def checkTraffic (c : Config) : Result Unit :=
  match c.traffic with
  | none => .ok ()
  | some profile =>
      if profile.version ≠ 1 then fail "unsupported traffic profile version"
      else if !profile.validate then fail "traffic profile outside allowed budget"
      else .ok ()

def checkLimits (c : Config) : Result Unit :=
  if c.maxConnections < 1 ∨ 4096 < c.maxConnections ∨ c.maxIdle < 0 ∨
      c.maxConnections < c.maxIdle then
    fail "invalid connection or pool limits"
  else if [c.handshakeSeconds, c.dialSeconds, c.idleSeconds, c.poolSeconds].any
      fun seconds => seconds < 1 ∨ 86400 < seconds then
    fail "timeouts must be 1..86400 seconds"
  else .ok ()

def checkRole (c : Config) : Result Unit :=
  if c.role ≠ "client".toList ∧ c.role ≠ "server".toList then
    fail "role must be client or server"
  else if c.role = "client".toList ∧ c.server = [] then
    fail "server address required"
  else .ok ()

def checkTarget (c : Config) : Result Unit :=
  if c.target = [] then .ok ()
  else if c.role ≠ "client".toList then
    fail "target is only valid for client forwarding"
  else (encodeAddress c.target).map fun _ => ()

def checkInbound (c : Config) : Result Unit :=
  if c.inbound = [] then .ok ()
  else if c.role ≠ "client".toList ∨ c.target ≠ [] then
    fail "inbound is only valid for a proxy client without target"
  else if c.inbound ≠ "socks".toList ∧ c.inbound ≠ "http".toList ∧
      c.inbound ≠ "mixed".toList then
    fail "inbound must be socks, http or mixed"
  else .ok ()

end Config

/-- One address of a fallback; an empty one is not used. -/
def checkAddress (name : String) (address : Text) : Result Unit :=
  if address = [] then .ok ()
  else
    match encodeAddress address with
    | .error problem =>
        .error (.within ("http_fallback.".toList ++ name.toList) problem)
    | .ok bytes =>
        if decodesAddress bytes then .ok ()
        else
          .error (.within ("http_fallback.".toList ++ name.toList)
            protocolError)

namespace HTTPFallback

def checkShape (fallback : HTTPFallback) : Result Unit :=
  match fallback.https with
  | none =>
      if fallback.http1 = [] then fail "http_fallback.http1 is required"
      else .ok ()
  | some https =>
      if fallback.http1 ≠ [] ∨ fallback.h2c ≠ [] then
        fail "http_fallback.https cannot be combined with http1 or h2c"
      else if https.address = [] ∨ https.serverName = [] then
        fail "http_fallback.https requires address and server_name"
      else .ok ()

def checkAddresses (fallback : HTTPFallback) : Result Unit := do
  checkAddress "http1" fallback.http1
  checkAddress "h2c" fallback.h2c
  match fallback.https with
  | none => .ok ()
  | some https => checkAddress "https.address" https.address

end HTTPFallback

namespace Config

def checkFallback (c : Config) : Result Unit :=
  match c.httpFallback with
  | none => .ok ()
  | some fallback => do
      if c.role ≠ "server".toList ∨ c.tls.mode ≠ "tls".toList then
        fail "http_fallback is only valid for an ordinary TLS server"
      fallback.checkShape
      fallback.checkAddresses

/-- The checks of `Defaults` after the values are filled in. -/
def check (c : Config) : Result Unit := do
  c.checkLimits
  c.checkRole
  c.checkTarget
  c.checkInbound
  c.checkFallback
  decodeKey c.secret

/-- `Config.Defaults` -/
def defaults (c : Config) : Result Config := do
  c.checkTraffic
  c.filled.check
  pure c.filled

theorem orElse_orElse (value default : Int) :
    orElse (orElse value default) default = orElse value default := by
  simp only [orElse]
  split_ifs <;> rfl

@[simp]
theorem filled_filled (c : Config) : c.filled.filled = c.filled := by
  have listens : c.filled.listen ≠ [] := by
    simp only [filled]
    split_ifs with empty
    · exact defaultListen_ne_nil c.role
    · exact empty
  rw [filled, if_neg listens]
  simp only [filled, orElse_orElse]

theorem defaults_eq {c d : Config} (filled : c.defaults = .ok d) :
    d = c.filled ∧ c.checkTraffic = .ok () ∧ c.filled.check = .ok () := by
  simp only [defaults, bind, Except.bind, pure, Except.pure] at filled
  split at filled
  next => simp at filled
  next traffic =>
    split at filled
    next => simp at filled
    next checked =>
      exact ⟨(Except.ok.inj filled).symm, traffic, checked⟩

/-- A configuration with its defaults is left as it is. -/
theorem defaults_defaults {c d : Config} (filled : c.defaults = .ok d) :
    d.defaults = .ok d := by
  obtain ⟨rfl, traffic, checked⟩ := defaults_eq filled
  have same : c.filled.checkTraffic = .ok () := traffic
  simp [defaults, same, checked, bind, Except.bind, pure, Except.pure]

/-! ## Validation -/

/-- One address of `service.Validate`. -/
def checkPort (name : String) (address : Text) (zero : Bool) :
    Result Unit :=
  match splitHostPort address with
  | none => .error (.within name.toList (.library address))
  | some (host, port) =>
      match atoi port with
      | none => fail (name ++ ": invalid host or numeric port")
      | some number =>
          if number < 0 ∨ 65535 < number ∨
              (zero = false ∧ (number = 0 ∨ host = [])) then
            fail (name ++ ": invalid host or numeric port")
          else .ok ()

/-- `service.New` as far as it can fail. -/
def new (build : Config → Option Problem) (c : Config) : Result Config := do
  let c ← c.defaults
  match build c with
  | some problem => .error problem
  | none => pure c

/-- `service.Validate` -/
def validate (build : Config → Option Problem) (c : Config) :
    Result Unit := do
  let c ← c.defaults
  checkPort "listen" c.listen true
  if c.role = "client".toList then checkPort "server" c.server false
  let _ ← c.new build

/-! ## Transport settings -/

/-- A configuration without fallback passes its checks whatever its transport
settings are. -/
theorem check_tls {c : Config} (settings : Settings)
    (plain : c.httpFallback = none) :
    { c with tls := settings }.check = c.check := by
  unfold check
  have without (c : Config) (plain : c.httpFallback = none) :
      c.checkFallback = .ok () := by
    simp only [checkFallback, plain]
  rw [without c plain, without _ (by exact plain)]
  rfl

theorem defaults_tls {c d : Config} (settings : Settings)
    (plain : c.httpFallback = none) (filled : c.defaults = .ok d) :
    { c with tls := settings }.defaults = .ok { d with tls := settings } := by
  obtain ⟨rfl, traffic, checked⟩ := defaults_eq filled
  have same : { c with tls := settings }.checkTraffic = .ok () := traffic
  have rest : { c.filled with tls := settings }.check = .ok () :=
    (check_tls (c := c.filled) settings plain).trans checked
  have kept : { c with tls := settings }.filled =
      { c.filled with tls := settings } :=
    rfl
  unfold defaults
  rw [same, kept, rest]
  rfl

/-- The same where the transport of every configuration can be built. -/
theorem validate_tls {c d : Config} (settings : Settings)
    (plain : c.httpFallback = none) (filled : c.defaults = .ok d)
    (valid : c.validate (fun _ => none) = .ok ()) :
    { c with tls := settings }.validate (fun _ => none) = .ok () := by
  obtain ⟨rfl, _, _⟩ := defaults_eq filled
  have other := defaults_tls settings plain filled
  have built := defaults_defaults filled
  have rebuilt := defaults_defaults other
  unfold validate at valid ⊢
  rw [filled] at valid
  rw [other]
  simp only [bind, Except.bind, new, built, rebuilt] at valid ⊢
  exact valid

end Config

end Veil.Control

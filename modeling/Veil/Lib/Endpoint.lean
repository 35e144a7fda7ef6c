import Veil.Lib.AddressText

/-!
# Endpoints that sockets listen on

An endpoint is an IP address and a port.  It is asked for in any spelling that
can be read, and a socket that listens on it reports one spelling: that of the
address it is bound to.  This file proves that what is reported is read back
and reported again as it is, and that it is held against the endpoint that was
asked for.
-/

namespace Veil.Lib

/-- The IP address and the port of an endpoint with a port that is fixed. -/
def endpoint (listen : Text) : Option (IP × Nat) :=
  match splitHostPort listen with
  | none => none
  | some (host, port) =>
      match parseIP host, atoi port with
      | some ip, some number =>
          if 1 ≤ number ∧ number ≤ 65535 then some (ip, number.toNat) else none
      | _, _ => none

/-- `TCPAddr.String` -/
def endpointText (ip : IP) (port : Nat) : Text :=
  joinHostPort (ipString ip) (decimalText port)

/-- The address that a socket is bound to: one that is to listen on every
address listens on those of both families. -/
def boundIP (ip : IP) : IP :=
  if unspecified ip then List.replicate 16 0 else ip

/-- The endpoint that a socket reports. -/
def reported (listen : Text) : Text :=
  match endpoint listen with
  | some (ip, port) => endpointText (boundIP ip) port
  | none => listen

/-- A socket that listens has the port, and the address or every address. -/
def holds (listening listen : Text) : Bool :=
  match endpoint listening, endpoint listen with
  | some (bound, held), some (ip, port) =>
      held = port && (bound = ip || unspecified bound)
  | _, _ => false

/-! ## Reading what is reported -/

theorem endpoint_spec {listen : Text} {ip : IP} {port : Nat}
    (read : endpoint listen = some (ip, port)) :
    ip.length = 16 ∧ AllBytes ip ∧ 1 ≤ port ∧ port ≤ 65535 := by
  unfold endpoint at read
  split at read
  next => simp at read
  next host text _ =>
    split at read
    next found number literal _ =>
      split_ifs at read with range
      obtain ⟨rfl, rfl⟩ := Prod.mk.inj (Option.some.inj read)
      obtain ⟨sixteen, small⟩ := parseIP_spec literal
      exact ⟨sixteen, small, by omega, by omega⟩
    next => simp at read

theorem not_mem_dotted {char : Char} (digit : char.isDigit = false)
    (other : char ≠ '.') (octets : List Nat) : char ∉ dotted octets := by
  induction octets with
  | nil => simp [dotted]
  | cons first rest ih =>
      cases rest with
      | nil => simpa [dotted] using not_mem_decimalText first digit
      | cons second rest =>
          have parts : dotted (first :: second :: rest) =
              decimalText first ++ '.' :: dotted (second :: rest) := by
            simp [dotted, List.intercalate]
          rw [parts, List.mem_append, List.mem_cons, not_or, not_or]
          exact ⟨not_mem_decimalText first digit, other, ih⟩

/-- No character of an address that is written is a bracket. -/
theorem unbracketed_ipString {ip : IP} (sixteen : ip.length = 16)
    (small : AllBytes ip) : Unbracketed (ipString ip) := by
  obtain ⟨_, fields, _⟩ := @groupsOf_spec 8 _ sixteen small
  have colons {char : Char} (hex : isHex char = false) (other : char ≠ ':') :
      char ∉ ipv6Text (groupsOf ip) := by
    intro member
    rcases mem_ipv6Text fields member with digit | colon
    · rw [hex] at digit
      exact Bool.noConfusion digit
    · exact other colon
  unfold ipString
  split_ifs
  · constructor
    · exact not_mem_dotted (by decide) (by decide) _
    · exact not_mem_dotted (by decide) (by decide) _
  · constructor
    · exact colons (by decide) (by decide)
    · exact colons (by decide) (by decide)

/-- What is written is read back. -/
theorem endpoint_endpointText {ip : IP} {port : Nat} (sixteen : ip.length = 16)
    (small : AllBytes ip) (fixed : 1 ≤ port) (bounded : port ≤ 65535) :
    endpoint (endpointText ip port) = some (ip, port) := by
  have split := splitHostPort_joinHostPort (unbracketed_ipString sixteen small)
    (unbracketed_decimalText port) (not_mem_decimalText port (by decide))
  have number := @atoi_decimalText port (by omega)
  have range : 1 ≤ (port : Int) ∧ (port : Int) ≤ 65535 := by omega
  unfold endpoint endpointText
  simp only [split, parseIP_ipString sixteen small, number]
  rw [if_pos range, Int.toNat_natCast]

theorem boundIP_spec {ip : IP} (sixteen : ip.length = 16)
    (small : AllBytes ip) :
    (boundIP ip).length = 16 ∧ AllBytes (boundIP ip) := by
  unfold boundIP
  split_ifs
  · constructor
    · rfl
    · simp only [AllBytes]
      decide
  · exact ⟨sixteen, small⟩

theorem boundIP_boundIP (ip : IP) : boundIP (boundIP ip) = boundIP ip := by
  by_cases all : unspecified ip = true
  · have every : boundIP ip = List.replicate 16 0 := if_pos all
    rw [every]
    decide
  · have same : boundIP ip = ip := if_neg all
    rw [same, same]

theorem reported_of_endpoint {listen : Text} {ip : IP} {port : Nat}
    (read : endpoint listen = some (ip, port)) :
    reported listen = endpointText (boundIP ip) port := by
  unfold reported
  rw [read]

/-- What is reported is an endpoint at the address that is bound. -/
theorem endpoint_reported {listen : Text} {ip : IP} {port : Nat}
    (read : endpoint listen = some (ip, port)) :
    endpoint (reported listen) = some (boundIP ip, port) := by
  obtain ⟨sixteen, small, fixed, bounded⟩ := endpoint_spec read
  obtain ⟨length, bytes⟩ := boundIP_spec sixteen small
  rw [reported_of_endpoint read]
  exact endpoint_endpointText length bytes fixed bounded

/-- What is reported is reported as it is. -/
theorem reported_reported (listen : Text) :
    reported (reported listen) = reported listen := by
  cases read : endpoint listen with
  | none =>
      have same : reported listen = listen := by
        unfold reported
        rw [read]
      rw [same, same]
  | some found =>
      obtain ⟨ip, port⟩ := found
      calc reported (reported listen)
          = endpointText (boundIP (boundIP ip)) port :=
            reported_of_endpoint (endpoint_reported read)
        _ = reported listen := by
            rw [boundIP_boundIP, reported_of_endpoint read]

/-- A socket holds the endpoint that it was asked to listen on. -/
theorem holds_reported {listen : Text} (fixed : (endpoint listen).isSome) :
    holds (reported listen) listen = true := by
  obtain ⟨⟨ip, port⟩, read⟩ := Option.isSome_iff_exists.mp fixed
  have same : boundIP ip = ip ∨ unspecified (boundIP ip) = true := by
    unfold boundIP
    split_ifs with all
    · exact .inr (by decide)
    · exact .inl rfl
  unfold holds
  rw [endpoint_reported read, read]
  dsimp only
  rw [Bool.and_eq_true, Bool.or_eq_true, decide_eq_true_eq, decide_eq_true_eq]
  exact ⟨rfl, same⟩

example : reported "0.0.0.0:1080".toList = "[::]:1080".toList := by
  decide +kernel

example : reported "[::ffff:127.0.0.1]:01080".toList =
    "127.0.0.1:1080".toList := by
  decide +kernel

end Veil.Lib

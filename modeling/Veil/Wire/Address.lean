import Mathlib.Data.List.GetD
import Veil.Lib.AddressRust
import Veil.Wire.Codec

/-!
# Destinations on the wire

The payload of OPEN names a host, by an IP address or by name, and a port.
`Address` is such a destination and `Address.wire` its payload.  Both decoders
accept exactly these payloads, up to the bytes that Rust refuses in a name.

The Go functions work on strings, which are bytes; a character stands for the
byte of the same number.
-/

namespace Veil.Wire

open Veil.Lib Veil.Mux

/-! ## Strings of bytes -/

def chars (bytes : List Byte) : Text :=
  bytes.map fun byte => Char.ofNat byte.toNat

def bytes (text : Text) : List Byte :=
  text.map fun char => UInt8.ofNat char.toNat

theorem toNat_char (byte : Byte) : (Char.ofNat byte.toNat).toNat = byte.toNat := by
  have table : ∀ number : Fin 256, (Char.ofNat number.val).toNat = number.val := by
    decide +kernel
  exact table ⟨byte.toNat, byte.toNat_lt⟩

@[simp]
theorem bytes_chars (list : List Byte) : bytes (chars list) = list := by
  unfold bytes chars
  rw [List.map_map]
  apply List.map_id''
  intro byte
  rw [Function.comp_apply, toNat_char, UInt8.ofNat_toNat]

/-- The characters of a text are bytes. -/
def Narrow (text : Text) : Prop :=
  ∀ char ∈ text, char.toNat < 256

theorem narrow_chars (list : List Byte) : Narrow (chars list) := by
  intro char member
  obtain ⟨byte, _, rfl⟩ := List.mem_map.mp member
  rw [toNat_char]
  exact byte.toNat_lt

theorem chars_bytes {text : Text} (narrow : Narrow text) :
    chars (bytes text) = text := by
  have each : ∀ char ∈ text,
      ((fun byte : Byte => Char.ofNat byte.toNat) ∘
        fun char => UInt8.ofNat char.toNat) char = id char := by
    intro char member
    have small := narrow char member
    rw [Function.comp_apply, UInt8.toNat_ofNat_of_lt' small, Char.ofNat_toNat]
    rfl
  unfold bytes chars
  rw [List.map_map, List.map_congr_left each, List.map_id]

/-! ## Destinations -/

/-- A byte that may not stand in a host name. -/
def badByte (byte : Byte) : Bool :=
  byte ≤ 32 || byte = 127 || byte = 58 || byte = 47 || byte = 92

inductive Host where
  | v4 (octets : List Byte)
  | v6 (octets : List Byte)
  | name (bytes : List Byte)
  deriving DecidableEq

namespace Host

def Valid : Host → Prop
  | v4 octets => octets.length = 4
  | v6 octets => octets.length = 16
  | name bytes =>
      0 < bytes.length ∧ bytes.length ≤ 255 ∧ ∀ byte ∈ bytes, badByte byte = false

def wire : Host → List Byte
  | v4 octets => 1 :: octets
  | v6 octets => 4 :: octets
  | name bytes => 3 :: UInt8.ofNat bytes.length :: bytes

end Host

def portBytes (port : Nat) : List Byte :=
  [UInt8.ofNat (port >>> 8), UInt8.ofNat port]

/-- A destination that can be sent. -/
structure Address where
  host : Host
  port : Nat
  valid : host.Valid
  ported : 0 < port ∧ port < 65536

def Address.wire (a : Address) : List Byte :=
  a.host.wire ++ portBytes a.port

theorem portBytes_of_bytes (high low : Byte) :
    portBytes (high.toNat <<< 8 ||| low.toNat) = [high, low] := by
  have lowSmall := low.toNat_lt
  rw [shift_or, portBytes, Nat.shiftRight_eq_div_pow]
  have upper : (high.toNat * 256 + low.toNat) / 2 ^ 8 = high.toNat := by omega
  rw [upper, UInt8.ofNat_toNat]
  congr 2
  apply UInt8.toNat_inj.mp
  rw [UInt8.toNat_ofNat']
  omega

theorem port_of_portBytes {port : Nat} (small : port < 65536) :
    (UInt8.ofNat (port >>> 8)).toNat <<< 8 ||| (UInt8.ofNat port).toNat = port := by
  rw [shift_or, Nat.shiftRight_eq_div_pow, UInt8.toNat_ofNat', UInt8.toNat_ofNat']
  omega

/-! ## The Go package -/

namespace Go

/-- `IP.String` on the four or sixteen bytes of an address. -/
def ipText (octets : List Byte) : Text :=
  if octets.length = 4 then dotted (octets.map UInt8.toNat)
  else ipString (octets.map UInt8.toNat)

/-- The end of `DecodeAddress`: the port stands behind the first `n` bytes. -/
def decodePort (p : List Byte) (n : Nat) (host : Text) : Option (List Byte) :=
  if p.length ≠ n + 2 then none
  else
    let port := (p.getD n 0).toNat <<< 8 ||| (p.getD (n + 1) 0).toNat
    if port = 0 then none
    else some (bytes (joinHostPort host (decimalText port)))

/-- The switch of `DecodeAddress`: the bytes before the port and the host. -/
def decodeHost (p : List Byte) : Option (Nat × Text) :=
  match p.headD 0 with
  | 1 => some (5, if 5 ≤ p.length then ipText ((p.drop 1).take 4) else [])
  | 4 => some (17, if 17 ≤ p.length then ipText ((p.drop 1).take 16) else [])
  | 3 =>
      let n := 2 + (p.getD 1 0).toNat
      let host := (p.drop 2).take (p.getD 1 0).toNat
      if p.getD 1 0 = 0 ∨ (n ≤ p.length ∧ host.any badByte) then none
      else some (n, if n ≤ p.length then chars host else [])
  | _ => none

/-- `DecodeAddress` -/
def decodeAddress (p : List Byte) : Option (List Byte) :=
  if p.length < 4 then none
  else (decodeHost p).bind fun (n, host) => decodePort p n host

/-- `EncodeAddress` -/
def encodeAddress (address : List Byte) : Option (List Byte) := do
  let (host, port) ← splitHostPort (chars address)
  let pn ← atoi port
  if pn < 1 ∨ 65535 < pn then none
  else
    let tail := portBytes pn.toNat
    match parseIP host with
    | some ip =>
        if ip.take 12 = mapped [] then
          some (1 :: (ip.drop 12).map UInt8.ofNat ++ tail)
        else some (4 :: ip.map UInt8.ofNat ++ tail)
    | none =>
        if host = [] ∨ 255 < host.length then none
        else some (3 :: UInt8.ofNat host.length :: bytes host ++ tail)

end Go

/-! ## The Rust crate -/

namespace Rust

open RustStd

/-- `wire::Target` -/
structure Target where
  host : Text
  port : Nat
  deriving DecidableEq

/-- A byte that `Target::decode` refuses in a name. -/
def refused (byte : Byte) : Bool :=
  byte ≤ 32 || byte = 127 || byte = 58 || byte = 47 || byte = 92 ||
    128 ≤ byte

namespace Target

/-- The end of `Target::decode`: the port is the last two bytes. -/
def decodePort (p : List Byte) (host : Text) : Option Target :=
  let port := (p.getD (p.length - 2) 0).toNat <<< 8 |||
    (p.getD (p.length - 1) 0).toNat
  if port = 0 then none else some ⟨host, port⟩

/-- `Target::decode` -/
def decode (p : List Byte) : Option Target :=
  match p.head? with
  | some 1 =>
      if p.length = 7 then
        decodePort p (IpAddr.v4 (((p.drop 1).take 4).map UInt8.toNat)).text
      else none
  | some 4 =>
      if p.length = 19 then
        decodePort p
          (IpAddr.v6 (groupsOf (((p.drop 1).take 16).map UInt8.toNat))).text
      else none
  | some 3 =>
      let b := (p.drop 2).take (p.length - 4)
      if 5 ≤ p.length ∧ p.getD 1 0 ≠ 0 ∧
          p.length = (p.getD 1 0).toNat + 4 then
        if b.any refused then none else decodePort p (chars b)
      else none
  | _ => none

/-- The bytes of a text in UTF-8. -/
def utf8 (text : Text) : List Byte :=
  text.flatMap String.utf8EncodeChar

/-- The match of `Target::encode` on the host. -/
def encodeHost (host : Text) : Option (List Byte) :=
  match IpAddr.parse host with
  | some (.v4 octets) => some (1 :: octets.map UInt8.ofNat)
  | some (.v6 groups) => some (4 :: (bytesOf groups).map UInt8.ofNat)
  | none =>
      if 255 < (utf8 host).length then none
      else some (3 :: UInt8.ofNat (utf8 host).length :: utf8 host)

/-- `Target::encode` -/
def encode (t : Target) : Option (List Byte) := do
  let p ← encodeHost t.host
  let p := p ++ portBytes t.port
  let _ ← decode p
  some p

end Target

end Rust

/-! ## What the decoders accept -/

theorem length_portBytes (port : Nat) : (portBytes port).length = 2 := rfl

/-- Bytes that end in a port, which is not zero. -/
theorem exists_port {p : List Byte} {n : Nat} (length : p.length = n + 2) :
    ∃ front, front.length = n ∧
      p = front ++ portBytes ((p.getD n 0).toNat <<< 8 |||
        (p.getD (n + 1) 0).toNat) := by
  refine ⟨p.take n, by rw [List.length_take, length]; omega, ?_⟩
  have first : p.getD n 0 = p[n] := List.getD_eq_getElem p 0 (by omega)
  have second : p.getD (n + 1) 0 = p[n + 1] :=
    List.getD_eq_getElem p 0 (by omega)
  have rest : p.drop n = [p[n], p[n + 1]] := by
    rw [List.drop_eq_getElem_cons (by omega), List.drop_eq_getElem_cons (by omega),
      List.drop_eq_nil_of_le (by omega)]
  rw [portBytes_of_bytes, first, second, ← rest, List.take_append_drop]

theorem port_lt (high low : Byte) :
    high.toNat <<< 8 ||| low.toNat < 65536 := by
  have highSmall := high.toNat_lt
  have lowSmall := low.toNat_lt
  rw [shift_or]
  omega

theorem getD_front {front : List Byte} {port : Nat} (small : port < 65536) :
    ((front ++ portBytes port).getD front.length 0).toNat <<< 8 |||
      ((front ++ portBytes port).getD (front.length + 1) 0).toNat = port := by
  have first : (front ++ portBytes port).getD front.length 0 =
      UInt8.ofNat (port >>> 8) := by
    rw [List.getD_append_right _ _ _ _ le_rfl]
    simp [portBytes]
  have second : (front ++ portBytes port).getD (front.length + 1) 0 =
      UInt8.ofNat port := by
    rw [List.getD_append_right _ _ _ _ (Nat.le_succ _)]
    simp [portBytes]
  rw [first, second, port_of_portBytes small]

/-- The host as the Go package writes it. -/
def Host.text : Host → Text
  | v4 octets | v6 octets => Go.ipText octets
  | name bytes => chars bytes

def Address.text (a : Address) : Text :=
  joinHostPort a.host.text (decimalText a.port)

namespace Go

theorem decodePort_ok {p : List Byte} {n : Nat} {host : Text} {s : List Byte} :
    decodePort p n host = some s ↔
      ∃ front port, front.length = n ∧ p = front ++ portBytes port ∧
        (0 < port ∧ port < 65536) ∧
        s = bytes (joinHostPort host (decimalText port)) := by
  unfold decodePort
  constructor
  · intro accepted
    by_cases length : p.length = n + 2
    · rw [if_neg (not_not.mpr length)] at accepted
      dsimp only at accepted
      split_ifs at accepted with zero
      obtain ⟨front, size, shape⟩ := exists_port length
      exact ⟨front, _, size, shape, ⟨Nat.pos_of_ne_zero zero, port_lt _ _⟩,
        (Option.some.inj accepted).symm⟩
    · rw [if_pos length] at accepted
      simp at accepted
  · rintro ⟨front, port, rfl, rfl, ⟨positive, small⟩, rfl⟩
    have length : (front ++ portBytes port).length = front.length + 2 := by
      rw [List.length_append, length_portBytes]
    rw [if_neg (not_not.mpr length)]
    dsimp only
    rw [getD_front small, if_neg (Nat.ne_of_gt positive)]

theorem decodeHost_v4 (rest : List Byte) (enough : 4 ≤ rest.length) :
    decodeHost (1 :: rest) = some (5, ipText (rest.take 4)) := by
  have long : 5 ≤ (1 :: rest).length := by simpa using enough
  show some (5, if 5 ≤ (1 :: rest).length then ipText (rest.take 4) else []) = _
  rw [if_pos long]

theorem decodeHost_v6 (rest : List Byte) (enough : 16 ≤ rest.length) :
    decodeHost (4 :: rest) = some (17, ipText (rest.take 16)) := by
  have long : 17 ≤ (4 :: rest).length := by simpa using enough
  show some (17, if 17 ≤ (4 :: rest).length then ipText (rest.take 16) else []) = _
  rw [if_pos long]

theorem decodeHost_name (length : Byte) (rest : List Byte)
    (enough : length.toNat ≤ rest.length) :
    decodeHost (3 :: length :: rest) =
      if length = 0 ∨ (rest.take length.toNat).any badByte = true then none
      else some (2 + length.toNat, chars (rest.take length.toNat)) := by
  have long : 2 + length.toNat ≤ (3 :: length :: rest).length := by
    simp only [List.length_cons]
    omega
  show (if length = 0 ∨ (2 + length.toNat ≤ (3 :: length :: rest).length ∧
      (rest.take length.toNat).any badByte = true) then none
    else some (2 + length.toNat,
      if 2 + length.toNat ≤ (3 :: length :: rest).length then
        chars (rest.take length.toNat) else [])) = _
  rw [if_pos long]
  simp only [long, true_and]

/-- The switch on the bytes of a host before a port. -/
theorem decodeHost_wire {host : Host} (valid : host.Valid) (port : Nat) :
    decodeHost (host.wire ++ portBytes port) =
      some (host.wire.length, host.text) := by
  cases host with
  | v4 octets =>
      have four : octets.length = 4 := valid
      have read := decodeHost_v4 (octets ++ portBytes port)
        (by rw [List.length_append, four]; omega)
      rw [List.take_left' four] at read
      rw [Host.wire, List.cons_append, read, List.length_cons, four]
      rfl
  | v6 octets =>
      have sixteen : octets.length = 16 := valid
      have read := decodeHost_v6 (octets ++ portBytes port)
        (by rw [List.length_append, sixteen]; omega)
      rw [List.take_left' sixteen] at read
      rw [Host.wire, List.cons_append, read, List.length_cons, sixteen]
      rfl
  | name list =>
      obtain ⟨positive, short, good⟩ := valid
      have size : (UInt8.ofNat list.length).toNat = list.length :=
        UInt8.toNat_ofNat_of_lt' (Nat.lt_succ_of_le short)
      have read := decodeHost_name (UInt8.ofNat list.length)
        (list ++ portBytes port)
        (by rw [size, List.length_append]; omega)
      have accepted : ¬ (UInt8.ofNat list.length = 0 ∨
          list.any badByte = true) := by
        rintro (zero | bad)
        · rw [zero] at size
          exact absurd size.symm (Nat.ne_of_gt positive)
        · obtain ⟨byte, member, isBad⟩ := List.any_eq_true.mp bad
          rw [good byte member] at isBad
          exact Bool.noConfusion isBad
      rw [size, List.take_left' rfl, if_neg accepted] at read
      rw [Host.wire, List.cons_append, List.cons_append, read, List.length_cons,
        List.length_cons, Nat.add_comm 2]
      rfl

/-- How many bytes the switch asks for, by the first of them. -/
theorem length_of_decodeHost {p : List Byte} {n : Nat} {text : Text}
    (accepted : decodeHost p = some (n, text)) :
    (p.headD 0 = 1 ∧ n = 5) ∨ (p.headD 0 = 4 ∧ n = 17) ∨
      (p.headD 0 = 3 ∧ n = 2 + (p.getD 1 0).toNat) := by
  unfold decodeHost at accepted
  split at accepted
  next head =>
    exact .inl ⟨head, (Prod.mk.inj (Option.some.inj accepted)).1.symm⟩
  next head =>
    exact .inr (.inl ⟨head, (Prod.mk.inj (Option.some.inj accepted)).1.symm⟩)
  next head =>
    dsimp only at accepted
    by_cases stopped : p.getD 1 0 = 0 ∨ (2 + (p.getD 1 0).toNat ≤ p.length ∧
        ((p.drop 2).take (p.getD 1 0).toNat).any badByte = true)
    · rw [if_pos stopped] at accepted
      simp at accepted
    · rw [if_neg stopped] at accepted
      exact .inr (.inr ⟨head, (Prod.mk.inj (Option.some.inj accepted)).1.symm⟩)
  next => simp at accepted

/-- A switch that goes on has read the bytes of a host, when the bytes it asks
for are there. -/
theorem host_of_decodeHost {front : List Byte} {port : Nat} {text : Text}
    (accepted : decodeHost (front ++ portBytes port) = some (front.length, text)) :
    ∃ host : Host, host.Valid ∧ front = host.wire ∧ text = host.text := by
  obtain ⟨head, length⟩ | ⟨head, length⟩ | ⟨head, length⟩ :=
    length_of_decodeHost accepted
  · obtain ⟨kind, octets, rfl⟩ : ∃ kind octets, front = kind :: octets :=
      List.exists_cons_of_length_eq_add_one length
    obtain rfl : kind = 1 := head
    have four : octets.length = 4 := by simpa using length
    have read := @decodeHost_wire (.v4 octets) four port
    refine ⟨.v4 octets, four, rfl, ?_⟩
    exact (Prod.mk.inj (Option.some.inj (accepted.symm.trans read))).2
  · obtain ⟨kind, octets, rfl⟩ : ∃ kind octets, front = kind :: octets :=
      List.exists_cons_of_length_eq_add_one length
    obtain rfl : kind = 4 := head
    have sixteen : octets.length = 16 := by simpa using length
    have read := @decodeHost_wire (.v6 octets) sixteen port
    refine ⟨.v6 octets, sixteen, rfl, ?_⟩
    exact (Prod.mk.inj (Option.some.inj (accepted.symm.trans read))).2
  · obtain ⟨kind, rest, rfl⟩ : ∃ kind rest, front = kind :: rest :=
      List.exists_cons_of_length_pos (by omega)
    obtain rfl : kind = 3 := head
    obtain ⟨size, list, rfl⟩ : ∃ size list, rest = size :: list := by
      apply List.exists_cons_of_length_pos
      rw [List.length_cons] at length
      omega
    have counted : list.length = size.toNat := by
      have same : 2 + size.toNat = list.length + 2 := length.symm
      omega
    have read := decodeHost_name size (list ++ portBytes port)
      (by rw [List.length_append]; omega)
    rw [List.take_left' counted] at read
    rw [List.cons_append, List.cons_append, read] at accepted
    split_ifs at accepted with stopped
    rw [not_or] at stopped
    have small := size.toNat_lt
    refine ⟨.name list, ⟨?_, by omega, ?_⟩, ?_, ?_⟩
    · have positive : size.toNat ≠ 0 := fun zero =>
        stopped.1 (UInt8.toNat_inj.mp zero)
      omega
    · intro byte member
      by_contra bad
      rw [Bool.not_eq_false] at bad
      exact stopped.2 (List.any_eq_true.mpr ⟨byte, member, bad⟩)
    · rw [Host.wire, counted, UInt8.ofNat_toNat]
    · exact (Prod.mk.inj (Option.some.inj accepted)).2.symm

theorem length_wire_pos {host : Host} (valid : host.Valid) :
    2 ≤ host.wire.length := by
  cases host with
  | v4 octets | v6 octets =>
      rw [Host.wire, List.length_cons, valid]
      decide
  | name list =>
      rw [Host.wire, List.length_cons, List.length_cons]
      omega

/-- `DecodeAddress` accepts the payloads of destinations. -/
theorem decodeAddress_ok {p s : List Byte} :
    decodeAddress p = some s ↔
      ∃ a : Address, p = a.wire ∧ s = bytes a.text := by
  unfold decodeAddress
  constructor
  · intro accepted
    split_ifs at accepted
    obtain ⟨⟨n, text⟩, switched, accepted⟩ := Option.bind_eq_some_iff.mp accepted
    obtain ⟨front, port, length, rfl, ported, rfl⟩ := decodePort_ok.mp accepted
    subst length
    obtain ⟨host, valid, rfl, rfl⟩ := host_of_decodeHost switched
    exact ⟨⟨host, port, valid, ported⟩, rfl, rfl⟩
  · rintro ⟨⟨host, port, valid, ported⟩, rfl, rfl⟩
    have enough : ¬ (host.wire ++ portBytes port).length < 4 := by
      have bytes := length_wire_pos valid
      rw [List.length_append, length_portBytes]
      omega
    have switched := decodeHost_wire valid port
    have ended : decodePort (host.wire ++ portBytes port) host.wire.length
        host.text = some (bytes (joinHostPort host.text (decimalText port))) :=
      decodePort_ok.mpr ⟨host.wire, port, rfl, rfl, ported, rfl⟩
    unfold Address.wire
    rw [if_neg enough, switched]
    exact ended

end Go

namespace Host

/-- The host as the Rust crate writes it. -/
def rustText : Host → Text
  | v4 octets => (RustStd.IpAddr.v4 (octets.map UInt8.toNat)).text
  | v6 octets => (RustStd.IpAddr.v6 (groupsOf (octets.map UInt8.toNat))).text
  | name bytes => chars bytes

/-- A host name without bytes above 127. -/
def Ascii : Host → Prop
  | name bytes => ∀ byte ∈ bytes, byte < 128
  | _ => True

end Host

def Address.target (a : Address) : Rust.Target :=
  ⟨a.host.rustText, a.port⟩

namespace Rust.Target

open RustStd

theorem decodePort_ok {front : List Byte} {port : Nat} (small : port < 65536)
    {host : Text} {t : Target} :
    decodePort (front ++ portBytes port) host = some t ↔
      0 < port ∧ t = ⟨host, port⟩ := by
  have length : (front ++ portBytes port).length = front.length + 2 := by
    rw [List.length_append, length_portBytes]
  have last : front.length + 2 - 2 = front.length ∧
      front.length + 2 - 1 = front.length + 1 :=
    ⟨rfl, rfl⟩
  unfold decodePort
  rw [length, last.1, last.2, getD_front small]
  constructor
  · intro accepted
    dsimp only at accepted
    split_ifs at accepted with zero
    exact ⟨Nat.pos_of_ne_zero zero, (Option.some.inj accepted).symm⟩
  · rintro ⟨positive, rfl⟩
    exact if_neg (Nat.ne_of_gt positive)

/-- The bytes of a payload before its port. -/
theorem exists_front {p : List Byte} {n : Nat} (length : p.length = n + 2) :
    ∃ front port, front.length = n ∧ p = front ++ portBytes port ∧
      port < 65536 := by
  obtain ⟨front, size, shape⟩ := exists_port length
  exact ⟨front, _, size, shape, port_lt _ _⟩

theorem decode_v4 {rest : List Byte} (length : rest.length = 6) :
    decode (1 :: rest) = decodePort (1 :: rest)
      (IpAddr.v4 ((rest.take 4).map UInt8.toNat)).text := by
  have seven : (1 :: rest).length = 7 := by rw [List.length_cons, length]
  show (if (1 :: rest).length = 7 then decodePort (1 :: rest)
    (IpAddr.v4 ((rest.take 4).map UInt8.toNat)).text else none) = _
  rw [if_pos seven]

theorem decode_v6 {rest : List Byte} (length : rest.length = 18) :
    decode (4 :: rest) = decodePort (4 :: rest)
      (IpAddr.v6 (groupsOf ((rest.take 16).map UInt8.toNat))).text := by
  have long : (4 :: rest).length = 19 := by rw [List.length_cons, length]
  show (if (4 :: rest).length = 19 then decodePort (4 :: rest)
    (IpAddr.v6 (groupsOf ((rest.take 16).map UInt8.toNat))).text else none) = _
  rw [if_pos long]

theorem decode_name {size : Byte} {rest : List Byte} (some_ : size ≠ 0)
    (length : rest.length = size.toNat + 2) :
    decode (3 :: size :: rest) =
      if (rest.take size.toNat).any refused then none
      else decodePort (3 :: size :: rest) (chars (rest.take size.toNat)) := by
  have positive : size.toNat ≠ 0 := fun zero => some_ (UInt8.toNat_inj.mp zero)
  have whole : (3 :: size :: rest).length = size.toNat + 4 := by
    rw [List.length_cons, List.length_cons, length]
  have fits : 5 ≤ (3 :: size :: rest).length ∧ size ≠ 0 ∧
      (3 :: size :: rest).length = size.toNat + 4 :=
    ⟨by omega, some_, whole⟩
  have shown : (3 :: size :: rest).length - 4 = size.toNat := by omega
  show (if 5 ≤ (3 :: size :: rest).length ∧ size ≠ 0 ∧
      (3 :: size :: rest).length = size.toNat + 4 then
    if (rest.take ((3 :: size :: rest).length - 4)).any refused then none
    else decodePort (3 :: size :: rest)
      (chars (rest.take ((3 :: size :: rest).length - 4))) else none) = _
  rw [if_pos fits, shown]

theorem any_refused {list : List Byte} :
    list.any refused = false ↔
      (∀ byte ∈ list, badByte byte = false) ∧ ∀ byte ∈ list, byte < 128 := by
  have each (byte : Byte) :
      refused byte = false ↔ badByte byte = false ∧ byte < 128 := by
    have split : refused byte = (badByte byte || decide (128 ≤ byte)) := rfl
    rw [split, Bool.or_eq_false_iff, decide_eq_false_iff_not, UInt8.not_le]
  rw [List.any_eq_false]
  simp only [Bool.not_eq_true, each]
  exact forall₂_and

/-- The payloads whose length is right. -/
theorem shape_of_decode {p : List Byte} {t : Target} (accepted : decode p = some t) :
    (∃ rest, p = 1 :: rest ∧ rest.length = 6) ∨
      (∃ rest, p = 4 :: rest ∧ rest.length = 18) ∨
      ∃ size rest, p = 3 :: size :: rest ∧ size ≠ 0 ∧
        rest.length = size.toNat + 2 := by
  unfold decode at accepted
  split at accepted
  next head =>
    obtain ⟨rest, rfl⟩ := List.head?_eq_some_iff.mp head
    split_ifs at accepted with length
    exact .inl ⟨rest, rfl, by simpa using length⟩
  next head =>
    obtain ⟨rest, rfl⟩ := List.head?_eq_some_iff.mp head
    split_ifs at accepted with length
    exact .inr (.inl ⟨rest, rfl, by simpa using length⟩)
  next head =>
    obtain ⟨rest, rfl⟩ := List.head?_eq_some_iff.mp head
    dsimp only at accepted
    split_ifs at accepted with fits
    obtain ⟨long, some_, length⟩ := fits
    cases rest with
    | nil => simp at long
    | cons size rest =>
        refine .inr (.inr ⟨size, rest, rfl, some_, ?_⟩)
        have same : rest.length + 1 + 1 = size.toNat + 4 := length
        omega
  next => simp at accepted

/-- `Target::decode` accepts the payloads of destinations whose names are
ASCII. -/
theorem decode_ok {p : List Byte} {t : Target} :
    decode p = some t ↔
      ∃ a : Address, a.host.Ascii ∧ p = a.wire ∧ t = a.target := by
  constructor
  · intro accepted
    rcases shape_of_decode accepted with
      ⟨rest, rfl, length⟩ | ⟨rest, rfl, length⟩ | ⟨size, rest, rfl, some_, length⟩
    · obtain ⟨octets, port, four, rfl, small⟩ := exists_front (n := 4) length
      rw [decode_v4 length, List.take_left' four] at accepted
      obtain ⟨positive, rfl⟩ :=
        (@decodePort_ok (1 :: octets) _ small _ _).mp accepted
      exact ⟨⟨.v4 octets, port, four, positive, small⟩, trivial, rfl, rfl⟩
    · obtain ⟨octets, port, sixteen, rfl, small⟩ := exists_front (n := 16) length
      rw [decode_v6 length, List.take_left' sixteen] at accepted
      obtain ⟨positive, rfl⟩ :=
        (@decodePort_ok (4 :: octets) _ small _ _).mp accepted
      exact ⟨⟨.v6 octets, port, sixteen, positive, small⟩, trivial, rfl, rfl⟩
    · obtain ⟨list, port, counted, rfl, small⟩ := exists_front length
      rw [decode_name some_ length, List.take_left' counted] at accepted
      split_ifs at accepted with bad
      obtain ⟨good, ascii⟩ := any_refused.mp (Bool.not_eq_true _ ▸ bad)
      obtain ⟨positive, rfl⟩ :=
        (@decodePort_ok (3 :: size :: list) _ small _ _).mp accepted
      have shown : size.toNat ≠ 0 := fun zero => some_ (UInt8.toNat_inj.mp zero)
      have sizeSmall := size.toNat_lt
      have wire : Host.wire (.name list) = 3 :: size :: list := by
        rw [Host.wire, counted, UInt8.ofNat_toNat]
      refine ⟨⟨.name list, port, ⟨by omega, by omega, good⟩, positive, small⟩,
        ascii, ?_, rfl⟩
      rw [Address.wire, wire]
      rfl
  · rintro ⟨⟨host, port, valid, positive, small⟩, ascii, rfl, rfl⟩
    cases host with
    | v4 octets =>
        have four : octets.length = 4 := valid
        have read := @decode_v4 (octets ++ portBytes port)
          (by rw [List.length_append, four]; rfl)
        rw [List.take_left' four] at read
        exact read.trans
          ((@decodePort_ok (1 :: octets) _ small _ _).mpr ⟨positive, rfl⟩)
    | v6 octets =>
        have sixteen : octets.length = 16 := valid
        have read := @decode_v6 (octets ++ portBytes port)
          (by rw [List.length_append, sixteen]; rfl)
        rw [List.take_left' sixteen] at read
        exact read.trans
          ((@decodePort_ok (4 :: octets) _ small _ _).mpr ⟨positive, rfl⟩)
    | name list =>
        obtain ⟨shown, short, good⟩ := valid
        have size : (UInt8.ofNat list.length).toNat = list.length :=
          UInt8.toNat_ofNat_of_lt' (Nat.lt_succ_of_le short)
        have some_ : UInt8.ofNat list.length ≠ 0 := by
          intro zero
          rw [zero] at size
          exact absurd size.symm (Nat.ne_of_gt shown)
        have read := @decode_name _ (list ++ portBytes port) some_
          (by rw [List.length_append, size]; rfl)
        rw [size, List.take_left' rfl, any_refused.mpr ⟨good, ascii⟩] at read
        exact read.trans ((@decodePort_ok
          (3 :: UInt8.ofNat list.length :: list) _ small _ _).mpr
            ⟨positive, rfl⟩)

end Rust.Target

end Veil.Wire

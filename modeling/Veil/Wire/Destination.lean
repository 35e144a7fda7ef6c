import Veil.Wire.Address

/-!
# Destinations from text to wire and back

An address string denotes a host, which is an IP address or a name, and a
port.  The encoder of the Go package looks at the length of a name only, and
its decoder looks at the bytes of a name but not at brackets.  The theorems
say exactly for which strings and payloads the two agree all the same, that
the Rust crate's own pair always does, and that the decoders of both agree on
every payload whose name is ASCII.
-/

namespace Veil.Wire

open Veil.Lib Veil.Mux

/-! ## What an address string denotes -/

inductive Place where
  | ip (address : IP)
  | name (host : Text)
  deriving DecidableEq

/-- The place that a host denotes; an IPv4 address is the one that it is
mapped to. -/
def Place.of (host : Text) : Place :=
  match parseIP host with
  | some address => .ip address
  | none => .name host

/-- The place and the port that an address string denotes. -/
def destination (address : List Byte) : Option (Place × Int) := do
  let (host, port) ← splitHostPort (chars address)
  let number ← atoi port
  some (Place.of host, number)

/-! ## The texts of addresses -/

/-- A character of an IP address. -/
def Spells (char : Char) : Prop :=
  isHex char = true ∨ char = ':' ∨ char = '.'

theorem spells_dotted {octets : List Nat} :
    ∀ char ∈ dotted octets, Spells char := by
  intro char member
  have digits {number : Nat} (listed : char ∈ decimalText number) :
      isHex char = true := by
    have digit := isDigit_decimalText listed
    simp only [Char.isDigit, Bool.and_eq_true, decide_eq_true_eq] at digit
    unfold isHex Json.hexValue
    dsimp only
    rw [if_pos]
    · rfl
    · exact ⟨digit.1, digit.2⟩
  induction octets with
  | nil => simp [dotted] at member
  | cons first rest ih =>
      rw [RustStd.dotted_cons, List.mem_append] at member
      rcases member with listed | later
      · exact .inl (digits listed)
      · obtain ⟨octet, _, member⟩ := List.mem_flatMap.mp later
        rcases List.mem_cons.mp member with rfl | listed
        · exact .inr (.inr rfl)
        · exact .inl (digits listed)

theorem small_bytes (octets : List Byte) :
    ∀ byte ∈ octets.map UInt8.toNat, byte < 256 := by
  intro byte member
  obtain ⟨octet, _, rfl⟩ := List.mem_map.mp member
  exact octet.toNat_lt

theorem spells_ipText {octets : List Byte}
    (size : octets.length = 4 ∨ octets.length = 16) :
    ∀ char ∈ Go.ipText octets, Spells char := by
  unfold Go.ipText
  split_ifs with four
  · exact spells_dotted
  · have sixteen : (octets.map UInt8.toNat).length = 2 * 8 := by
      rw [List.length_map]
      exact size.resolve_left four
    obtain ⟨_, fields, _⟩ := groupsOf_spec sixteen (small_bytes octets)
    unfold ipString
    split_ifs
    · exact spells_dotted
    · intro char member
      rcases mem_ipv6Text fields member with hex | colon
      · exact .inl hex
      · exact .inr (.inl colon)

theorem Spells.narrow {char : Char} (spells : Spells char) : char.toNat < 256 := by
  rcases spells with hex | rfl | rfl
  · unfold isHex Json.hexValue at hex
    dsimp only at hex
    split_ifs at hex <;> first | omega | simp at hex
  · decide
  · decide

theorem Spells.ne_bracket {char : Char} (spells : Spells char) :
    char ≠ '[' ∧ char ≠ ']' := by
  constructor
  · rintro rfl
    exact absurd spells (by unfold Spells; decide)
  · rintro rfl
    exact absurd spells (by unfold Spells; decide)

namespace Host

theorem narrow_text {host : Host} (valid : host.Valid) : Narrow host.text := by
  cases host with
  | v4 octets => exact fun char member => (spells_ipText (.inl valid) char member).narrow
  | v6 octets => exact fun char member => (spells_ipText (.inr valid) char member).narrow
  | name list => exact narrow_chars list

/-- A host that is no name has no brackets. -/
theorem unbracketed_text {host : Host} (valid : host.Valid)
    (named : ∀ list, host = .name list → Unbracketed (chars list)) :
    Unbracketed host.text := by
  have each {octets : List Byte} (size : octets.length = 4 ∨ octets.length = 16) :
      Unbracketed (Go.ipText octets) :=
    ⟨fun member => (spells_ipText size _ member).ne_bracket.1 rfl,
      fun member => (spells_ipText size _ member).ne_bracket.2 rfl⟩
  cases host with
  | v4 octets => exact each (.inl valid)
  | v6 octets => exact each (.inr valid)
  | name list => exact named list rfl

theorem parseIP_v4 {octets : List Byte} (four : octets.length = 4) :
    parseIP (Go.ipText octets) = some (mapped (octets.map UInt8.toNat)) := by
  unfold Go.ipText
  rw [if_pos four]
  exact parseIP_dotted (by rw [List.length_map, four]) (small_bytes octets)

theorem parseIP_v6 {octets : List Byte} (sixteen : octets.length = 16) :
    parseIP (Go.ipText octets) = some (octets.map UInt8.toNat) := by
  have other : ¬ octets.length = 4 := by omega
  unfold Go.ipText
  rw [if_neg other]
  exact parseIP_ipString (by rw [List.length_map, sixteen]) (small_bytes octets)

end Host

namespace Address

theorem narrow_text (a : Address) : Narrow a.text := by
  have host := a.host.narrow_text a.valid
  have port : Narrow (decimalText a.port) := by
    intro char member
    have digit := isDigit_decimalText member
    simp only [Char.isDigit, Bool.and_eq_true, decide_eq_true_eq] at digit
    have bound : char.toNat ≤ 57 := digit.2
    omega
  have colon : ':'.toNat < 256 := by decide
  have bracket : ']'.toNat < 256 := by decide
  have opening : '['.toNat < 256 := by decide
  unfold Address.text joinHostPort Narrow
  split_ifs
  · simp only [List.forall_mem_cons, List.forall_mem_append]
    exact ⟨opening, host, bracket, colon, port⟩
  · simp only [List.forall_mem_cons, List.forall_mem_append]
    exact ⟨host, colon, port⟩

/-- The text of a destination is taken apart as it was joined. -/
theorem split_text (a : Address)
    (named : ∀ list, a.host = .name list → Unbracketed (chars list)) :
    splitHostPort (chars (bytes a.text)) =
      some (a.host.text, decimalText a.port) := by
  rw [chars_bytes a.narrow_text]
  exact splitHostPort_joinHostPort (a.host.unbracketed_text a.valid named)
    (unbracketed_decimalText a.port) (not_mem_decimalText a.port (by decide))

theorem atoi_port (a : Address) : atoi (decimalText a.port) = some (a.port : Int) :=
  atoi_decimalText (a.ported.2.trans (by norm_num))

end Address

/-! ## The encoder of the Go package -/

/-- The host that `EncodeAddress` sends for a text. -/
def Host.ofText (host : Text) : Host :=
  match parseIP host with
  | some ip =>
      if ip.take 12 = mapped [] then .v4 ((ip.drop 12).map UInt8.ofNat)
      else .v6 (ip.map UInt8.ofNat)
  | none => .name (bytes host)

/-- `EncodeAddress` refuses a name that is empty or too long. -/
theorem Go.encodeAddress_ok {address b : List Byte} :
    Go.encodeAddress address = some b ↔
      ∃ host port, ∃ number : Nat,
        splitHostPort (chars address) = some (host, port) ∧
        atoi port = some (number : Int) ∧ (0 < number ∧ number < 65536) ∧
        (parseIP host = none → host ≠ [] ∧ host.length ≤ 255) ∧
        b = (Host.ofText host).wire ++ portBytes number := by
  unfold Go.encodeAddress
  constructor
  · intro encoded
    obtain ⟨⟨host, port⟩, split, encoded⟩ := Option.bind_eq_some_iff.mp encoded
    obtain ⟨pn, number, encoded⟩ := Option.bind_eq_some_iff.mp encoded
    by_cases bad : pn < 1 ∨ 65535 < pn
    · rw [if_pos bad] at encoded
      simp at encoded
    · rw [if_neg bad] at encoded
      have same : ((pn.toNat : Nat) : Int) = pn := Int.toNat_of_nonneg (by omega)
      refine ⟨host, port, pn.toNat, split, by rw [same]; exact number,
        by omega, ?_⟩
      unfold Host.ofText
      cases read : parseIP host with
      | some ip =>
          rw [read] at encoded
          dsimp only at encoded ⊢
          refine ⟨by simp, ?_⟩
          split_ifs at encoded ⊢
          · exact (Option.some.inj encoded).symm
          · exact (Option.some.inj encoded).symm
      | none =>
          rw [read] at encoded
          dsimp only at encoded ⊢
          split_ifs at encoded with refused
          rw [not_or, not_lt] at refused
          refine ⟨fun _ => refused, ?_⟩
          rw [Host.wire, bytes, List.length_map]
          exact (Option.some.inj encoded).symm
  · rintro ⟨host, port, number, split, counted, range, named, rfl⟩
    have bad : ¬ ((number : Int) < 1 ∨ 65535 < (number : Int)) := by omega
    refine Option.bind_eq_some_iff.mpr ⟨(host, port), split, ?_⟩
    refine Option.bind_eq_some_iff.mpr ⟨number, counted, ?_⟩
    rw [if_neg bad, Int.toNat_natCast]
    unfold Host.ofText
    cases read : parseIP host with
    | some ip =>
        dsimp only
        split_ifs
        · rfl
        · rfl
    | none =>
        have fits : ¬ (host = [] ∨ 255 < host.length) := by
          rw [not_or, not_lt]
          exact named read
        dsimp only
        rw [if_neg fits, Host.wire, bytes, List.length_map]

theorem map_toNat_ofNat {list : List Nat} (small : AllBytes list) :
    (list.map UInt8.ofNat).map UInt8.toNat = list := by
  have each : ∀ byte ∈ list, (UInt8.toNat ∘ UInt8.ofNat) byte = id byte :=
    fun byte member => UInt8.toNat_ofNat_of_lt' (small byte member)
  rw [List.map_map, List.map_congr_left each, List.map_id]

theorem map_ofNat_toNat (list : List Byte) :
    (list.map UInt8.toNat).map UInt8.ofNat = list := by
  rw [List.map_map]
  exact List.map_id'' (fun byte => UInt8.ofNat_toNat) list

/-- What is sent for an address can be received. -/
theorem Host.valid_ofText_ip {host : Text} {ip : IP} (read : parseIP host = some ip) :
    (Host.ofText host).Valid := by
  obtain ⟨sixteen, _⟩ := parseIP_spec read
  unfold Host.ofText
  rw [read]
  dsimp only
  split_ifs
  · simp [Host.Valid, sixteen]
  · simp [Host.Valid, sixteen]

theorem Host.ofText_name {host : Text} (read : parseIP host = none) :
    Host.ofText host = .name (bytes host) := by
  unfold Host.ofText
  rw [read]

theorem Host.ofText_ne_name {host : Text} {ip : IP} (read : parseIP host = some ip)
    (list : List Byte) : Host.ofText host ≠ .name list := by
  unfold Host.ofText
  rw [read]
  dsimp only
  split_ifs
  · exact Host.noConfusion
  · exact Host.noConfusion

/-- The place of what is sent for a host is the place of the host. -/
theorem Place.of_ofText {host : Text} (narrow : Narrow host) :
    Place.of (Host.ofText host).text = Place.of host := by
  cases read : parseIP host with
  | none =>
      rw [Host.ofText_name read, Host.text, chars_bytes narrow]
  | some ip =>
      obtain ⟨sixteen, small⟩ := parseIP_spec read
      have again : parseIP (Host.ofText host).text = some ip := by
        unfold Host.ofText
        rw [read]
        dsimp only
        split_ifs with four
        · have rest : AllBytes (ip.drop 12) :=
            fun byte left => small byte (List.mem_of_mem_drop left)
          have whole : mapped (ip.drop 12) = ip := by
            have front : mapped (ip.drop 12) = mapped [] ++ ip.drop 12 := by
              simp [mapped]
            rw [front, ← four, List.take_append_drop]
          rw [Host.text, Host.parseIP_v4 (by simp [sixteen]),
            map_toNat_ofNat rest, whole]
        · rw [Host.text, Host.parseIP_v6 (by simp [sixteen]),
            map_toNat_ofNat small]
      unfold Place.of
      rw [again, read]

theorem mem_of_splitHostPort {text host port : Text}
    (split : splitHostPort text = some (host, port)) :
    ∀ char ∈ host, char ∈ text := by
  obtain ⟨⟨before, last⟩, found, checked⟩ := Option.bind_eq_some_iff.mp split
  dsimp only at checked
  by_cases opening : text.head? = some '['
  · rw [if_pos opening] at checked
    split_ifs at checked
    obtain ⟨rfl, rfl⟩ := Prod.mk.inj (Option.some.inj checked)
    exact fun char member =>
      List.mem_of_mem_tail ((List.takeWhile_prefix _).subset member)
  · rw [if_neg opening] at checked
    split_ifs at checked
    obtain ⟨rfl, rfl⟩ := Prod.mk.inj (Option.some.inj checked)
    intro char member
    rw [(splitLastColon_eq found).1]
    exact List.mem_append_left _ member

theorem narrow_of_split {address : List Byte} {host port : Text}
    (split : splitHostPort (chars address) = some (host, port)) : Narrow host :=
  fun char member => narrow_chars address char (mem_of_splitHostPort split char member)

/-- A name that is sent has no brackets, which the splitting takes away. -/
theorem Host.unbracketed_ofText {address : List Byte} {host port : Text}
    (split : splitHostPort (chars address) = some (host, port)) {list : List Byte}
    (named : Host.ofText host = .name list) : Unbracketed (chars list) := by
  cases read : parseIP host with
  | some ip => exact absurd named (Host.ofText_ne_name read list)
  | none =>
      have same : Host.name (bytes host) = .name list :=
        (Host.ofText_name read).symm.trans named
      rw [← Host.name.inj same, chars_bytes (narrow_of_split split)]
      exact unbracketed_of_splitHostPort split

/-! ## What the encoder accepts -/

/-- The host of an address string is an IP address, or a name that has none of
the bytes that a decoder refuses. -/
def Sendable (address : List Byte) : Prop :=
  ∃ host port, splitHostPort (chars address) = some (host, port) ∧
    (parseIP host ≠ none ∨ ∀ byte ∈ bytes host, badByte byte = false)

/-- A payload is decoded to the destination of an address string. -/
def Arrives (address b : List Byte) : Prop :=
  ∃ s d, Go.decodeAddress b = some s ∧ destination address = some d ∧
    destination s = some d

theorem portBytes_inj {first second : Nat} (small : first < 65536)
    (smaller : second < 65536) (same : portBytes first = portBytes second) :
    first = second := by
  obtain ⟨high, rest⟩ := List.cons.inj same
  have low := (List.cons.inj rest).1
  calc first = (UInt8.ofNat (first >>> 8)).toNat <<< 8 ||| (UInt8.ofNat first).toNat :=
        (port_of_portBytes small).symm
    _ = (UInt8.ofNat (second >>> 8)).toNat <<< 8 ||| (UInt8.ofNat second).toNat := by
        rw [high, low]
    _ = second := port_of_portBytes smaller

theorem Host.wire_inj {first second : Host} (same : first.wire = second.wire) :
    first = second := by
  cases first <;> cases second <;> simp [Host.wire] at same ⊢
  · exact same
  · exact same
  · exact same.2

/-- A payload is that of one host and one port only. -/
theorem wire_inj {a : Address} {host : Host} {port : Nat}
    (small : port < 65536) (same : a.wire = host.wire ++ portBytes port) :
    a.host = host ∧ a.port = port := by
  obtain ⟨front, ending⟩ := List.append_inj' same rfl
  exact ⟨Host.wire_inj front, portBytes_inj a.ported.2 small ending⟩

/-- What the encoder accepts is decoded to the same destination exactly when
its host is an address or a name without the bytes that the decoder refuses. -/
theorem encode_decodes {address b : List Byte}
    (encoded : Go.encodeAddress address = some b) :
    Arrives address b ↔ Sendable address := by
  obtain ⟨host, port, number, split, counted, ⟨positive, small⟩, named, rfl⟩ :=
    Go.encodeAddress_ok.mp encoded
  constructor
  · rintro ⟨s, _, decoded, _⟩
    obtain ⟨a, wire, _⟩ := Go.decodeAddress_ok.mp decoded
    refine ⟨host, port, split, ?_⟩
    by_cases read : parseIP host = none
    · right
      have name := Host.ofText_name read
      have shown := (wire_inj small wire.symm).1
      have valid := a.valid
      rw [shown, name] at valid
      exact valid.2.2
    · exact .inl read
  · rintro ⟨other, last, again, good⟩
    obtain ⟨rfl, rfl⟩ := Prod.mk.inj (Option.some.inj (split.symm.trans again))
    have narrow := narrow_of_split split
    have valid : (Host.ofText host).Valid := by
      cases read : parseIP host with
      | some ip => exact Host.valid_ofText_ip read
      | none =>
          have length : (bytes host).length = host.length := List.length_map _
          rw [Host.ofText_name read]
          refine ⟨?_, ?_, good.resolve_left (not_not.mpr read)⟩
          · rw [length]
            exact List.length_pos_of_ne_nil (named read).1
          · rw [length]
            exact (named read).2
    let a : Address := ⟨Host.ofText host, number, valid, positive, small⟩
    have unbracketed : ∀ list, a.host = .name list → Unbracketed (chars list) := by
      exact fun list => Host.unbracketed_ofText split
    refine ⟨bytes a.text, (Place.of host, number),
      Go.decodeAddress_ok.mpr ⟨a, rfl, rfl⟩, ?_, ?_⟩
    · exact Option.bind_eq_some_iff.mpr ⟨(host, port), split,
        Option.bind_eq_some_iff.mpr ⟨number, counted, rfl⟩⟩
    · refine Option.bind_eq_some_iff.mpr ⟨_, a.split_text unbracketed,
        Option.bind_eq_some_iff.mpr ⟨number, a.atoi_port, ?_⟩⟩
      rw [Place.of_ofText narrow]

/-- A loopback address with its port. -/
theorem encode_decodes_loopback :
    Arrives (bytes "[::1]:80".toList)
      (4 :: List.replicate 15 0 ++ [1, 0, 80]) :=
  (encode_decodes (by decide +kernel)).mpr
    ⟨"::1".toList, "80".toList, by decide +kernel, .inl (by decide +kernel)⟩

/-- A name with a blank is sent, and refused where it arrives. -/
theorem encode_blank :
    Go.encodeAddress (bytes "a b:80".toList) = some [3, 3, 97, 32, 98, 0, 80] ∧
      Go.decodeAddress [3, 3, 97, 32, 98, 0, 80] = none ∧
      ¬ Arrives (bytes "a b:80".toList) [3, 3, 97, 32, 98, 0, 80] := by
  have refused : Go.decodeAddress [3, 3, 97, 32, 98, 0, 80] = none := by
    decide +kernel
  refine ⟨by decide +kernel, refused, ?_⟩
  rintro ⟨s, d, decoded, _⟩
  rw [refused] at decoded
  simp at decoded

/-! ## What the decoders accept, encoded again -/

/-- The bytes of the host name in a payload. -/
def hostName (p : List Byte) : List Byte :=
  if p.head? = some 3 then (p.drop 2).take (p.length - 4) else []

/-- The host name in a payload has no brackets. -/
def Bracketless (p : List Byte) : Prop :=
  ∀ byte ∈ hostName p, byte ≠ 91 ∧ byte ≠ 93

theorem mem_chars {list : List Byte} {byte : Byte} :
    Char.ofNat byte.toNat ∈ chars list ↔ byte ∈ list := by
  constructor
  · intro member
    obtain ⟨other, listed, same⟩ := List.mem_map.mp member
    have number : other.toNat = byte.toNat := by
      rw [← toNat_char other, same, toNat_char]
    exact UInt8.toNat_inj.mp number ▸ listed
  · exact List.mem_map_of_mem

theorem hostName_wire {list : List Byte} {port : Nat} :
    hostName ((Host.name list).wire ++ portBytes port) = list := by
  have kind : ((Host.name list).wire ++ portBytes port).head? = some 3 := rfl
  have length : ((Host.name list).wire ++ portBytes port).length - 4 = list.length := by
    simp [Host.wire, portBytes]
  have rest : ((Host.name list).wire ++ portBytes port).drop 2 =
      list ++ portBytes port := rfl
  unfold hostName
  rw [if_pos kind, length, rest, List.take_left]

theorem bracketless_iff {a : Address} :
    Bracketless a.wire ↔ Unbracketed a.host.text := by
  obtain ⟨host, port, valid, ported⟩ := a
  have address {other : Host} (valid : other.Valid) (octets : ∀ list, other ≠ .name list)
      (kind : (other.wire ++ portBytes port).head? ≠ some 3) :
      Bracketless (other.wire ++ portBytes port) ↔ Unbracketed other.text := by
    have free : Bracketless (other.wire ++ portBytes port) := by
      unfold Bracketless hostName
      rw [if_neg kind]
      simp
    exact iff_of_true free
      (other.unbracketed_text valid fun list named => absurd named (octets list))
  show Bracketless (host.wire ++ portBytes port) ↔ Unbracketed host.text
  cases host with
  | v4 octets => exact address valid (by simp) (by simp [Host.wire])
  | v6 octets => exact address valid (by simp) (by simp [Host.wire])
  | name list =>
      unfold Bracketless
      rw [hostName_wire, Host.text]
      have opening : '[' ∈ chars list ↔ 91 ∈ list := @mem_chars list 91
      have closing : ']' ∈ chars list ↔ 93 ∈ list := @mem_chars list 93
      unfold Unbracketed
      rw [opening, closing]
      constructor
      · exact fun free => ⟨fun member => (free 91 member).1 rfl,
          fun member => (free 93 member).2 rfl⟩
      · rintro ⟨opening, closing⟩ byte member
        exact ⟨fun same => opening (same ▸ member), fun same => closing (same ▸ member)⟩

theorem joinHostPort_inj {first second host port : Text} (plain : ':' ∉ host)
    (last : ':' ∉ port) (other : ':' ∉ second)
    (same : joinHostPort host port = joinHostPort first second) : host = first := by
  have parts := @splitLastColon_append host _ last
  unfold joinHostPort at same
  rw [if_neg plain] at same
  split_ifs at same with colons
  · have again : splitLastColon ('[' :: (first ++ ']' :: ':' :: second)) =
        some ('[' :: (first ++ [']']), second) := by
      have joined := @splitLastColon_append ('[' :: (first ++ [']'])) _ other
      simpa using joined
    rw [same, again] at parts
    have inside := (Prod.mk.inj (Option.some.inj parts)).1
    rw [← inside] at plain
    exact absurd (List.mem_cons_of_mem _ (List.mem_append_left _ colons)) plain
  · rw [same, splitLastColon_append other] at parts
    exact (Prod.mk.inj (Option.some.inj parts)).1.symm

/-- A host name has no colon. -/
theorem colonless {list : List Byte} (valid : (Host.name list).Valid) :
    ':' ∉ chars list := by
  intro member
  have listed : (58 : Byte) ∈ list := mem_chars.mp member
  have bad := valid.2.2 58 listed
  exact absurd bad (by decide)

/-- The encoder's host for the text of an address is written as Go prints it. -/
theorem Host.text_ofText_ip {host : Text} {ip : IP} (read : parseIP host = some ip) :
    (Host.ofText host).text = ipString ip := by
  obtain ⟨sixteen, small⟩ := parseIP_spec read
  unfold Host.ofText
  rw [read]
  dsimp only
  by_cases four : ip.take 12 = mapped []
  · have rest : AllBytes (ip.drop 12) :=
      fun byte left => small byte (List.mem_of_mem_drop left)
    have length : ((ip.drop 12).map UInt8.ofNat).length = 4 := by
      rw [List.length_map, List.length_drop, sixteen]
    rw [if_pos four, Host.text, Go.ipText, if_pos length, map_toNat_ofNat rest,
      ipString, if_pos four]
  · have length : ¬ (ip.map UInt8.ofNat).length = 4 := by
      rw [List.length_map, sixteen]
      decide
    rw [if_neg four, Host.text, Go.ipText, if_neg length, map_toNat_ofNat small]

theorem ipString_mapped (octets : List Nat) :
    ipString (mapped octets) = dotted octets := by
  have front : (mapped octets).take 12 = mapped [] := by simp [mapped]
  have rest : (mapped octets).drop 12 = octets := by simp [mapped]
  rw [ipString, if_pos front, rest]

/-- The text of an address is the one that Go prints for it. -/
theorem Host.text_eq_ipString {host : Host} (valid : host.Valid) {ip : IP}
    (read : parseIP host.text = some ip) : host.text = ipString ip := by
  cases host with
  | v4 octets =>
      have same := (Host.parseIP_v4 valid).symm.trans read
      have length : octets.length = 4 := valid
      rw [← Option.some.inj same, ipString_mapped, Host.text, Go.ipText, if_pos length]
  | v6 octets =>
      have same := (Host.parseIP_v6 valid).symm.trans read
      have length : ¬ octets.length = 4 := by
        have sixteen : octets.length = 16 := valid
        omega
      rw [← Option.some.inj same, Host.text, Go.ipText, if_neg length]
  | name list =>
      obtain ⟨octets, _, _, rfl, dots⟩ := parseIP_plain (colonless valid) read
      rw [ipString_mapped, ← dots]
      rfl

/-- The encoder's host for a decoder's text is written the same. -/
theorem Host.text_ofText {host : Host} (valid : host.Valid) :
    (Host.ofText host.text).Valid ∧ (Host.ofText host.text).text = host.text := by
  cases read : parseIP host.text with
  | some ip =>
      refine ⟨Host.valid_ofText_ip read, ?_⟩
      rw [Host.text_ofText_ip read, Host.text_eq_ipString valid read]
  | none =>
      cases host with
      | v4 octets => 
          rw [Host.text, Host.parseIP_v4 valid] at read
          simp at read
      | v6 octets => 
          rw [Host.text, Host.parseIP_v6 valid] at read
          simp at read
      | name list =>
          rw [Host.ofText_name read, Host.text, bytes_chars]
          exact ⟨valid, rfl⟩

/-- What `DecodeAddress` returns is sent and decoded to itself exactly when there
are no brackets in its host name. -/
theorem Go.again_iff {p s : List Byte} (decoded : Go.decodeAddress p = some s) :
    (∃ b, Go.encodeAddress s = some b ∧ Go.decodeAddress b = some s) ↔
      Bracketless p := by
  obtain ⟨a, rfl, rfl⟩ := Go.decodeAddress_ok.mp decoded
  rw [bracketless_iff]
  constructor
  · rintro ⟨b, encoded, again⟩
    obtain ⟨host, port, number, split, _, ⟨_, small⟩, _, rfl⟩ :=
      Go.encodeAddress_ok.mp encoded
    obtain ⟨c, wire, text⟩ := Go.decodeAddress_ok.mp again
    have sent := (wire_inj small wire.symm).1
    have texts : a.text = c.text := by
      rw [← chars_bytes a.narrow_text, text, chars_bytes c.narrow_text]
    have free : Unbracketed c.host.text := by
      apply c.host.unbracketed_text c.valid
      exact fun list named => Host.unbracketed_ofText split (sent.symm.trans named)
    apply a.host.unbracketed_text a.valid
    intro list named
    have valid := a.valid
    rw [named] at valid
    have colon (number : Nat) : ':' ∉ decimalText number :=
      not_mem_decimalText number (by decide)
    have shown : joinHostPort (chars list) (decimalText a.port) =
        joinHostPort c.host.text (decimalText c.port) := by
      rw [Address.text, named] at texts
      exact texts
    rw [joinHostPort_inj (colonless valid) (colon _) (colon _) shown]
    exact free
  · intro free
    obtain ⟨valid, same⟩ := Host.text_ofText a.valid
    let c : Address := ⟨Host.ofText a.host.text, a.port, valid, a.ported⟩
    have split : splitHostPort (chars (bytes a.text)) =
        some (a.host.text, decimalText a.port) := by
      refine a.split_text ?_
      rintro list named
      rw [named] at free
      exact free
    have texts : a.text = c.text := by
      show joinHostPort a.host.text _ = joinHostPort (Host.ofText a.host.text).text _
      rw [same]
    refine ⟨c.wire, Go.encodeAddress_ok.mpr ⟨a.host.text, decimalText a.port, a.port, split,
      a.atoi_port, a.ported, ?_, rfl⟩, Go.decodeAddress_ok.mpr ⟨c, rfl, by rw [texts]⟩⟩
    intro read
    rw [Host.ofText_name read] at valid
    have length : (bytes a.host.text).length = a.host.text.length := List.length_map _
    exact ⟨List.ne_nil_of_length_pos (length ▸ valid.1), length ▸ valid.2.1⟩

namespace Rust.Target

open RustStd

theorem utf8_chars {list : List Byte} (ascii : ∀ byte ∈ list, byte < 128) :
    utf8 (chars list) = list := by
  have each (byte : Byte) (small : byte < 128) :
      String.utf8EncodeChar (Char.ofNat byte.toNat) = [byte] := by
    have table : ∀ number : Fin 128,
        String.utf8EncodeChar (Char.ofNat number.val) = [UInt8.ofNat number.val] := by
      decide +kernel
    have read := table ⟨byte.toNat, UInt8.lt_iff_toNat_lt.mp small⟩
    rwa [UInt8.ofNat_toNat] at read
  induction list with
  | nil => rfl
  | cons byte rest ih =>
      obtain ⟨first, later⟩ := List.forall_mem_cons.mp ascii
      calc utf8 (chars (byte :: rest)) =
          String.utf8EncodeChar (Char.ofNat byte.toNat) ++ utf8 (chars rest) := rfl
        _ = byte :: rest := by
          rw [each byte first, ih later]
          rfl

/-- What `Target::encode` makes of a host. -/
theorem encode_ok {t : Target} {c : Address} (ascii : c.host.Ascii)
    (host : encodeHost t.host = some c.host.wire) (port : t.port = c.port) : t.encode = some c.wire := by
  have decoded : decode c.wire = some c.target := decode_ok.mpr ⟨c, ascii, rfl, rfl⟩
  unfold encode
  rw [port]
  refine Option.bind_eq_some_iff.mpr ⟨c.host.wire, host, ?_⟩
  exact Option.bind_eq_some_iff.mpr ⟨c.target, decoded, rfl⟩

/-- What `Target::decode` returns is encoded, and decoded to itself. -/
theorem again {p : List Byte} {t : Target} (decoded : decode p = some t) :
    ∃ b, t.encode = some b ∧ decode b = some t := by
  obtain ⟨a, ascii, rfl, rfl⟩ := decode_ok.mp decoded
  obtain ⟨host, port, valid, ported⟩ := a
  cases host with
  | v4 octets =>
      refine ⟨_, encode_ok ascii ?_ rfl, decoded⟩
      show encodeHost (IpAddr.v4 (octets.map UInt8.toNat)).text = _
      unfold encodeHost
      rw [parse_text_v4 (by rw [List.length_map]; exact valid) (small_bytes octets)]
      dsimp only
      rw [map_ofNat_toNat]
      rfl
  | v6 octets =>
      have sixteen : (octets.map UInt8.toNat).length = 2 * 8 := by
        rw [List.length_map]
        exact valid
      obtain ⟨eight, small, back⟩ := groupsOf_spec sixteen (small_bytes octets)
      refine ⟨_, encode_ok ascii ?_ rfl, decoded⟩
      show encodeHost (IpAddr.v6 (groupsOf (octets.map UInt8.toNat))).text = _
      unfold encodeHost
      rw [parse_text_v6 eight small]
      dsimp only
      rw [back, map_ofNat_toNat]
      rfl
  | name list =>
      cases read : IpAddr.parse (chars list) with
      | none =>
          refine ⟨_, encode_ok ascii ?_ rfl, decoded⟩
          have short : ¬ 255 < list.length := not_lt.mpr valid.2.1
          show encodeHost (chars list) = _
          unfold encodeHost
          rw [read, utf8_chars ascii]
          dsimp only
          rw [if_neg short]
          rfl
      | some address =>
          -- a name that reads as an address is sent as one, with the same text
          obtain ⟨octets, rfl, dots, four, small⟩ := parse_plain (colonless valid) read
          let c : Address := ⟨.v4 (octets.map UInt8.ofNat), port,
            by rw [Host.Valid, List.length_map, four], ported⟩
          have same : Address.target ⟨.name list, port, valid, ported⟩ = c.target := by
            show Target.mk (chars list) port =
              Target.mk (dotted ((octets.map UInt8.ofNat).map UInt8.toNat)) port
            rw [map_toNat_ofNat small, dots]
          refine ⟨c.wire, encode_ok trivial ?_ rfl, decode_ok.mpr ⟨c, trivial, rfl, same⟩⟩
          show encodeHost (chars list) = _
          unfold encodeHost
          rw [read]
          rfl

end Rust.Target

/-- What the decoders accept is encoded, and decoded to itself: in Rust always,
in Go exactly when there are no brackets in the host name. -/
theorem decoded_again (p : List Byte) :
    (∀ s, Go.decodeAddress p = some s →
      ((∃ b, Go.encodeAddress s = some b ∧ Go.decodeAddress b = some s) ↔
        Bracketless p)) ∧
    ∀ t, Rust.Target.decode p = some t →
      ∃ b, t.encode = some b ∧ Rust.Target.decode b = some t :=
  ⟨fun _ => Go.again_iff, fun _ => Rust.Target.again⟩

/-- A name goes through both encoders. -/
theorem decoded_again_name :
    (∃ b, Go.encodeAddress (bytes "a.b:80".toList) = some b ∧
      Go.decodeAddress b = some (bytes "a.b:80".toList)) ∧
    ∃ b, (Rust.Target.mk "a.b".toList 80).encode = some b ∧
      Rust.Target.decode b = some ⟨"a.b".toList, 80⟩ :=
  ⟨((decoded_again [3, 3, 97, 46, 98, 0, 80]).1 _ (by decide +kernel)).mpr
      (by unfold Bracketless; decide +kernel),
    (decoded_again [3, 3, 97, 46, 98, 0, 80]).2 _ (by decide +kernel)⟩

/-- A name in brackets is sent without them. -/
theorem decode_bracketed :
    Go.decodeAddress [3, 3, 91, 97, 93, 0, 80] = some (bytes "[a]:80".toList) ∧
      Go.encodeAddress (bytes "[a]:80".toList) = some [3, 1, 97, 0, 80] ∧
      Go.decodeAddress [3, 1, 97, 0, 80] = some (bytes "a:80".toList) ∧
      ¬ ∃ b, Go.encodeAddress (bytes "[a]:80".toList) = some b ∧
        Go.decodeAddress b = some (bytes "[a]:80".toList) := by
  have sent : Go.encodeAddress (bytes "[a]:80".toList) = some [3, 1, 97, 0, 80] := by
    decide +kernel
  have other : Go.decodeAddress [3, 1, 97, 0, 80] = some (bytes "a:80".toList) := by
    decide +kernel
  refine ⟨by decide +kernel, sent, other, ?_⟩
  rintro ⟨b, encoded, decoded⟩
  obtain rfl := Option.some.inj (sent.symm.trans encoded)
  exact absurd (other.symm.trans decoded) (by decide +kernel)

/-! ## Both decoders -/

/-- The sixteen bytes of an address that Rust has read. -/
def ipBytes : RustStd.IpAddr → IP
  | .v4 octets => mapped octets
  | .v6 groups => bytesOf groups

/-- A string of Go and a target of Rust are one destination: the port is the
same, and so is the host, as it is written or as an IP address. -/
def Alike (s : List Byte) (t : Rust.Target) : Prop :=
  ∃ host, s = bytes (joinHostPort host (decimalText t.port)) ∧
    (host = t.host ∨ ∃ address, RustStd.IpAddr.parse t.host = some address ∧
      parseIP host = some (ipBytes address))

theorem Address.alike (a : Address) : Alike (bytes a.text) a.target := by
  obtain ⟨host, port, valid, ported⟩ := a
  refine ⟨host.text, rfl, ?_⟩
  cases host with
  | name list => exact .inl rfl
  | v4 octets =>
      have four : (octets.map UInt8.toNat).length = 4 := by
        rw [List.length_map]
        exact valid
      exact .inr ⟨_, RustStd.parse_text_v4 four (small_bytes octets),
        Host.parseIP_v4 valid⟩
  | v6 octets =>
      have sixteen : (octets.map UInt8.toNat).length = 2 * 8 := by
        rw [List.length_map]
        exact valid
      obtain ⟨eight, small, back⟩ := groupsOf_spec sixteen (small_bytes octets)
      refine .inr ⟨_, RustStd.parse_text_v6 eight small, ?_⟩
      rw [ipBytes, back]
      exact Host.parseIP_v6 valid

theorem ascii_of_wire {a : Address} (ascii : ∀ byte ∈ hostName a.wire, byte < 128) :
    a.host.Ascii := by
  obtain ⟨host, port, valid, ported⟩ := a
  cases host with
  | v4 octets | v6 octets => trivial
  | name list =>
      intro byte member
      apply ascii
      rw [Address.wire, hostName_wire]
      exact member

/-- The decoders accept the same payloads whose names are ASCII, and read the
same destination. -/
theorem decoders_alike (p : List Byte) (ascii : ∀ byte ∈ hostName p, byte < 128) :
    ((Go.decodeAddress p).isSome ↔ (Rust.Target.decode p).isSome) ∧
      ∀ s t, Go.decodeAddress p = some s → Rust.Target.decode p = some t →
        Alike s t := by
  constructor
  · rw [Option.isSome_iff_exists, Option.isSome_iff_exists]
    constructor
    · rintro ⟨s, decoded⟩
      obtain ⟨a, rfl, _⟩ := Go.decodeAddress_ok.mp decoded
      exact ⟨a.target, Rust.Target.decode_ok.mpr ⟨a, ascii_of_wire ascii, rfl, rfl⟩⟩
    · rintro ⟨t, decoded⟩
      obtain ⟨a, _, rfl, _⟩ := Rust.Target.decode_ok.mp decoded
      exact ⟨bytes a.text, Go.decodeAddress_ok.mpr ⟨a, rfl, rfl⟩⟩
  · intro s t read again
    obtain ⟨a, rfl, rfl⟩ := Go.decodeAddress_ok.mp read
    obtain ⟨c, _, wire, rfl⟩ := Rust.Target.decode_ok.mp again
    obtain ⟨host, port⟩ := wire_inj c.ported.2 wire
    have same : c.target = a.target := by
      rw [Address.target, Address.target, host, port]
    rw [same]
    exact a.alike

/-- An IPv6 address that an IPv4 address is mapped to. -/
theorem decoders_alike_mapped :
    Alike (bytes "1.2.3.4:80".toList) ⟨"::ffff:1.2.3.4".toList, 80⟩ :=
  (decoders_alike (4 :: List.replicate 10 0 ++ [255, 255, 1, 2, 3, 4, 0, 80])
    (by decide +kernel)).2 _ _ (by decide +kernel) (by decide +kernel)

end Veil.Wire

import Veil.Wire.Codec

/-!
# The authentication frame

A client opens its connection with one frame of 53 bytes: type 1, length 49,
version 3, a nonce of 16 bytes and a proof of 32 bytes over a label, the TLS
exporter of this connection, the version and the nonce.  Three implementations
write and check it, each splitting the bytes in its own way: `internal/wire`
and `Server.Handle` in Go, `wire.rs` and `transport::accept` in Rust, and the
interop executable.

HMAC-SHA256 is a parameter: a function of key and message with a result of 32
bytes.
-/

namespace Veil.Wire

open Veil.Lib Veil.Mux

/-- `"Veil-v0.3 client authentication\x00"`, the same literal in every implementation. -/
def authLabel : List Byte :=
  "Veil-v0.3 client authentication".toList.map (fun c => UInt8.ofNat c.toNat) ++ [0]

section

variable (hmac : List Byte → List Byte → Vector Byte 32)

/-! ## The Go package -/

namespace Go

def authHeaderSize : Nat := 4
def authSize : Nat := 49
def authVersion : Byte := 3
/-- The type of an authentication frame. -/
def auth : Byte := 1

/-- `Reader.ReadHeader`. -/
def readAuthHeader (s : Source Byte) : Except Err (Byte × Nat × Source Byte) :=
  match readFull s authHeaderSize with
  | .error e => .error e
  | .ok (h, s) =>
      let n := (h.getD 1 0).toNat <<< 16 ||| (h.getD 2 0).toNat <<< 8 ||| (h.getD 3 0).toNat
      if h.headD 0 ≠ auth ∨ n ≠ authSize then .error .protocol else .ok (h.headD 0, n, s)

/-- `Reader.Read`. -/
def readAuth (s : Source Byte) : Except Err (Byte × List Byte × Source Byte) :=
  match readAuthHeader s with
  | .error e => .error e
  | .ok (t, n, s) =>
      match readFull s n with
      | .error e => .error e
      | .ok (p, s) => .ok (t, p, s)

/-- `Write`: the bytes of the one write it makes. -/
def writeAuth (t : Byte) (p : List Byte) : Except Err (List Byte) :=
  if t ≠ auth ∨ p.length ≠ authSize then .error .protocol
  else .ok ([auth, 0, 0, UInt8.ofNat authSize] ++ p)

def proof (key exporter body : List Byte) : List Byte :=
  (hmac key (authLabel ++ exporter ++ body)).toList

/-- `AuthPayload`, with the nonce it draws. -/
def authPayload (key exporter : List Byte) (nonce : Vector Byte 16) :
    Except Err (List Byte) :=
  if key.length ≠ 32 ∨ exporter.length ≠ 32 then .error .protocol
  else
    let b := authVersion :: nonce.toList
    .ok (b ++ proof hmac key exporter b)

def verifyAuth (key exporter p : List Byte) : Bool :=
  key.length == 32 && exporter.length == 32 && p.length == authSize &&
    p.headD 0 == authVersion && p.drop 17 == proof hmac key exporter (p.take 17)

/-- The client's frame, as `pool.dial` writes it before the first OPEN. -/
def encodeAuth (key exporter : List Byte) (nonce : Vector Byte 16) :
    Except Err (List Byte) :=
  match authPayload hmac key exporter nonce with
  | .error e => .error e
  | .ok p => writeAuth auth p

/-- The check of `Server.Handle`; an accepted stream goes on after the frame. -/
def acceptAuth (key exporter : List Byte) (s : Source Byte) : Option (Source Byte) :=
  match readAuth s with
  | .error _ => none
  | .ok (typ, p, s) =>
      if typ ≠ auth ∨ verifyAuth hmac key exporter p = false then none else some s

end Go

/-! ## The Rust crate -/

namespace Rust

/-- The first five bytes of every frame. -/
def authStart : List Byte := [1, 0, 0, 49, 3]

/-- `auth_with_nonce`: the proof covers `out[4..21]` and fills `out[21..]`. -/
def authWithNonce (key exporter : Vector Byte 32) (nonce : Vector Byte 16) : List Byte :=
  let out := authStart ++ nonce.toList ++ List.replicate 32 0
  let msg := authLabel ++ exporter.toList ++ (out.drop 4).take 17
  out.take 21 ++ (hmac key.toList msg).toList

def verifyAuth (key exporter : Vector Byte 32) (frame : List Byte) : Except Err Unit :=
  if frame.take 5 ≠ authStart then .error .protocol
  else
    let msg := authLabel ++ exporter.toList ++ (frame.drop 4).take 17
    if frame.drop 21 = (hmac key.toList msg).toList then .ok () else .error .protocol

/-- `transport::accept` after the TLS handshake. -/
def acceptAuth (key exporter : Vector Byte 32) (s : Source Byte) : Option (Source Byte) :=
  match readExact s 5 with
  | .error _ => none
  | .ok (start, s) =>
      if start ≠ authStart then none
      else
        match readExact s 48 with
        | .error _ => none
        | .ok (rest, s) =>
            match verifyAuth hmac key exporter (start ++ rest) with
            | .error _ => none
            | .ok () => some s

end Rust

/-! ## The interop executable -/

namespace Interop

def proof (k b nonce : List Byte) : Except Err (List Byte) :=
  if k.length ≠ 32 ∨ b.length ≠ 32 ∨ nonce.length ≠ 16 then .error .protocol
  else
    let body := 3 :: nonce
    let tag := hmac k (authLabel ++ b ++ body)
    .ok ([1, 0, 0, 49] ++ body ++ tag.toList)

def verifyAuth (k b p : List Byte) : Except Err Unit :=
  if p.length ≠ 53 ∨ p.take 5 ≠ [1, 0, 0, 49, 3] then .error .protocol
  else
    match proof hmac k b ((p.drop 5).take 16) with
    | .error e => .error e
    | .ok expected => if p = expected then .ok () else .error .protocol

/-- The check of the interop server. -/
def acceptAuth (k b : List Byte) (s : Source Byte) : Option (Source Byte) :=
  match readExact s 53 with
  | .error _ => none
  | .ok (auth, s) =>
      match verifyAuth hmac k b auth with
      | .error _ => none
      | .ok () => some s

end Interop

/-! ## The frame itself -/

/-- The frame a client sends, in terms of the connection and the nonce alone. -/
def authFrame (key exporter : List Byte) (nonce : Vector Byte 16) : List Byte :=
  [1, 0, 0, 49] ++ (3 :: nonce.toList) ++
    (hmac key (authLabel ++ exporter ++ (3 :: nonce.toList))).toList

@[simp]
theorem authFrame_length (key exporter : List Byte) (nonce : Vector Byte 16) :
    (authFrame hmac key exporter nonce).length = 53 := by
  simp [authFrame]

/-- A check of the start of a stream that lets through the frames of a connection. -/
structure Authenticates (accept : Source Byte → Option (Source Byte))
    (key exporter : List Byte) : Prop where
  complete : ∀ nonce rest s, s.bytes = authFrame hmac key exporter nonce ++ rest →
    ∃ s', accept s = some s' ∧ s'.bytes = rest
  sound : ∀ s s', accept s = some s' →
    ∃ nonce, s.bytes = authFrame hmac key exporter nonce ++ s'.bytes

/-- Sixteen bytes are a nonce. -/
theorem exists_nonce {bytes : List Byte} (size : bytes.length = 16) :
    ∃ nonce : Vector Byte 16, nonce.toList = bytes :=
  ⟨⟨bytes.toArray, by simpa using size⟩, by simp⟩

variable {hmac}

/-- The frames of a connection: the fixed start, any nonce, and the proof over it. -/
theorem authFrame_iff {key exporter frame : List Byte} (size : frame.length = 53) :
    (∃ nonce, frame = authFrame hmac key exporter nonce) ↔
      frame.take 5 = Rust.authStart ∧
        frame.drop 21 =
          (hmac key (authLabel ++ exporter ++ (frame.drop 4).take 17)).toList := by
  constructor
  · rintro ⟨nonce, rfl⟩
    simp [authFrame, Rust.authStart]
  · rintro ⟨start, tag⟩
    rcases @exists_nonce ((frame.drop 5).take 16) (by simp [size]) with ⟨nonce, is⟩
    have front : frame = Rust.authStart ++ (nonce.toList ++ frame.drop 21) := by
      rw [← start, is, ← List.drop_drop (i := 16) (j := 5), List.take_append_drop,
        List.take_append_drop]
    have body : (frame.drop 4).take 17 = 3 :: nonce.toList := by
      rw [front]
      simp [Rust.authStart]
    refine ⟨nonce, ?_⟩
    rw [front, tag, body]
    rfl

theorem Go.verifyAuth_iff {key exporter p : List Byte} (keySize : key.length = 32)
    (exporterSize : exporter.length = 32) (size : p.length = 49) :
    Go.verifyAuth hmac key exporter p = true ↔
      ∃ nonce, [1, 0, 0, 49] ++ p = authFrame hmac key exporter nonce := by
  rw [authFrame_iff (by simp [size])]
  rcases p with _ | ⟨version, rest⟩
  · cases size
  · simp [Go.verifyAuth, Go.proof, Go.authSize, Go.authVersion, Rust.authStart, keySize,
      exporterSize, size]

theorem Rust.verifyAuth_iff {key exporter : Vector Byte 32} {frame : List Byte}
    (size : frame.length = 53) :
    Rust.verifyAuth hmac key exporter frame = .ok () ↔
      ∃ nonce, frame = authFrame hmac key.toList exporter.toList nonce := by
  rw [authFrame_iff size]
  unfold Rust.verifyAuth
  by_cases start : frame.take 5 = Rust.authStart <;> simp [start]

theorem Interop.proof_eq {k b : List Byte} (keySize : k.length = 32)
    (exporterSize : b.length = 32) (nonce : Vector Byte 16) :
    Interop.proof hmac k b nonce.toList = .ok (authFrame hmac k b nonce) := by
  simp [Interop.proof, authFrame, keySize, exporterSize]

theorem Interop.verifyAuth_iff {k b p : List Byte} (keySize : k.length = 32)
    (exporterSize : b.length = 32) :
    Interop.verifyAuth hmac k b p = .ok () ↔
      ∃ nonce, p = authFrame hmac k b nonce := by
  constructor
  · intro verified
    unfold Interop.verifyAuth at verified
    split at verified
    · cases verified
    · next fits =>
        rw [not_or, not_not, not_not] at fits
        rcases @exists_nonce ((p.drop 5).take 16) (by simp [fits.1]) with ⟨nonce, is⟩
        rw [← is, Interop.proof_eq keySize exporterSize] at verified
        simp only at verified
        split at verified
        · next same => exact ⟨nonce, same⟩
        · cases verified
  · rintro ⟨nonce, rfl⟩
    have start : (authFrame hmac k b nonce).take 5 = [1, 0, 0, 49, 3] := by simp [authFrame]
    have middle : ((authFrame hmac k b nonce).drop 5).take 16 = nonce.toList := by
      simp [authFrame]
    unfold Interop.verifyAuth
    rw [if_neg (by simp [start]), middle, Interop.proof_eq keySize exporterSize]
    simp only [if_true]

/-! ## What is accepted -/

/-- Only the bytes 1, 0, 0, 49 announce an authentication frame. -/
theorem Go.readAuthHeader_ok {s s' : Source Byte} {t : Byte} {n : Nat}
    (read : Go.readAuthHeader s = .ok (t, n, s')) :
    t = Go.auth ∧ n = 49 ∧ s.bytes = [1, 0, 0, 49] ++ s'.bytes := by
  unfold Go.readAuthHeader at read
  split at read
  · cases read
  next h s₁ headRead =>
  rcases readExact_ok headRead with ⟨size, spelled⟩
  simp only at read
  split at read
  · cases read
  next fits =>
  cases read
  rw [not_or, not_not, not_not] at fits
  match h, size with
  | [a, b, c, d], _ =>
      have number : b.toNat <<< 16 ||| c.toNat <<< 8 ||| d.toNat = 49 := fits.2
      rw [shifts_three, fromBigEndian_three] at number
      have first : a = 1 := fits.1
      have second : b = 0 := by
        apply UInt8.toNat_inj.mp
        rw [UInt8.toNat_zero]
        omega
      have third : c = 0 := by
        apply UInt8.toNat_inj.mp
        rw [UInt8.toNat_zero]
        omega
      have fourth : d = 49 := by
        apply UInt8.toNat_inj.mp
        rw [show (49 : UInt8).toNat = 49 from rfl]
        omega
      subst first second third fourth
      exact ⟨rfl, number ▸ rfl, spelled⟩

theorem Go.readAuthHeader_word {s : Source Byte} {rest : List Byte}
    (spelled : s.bytes = [1, 0, 0, 49] ++ rest) :
    ∃ s', Go.readAuthHeader s = .ok (Go.auth, 49, s') ∧ s'.bytes = rest := by
  rcases @readExact_word .eof .unexpectedEOF _ _ _ spelled with ⟨s', headRead, left⟩
  refine ⟨s', ?_, left⟩
  unfold Go.readAuthHeader Go.readFull
  rw [show Go.authHeaderSize = [(1 : Byte), 0, 0, 49].length from rfl, headRead]
  rfl

theorem Go.acceptAuth_authenticates {key exporter : List Byte} (keySize : key.length = 32)
    (exporterSize : exporter.length = 32) :
    Authenticates hmac (Go.acceptAuth hmac key exporter) key exporter := by
  refine ⟨?_, ?_⟩
  · intro nonce rest s spelled
    have split_ : authFrame hmac key exporter nonce =
        [1, 0, 0, 49] ++ (authFrame hmac key exporter nonce).drop 4 := by simp [authFrame]
    have size : ((authFrame hmac key exporter nonce).drop 4).length = 49 := by simp
    have verified := (Go.verifyAuth_iff keySize exporterSize size).mpr ⟨nonce, split_.symm⟩
    rw [split_, List.append_assoc] at spelled
    rcases Go.readAuthHeader_word spelled with ⟨s₁, headRead, left⟩
    rcases @readExact_word .eof .unexpectedEOF _ _ _ left with ⟨s₂, bodyRead, left⟩
    rw [size] at bodyRead
    refine ⟨s₂, ?_, left⟩
    unfold Go.acceptAuth Go.readAuth Go.readFull
    simp only [headRead, bodyRead, verified]
    rfl
  · intro s s' taken
    unfold Go.acceptAuth Go.readAuth at taken
    split at taken
    · cases taken
    next typ p s₂ bodyRead =>
    split at taken
    · cases taken
    next fits =>
    cases taken
    split at bodyRead
    · cases bodyRead
    next t n s₁ headRead =>
    rcases Go.readAuthHeader_ok headRead with ⟨rfl, rfl, first⟩
    split at bodyRead
    · cases bodyRead
    next p s₂ payloadRead =>
    cases bodyRead
    rcases readExact_ok payloadRead with ⟨size, second⟩
    rw [not_or, Bool.not_eq_false] at fits
    rcases (Go.verifyAuth_iff keySize exporterSize size).mp fits.2 with ⟨nonce, is⟩
    exact ⟨nonce, by rw [first, second, ← is, List.append_assoc]⟩

theorem Rust.acceptAuth_authenticates (key exporter : Vector Byte 32) :
    Authenticates hmac (Rust.acceptAuth hmac key exporter) key.toList exporter.toList := by
  refine ⟨?_, ?_⟩
  · intro nonce rest s spelled
    have size := authFrame_length hmac key.toList exporter.toList nonce
    have verified := (Rust.verifyAuth_iff size).mpr ⟨nonce, rfl⟩
    have start : (authFrame hmac key.toList exporter.toList nonce).take 5 = Rust.authStart := by
      simp [authFrame, Rust.authStart]
    rw [← List.take_append_drop 5 (authFrame hmac key.toList exporter.toList nonce),
      start] at spelled verified
    rw [List.append_assoc] at spelled
    rcases @readExact_word .unexpectedEOF .unexpectedEOF _ _ _ spelled with
      ⟨s₁, headRead, left⟩
    rcases @readExact_word .unexpectedEOF .unexpectedEOF _ _ _ left with ⟨s₂, bodyRead, left⟩
    rw [List.length_drop, size] at bodyRead
    refine ⟨s₂, ?_, left⟩
    unfold Rust.acceptAuth Rust.readExact
    rw [show (5 : Nat) = Rust.authStart.length from rfl, headRead]
    simp only [ne_eq, not_true_eq_false, if_false]
    rw [bodyRead]
    simp only
    rw [verified]
  · intro s s' taken
    unfold Rust.acceptAuth at taken
    split at taken
    · cases taken
    next start s₁ headRead =>
    split at taken
    · cases taken
    split at taken
    · cases taken
    next rest s₂ bodyRead =>
    split at taken
    · cases taken
    next verified =>
    cases taken
    rcases readExact_ok headRead with ⟨size, first⟩
    rcases readExact_ok bodyRead with ⟨size', second⟩
    rcases (Rust.verifyAuth_iff (by simp [size, size'])).mp verified with ⟨nonce, is⟩
    exact ⟨nonce, by rw [first, second, ← is, List.append_assoc]⟩

theorem Interop.acceptAuth_authenticates {k b : List Byte} (keySize : k.length = 32)
    (exporterSize : b.length = 32) :
    Authenticates hmac (Interop.acceptAuth hmac k b) k b := by
  refine ⟨?_, ?_⟩
  · intro nonce rest s spelled
    have verified := (@Interop.verifyAuth_iff hmac _ _ _ keySize exporterSize).mpr ⟨nonce, rfl⟩
    rcases @readExact_word .unexpectedEOF .unexpectedEOF _ _ _ spelled with ⟨s₁, read, left⟩
    rw [authFrame_length] at read
    refine ⟨s₁, ?_, left⟩
    unfold Interop.acceptAuth Interop.readExact
    simp only [read, verified]
  · intro s s' taken
    unfold Interop.acceptAuth at taken
    split at taken
    · cases taken
    next p s₁ read =>
    split at taken
    · cases taken
    next verified =>
    cases taken
    rcases readExact_ok read with ⟨-, spelled⟩
    rcases (Interop.verifyAuth_iff keySize exporterSize).mp verified with ⟨nonce, is⟩
    exact ⟨nonce, by rw [spelled, is]⟩

/-- Go and the interop executable refuse keys and exporters of another length. -/
theorem Go.acceptAuth_wrongSize {key exporter : List Byte}
    (wrong : ¬ (key.length = 32 ∧ exporter.length = 32)) (s : Source Byte) :
    Go.acceptAuth hmac key exporter s = none := by
  have refuses : ∀ p, Go.verifyAuth hmac key exporter p = false := by
    intro p
    rw [not_and_or] at wrong
    rcases wrong with key_ | exporter_
    · simp [Go.verifyAuth, key_]
    · simp [Go.verifyAuth, exporter_]
  unfold Go.acceptAuth
  split
  · rfl
  · rw [if_pos (.inr (refuses _))]

theorem Interop.acceptAuth_wrongSize {k b : List Byte}
    (wrong : ¬ (k.length = 32 ∧ b.length = 32)) (s : Source Byte) :
    Interop.acceptAuth hmac k b s = none := by
  have refuses : ∀ p, Interop.verifyAuth hmac k b p = .error .protocol := by
    intro p
    have proofless : ∀ nonce, Interop.proof hmac k b nonce = .error .protocol := by
      intro nonce
      rw [Interop.proof, if_pos]
      tauto
    unfold Interop.verifyAuth
    rw [proofless]
    split <;> rfl
  unfold Interop.acceptAuth
  split
  · rfl
  · rw [refuses]

namespace Authenticates

variable {accept other : Source Byte → Option (Source Byte)} {key exporter : List Byte}

/-- An accepted stream has lost the 53 bytes of its frame, and no more. -/
theorem consumed (checks : Authenticates hmac accept key exporter) {s s' : Source Byte}
    (taken : accept s = some s') : 53 ≤ s.bytes.length ∧ s'.bytes = s.bytes.drop 53 := by
  rcases checks.sound s s' taken with ⟨nonce, spelled⟩
  have size := authFrame_length hmac key exporter nonce
  rw [spelled, List.length_append, size, ← size, List.drop_left]
  exact ⟨Nat.le_add_right _ _, rfl⟩

/-- Two checks of the same connection accept the same streams. -/
theorem agree (checks : Authenticates hmac accept key exporter)
    (checks' : Authenticates hmac other key exporter) (s : Source Byte) :
    (accept s).isSome = (other s).isSome := by
  have forward : ∀ {first second : Source Byte → Option (Source Byte)},
      Authenticates hmac first key exporter → Authenticates hmac second key exporter →
      (first s).isSome = true → (second s).isSome = true := by
    intro first second from_ to_ accepted
    rcases Option.isSome_iff_exists.mp accepted with ⟨s', taken⟩
    rcases from_.sound s s' taken with ⟨nonce, spelled⟩
    rcases to_.complete nonce _ s spelled with ⟨_, taken', -⟩
    rw [taken']
    rfl
  exact Bool.eq_iff_iff.mpr ⟨forward checks checks', forward checks' checks⟩

end Authenticates

end

/-! ## The implementations side by side -/

namespace Impl

variable (hmac : List Byte → List Byte → Vector Byte 32)

/-- The frame a client sends with this nonce. -/
def encodeAuth : Impl → Vector Byte 32 → Vector Byte 32 → Vector Byte 16 →
    Except Err (List Byte)
  | go, key, exporter, nonce => Go.encodeAuth hmac key.toList exporter.toList nonce
  | rust, key, exporter, nonce => .ok (Rust.authWithNonce hmac key exporter nonce)
  | interop, key, exporter, nonce =>
      Interop.proof hmac key.toList exporter.toList nonce.toList

/-- The server's check of a new connection. -/
def acceptAuth : Impl → Vector Byte 32 → Vector Byte 32 → Source Byte → Option (Source Byte)
  | go, key, exporter, s => Go.acceptAuth hmac key.toList exporter.toList s
  | rust, key, exporter, s => Rust.acceptAuth hmac key exporter s
  | interop, key, exporter, s => Interop.acceptAuth hmac key.toList exporter.toList s

theorem encodeAuth_eq (impl : Impl) (key exporter : Vector Byte 32) (nonce : Vector Byte 16) :
    impl.encodeAuth hmac key exporter nonce =
      .ok (authFrame hmac key.toList exporter.toList nonce) := by
  cases impl with
  | go =>
      simp [encodeAuth, Go.encodeAuth, Go.authPayload, Go.writeAuth, Go.proof, Go.auth,
        Go.authSize, Go.authVersion, authFrame]
  | rust => simp [encodeAuth, Rust.authWithNonce, Rust.authStart, authFrame]
  | interop => exact Interop.proof_eq key.length_toList exporter.length_toList nonce

theorem acceptAuth_authenticates (impl : Impl) (key exporter : Vector Byte 32) :
    Authenticates hmac (impl.acceptAuth hmac key exporter) key.toList exporter.toList := by
  cases impl with
  | go => exact Go.acceptAuth_authenticates key.length_toList exporter.length_toList
  | rust => exact Rust.acceptAuth_authenticates key exporter
  | interop =>
      exact Interop.acceptAuth_authenticates key.length_toList exporter.length_toList

/-- A frame accepted on two connections binds both exporters to one proof. -/
theorem exporter_unique {key e e' : Vector Byte 32}
    (injective : ∀ body, Function.Injective fun e : Vector Byte 32 =>
      hmac key.toList (authLabel ++ e.toList ++ body))
    {impl other : Impl} {s s' t t' : Source Byte}
    (accepted : impl.acceptAuth hmac key e s = some t)
    (accepted' : other.acceptAuth hmac key e' s' = some t')
    (same : s.bytes.take 53 = s'.bytes.take 53) : e = e' := by
  rcases (impl.acceptAuth_authenticates hmac key e).sound s t accepted with ⟨nonce, spelled⟩
  rcases (other.acceptAuth_authenticates hmac key e').sound s' t' accepted' with
    ⟨nonce', spelled'⟩
  rw [spelled, spelled', List.take_left' (authFrame_length hmac _ _ _),
    List.take_left' (authFrame_length hmac _ _ _), authFrame, authFrame] at same
  have bodies := List.append_inj_left same (by simp)
  have tags := Vector.toList_inj.mp (List.append_inj_right same (by simp))
  have nonces : nonce.toList = nonce'.toList := by simpa using bodies
  rw [nonces] at tags
  exact injective _ tags

/--
The authentication frame.  Every implementation accepts the same streams, and
consumes exactly 53 bytes of an accepted one; what any of them sends, with any
nonce, every one accepts on the same connection.  If HMAC tells the messages of
two exporters apart, as it does when it is injective in its message, a frame
accepted under two exporters has met the same one twice.
-/
theorem auth_agree :
    (∀ (key exporter : Vector Byte 32) (s : Source Byte) (impl other : Impl),
      (impl.acceptAuth hmac key exporter s).isSome =
        (other.acceptAuth hmac key exporter s).isSome) ∧
    (∀ (key exporter : List Byte) (s : Source Byte),
      (Go.acceptAuth hmac key exporter s).isSome =
        (Interop.acceptAuth hmac key exporter s).isSome) ∧
    (∀ (key exporter : Vector Byte 32) (s s' : Source Byte) (impl : Impl),
      impl.acceptAuth hmac key exporter s = some s' →
        53 ≤ s.bytes.length ∧ s'.bytes = s.bytes.drop 53) ∧
    (∀ (key exporter : Vector Byte 32) (nonce : Vector Byte 16) (impl : Impl),
      ∃ frame, impl.encodeAuth hmac key exporter nonce = .ok frame ∧ frame.length = 53 ∧
        ∀ (other : Impl) (rest : List Byte) (s : Source Byte), s.bytes = frame ++ rest →
          ∃ s', other.acceptAuth hmac key exporter s = some s' ∧ s'.bytes = rest) ∧
    (∀ key : Vector Byte 32,
      (∀ body, Function.Injective fun e : Vector Byte 32 =>
        hmac key.toList (authLabel ++ e.toList ++ body)) →
      ∀ (e e' : Vector Byte 32) (impl other : Impl) (s s' t t' : Source Byte),
        impl.acceptAuth hmac key e s = some t → other.acceptAuth hmac key e' s' = some t' →
        s.bytes.take 53 = s'.bytes.take 53 → e = e') := by
  refine ⟨?_, ?_, ?_, ?_, ?_⟩
  · intro key exporter s impl other
    exact (impl.acceptAuth_authenticates hmac key exporter).agree
      (other.acceptAuth_authenticates hmac key exporter) s
  · intro key exporter s
    by_cases sizes : key.length = 32 ∧ exporter.length = 32
    · exact (Go.acceptAuth_authenticates sizes.1 sizes.2).agree
        (Interop.acceptAuth_authenticates sizes.1 sizes.2) s
    · rw [Go.acceptAuth_wrongSize sizes, Interop.acceptAuth_wrongSize sizes]
  · intro key exporter s s' impl taken
    exact (impl.acceptAuth_authenticates hmac key exporter).consumed taken
  · intro key exporter nonce impl
    refine ⟨_, impl.encodeAuth_eq hmac key exporter nonce, authFrame_length hmac _ _ _, ?_⟩
    intro other rest s spelled
    exact (other.acceptAuth_authenticates hmac key exporter).complete nonce rest s spelled
  · intro key injective e e' impl other s s' t t' accepted accepted' same
    exact exporter_unique hmac injective accepted accepted' same

end Impl

end Veil.Wire

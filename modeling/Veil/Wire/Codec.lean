import Veil.Lib.Source
import Veil.Mux.State

/-!
# The three frame codecs

The repository writes and reads stream frames in three places: the Go package
`internal/mux` (`frame.go`, and the payload loops of `session.go`), the Rust
crate `veil-rust` (`wire.rs`, and the payload loop of `mux.rs`), and the Rust
test executable under `interop` (`wire.rs`).  Each is modelled from its own
source.  The readers work on a byte source that may cut its input anywhere.

The theorem at the end says that the three write the same bytes and accept the
same headers, and that each reads back every sequence of valid frames and
nothing else.
-/

namespace Veil.Wire

open Veil.Lib Veil.Mux

/-- `x.to_be_bytes()`, and the bytes `binary.BigEndian.PutUint32` stores. -/
def beBytes (x : UInt32) : List Byte :=
  [(x >>> 24).toUInt8, (x >>> 16).toUInt8, (x >>> 8).toUInt8, x.toUInt8]

/-- Fill a buffer of `n` bytes, or fail: `ended` before the first byte, `cut` after it. -/
def readExact (ended cut : Err) (s : Source Byte) (n : Nat) :
    Except Err (List Byte × Source Byte) :=
  let (got, s) := s.fill n
  if got.length = n then .ok (got, s)
  else if got = [] then .error ended
  else .error cut

/-- Read eight bytes, check them as a header, and read the payload it announces. -/
def readFrameBy (header : List Byte → Except Err (Byte × Nat × Nat))
    (readHead readData readControl : Source Byte → Nat → Except Err (List Byte × Source Byte))
    (s : Source Byte) : Except Err (Frame × Source Byte) :=
  match readHead s headerSize with
  | .error e => .error e
  | .ok (h, s) =>
      match header h with
      | .error e => .error e
      | .ok (t, id, n) =>
          match Kind.ofCode t with
          | none => .error .protocol
          | some kind =>
              match (if kind = .data then readData else readControl) s n with
              | .error e => .error e
              | .ok (p, s) => .ok (⟨kind, id, p⟩, s)

/-! ## The Go package -/

namespace Go

/-- `appendFrame`: the identifier is stored over four zero bytes. -/
def appendFrame (dst : List Byte) (typ : Byte) (id : UInt32) (p : List Byte) : List Byte :=
  let n := dst.length
  let dst := dst ++ [typ, 0, 0, 0, 0, UInt8.ofNat (p.length >>> 16),
    UInt8.ofNat (p.length >>> 8), UInt8.ofNat p.length]
  dst.take (n + 1) ++ beBytes id ++ dst.drop (n + 5) ++ p

/-- `io.ReadFull`. -/
def readFull : Source Byte → Nat → Except Err (List Byte × Source Byte) :=
  readExact .eof .unexpectedEOF

/-- The check of `readHeader`, on the bytes it has read. -/
def header (h : List Byte) : Except Err (Byte × Nat × Nat) :=
  match readHeader h with
  | none => .error .protocol
  | some hd => .ok (hd.kind.code, hd.id, hd.length)

/-- `Session.readPayload` of a control frame. -/
def readPayload : Source Byte → Nat → Except Err (List Byte × Source Byte) :=
  readExact .eof .eof

/-- The bytes `Session.receive` puts into a block. -/
def receive : Source Byte → Nat → Except Err (List Byte × Source Byte) :=
  readExact .unexpectedEOF .unexpectedEOF

/-- One turn of `readLoop`, as far as it parses. -/
def readFrame : Source Byte → Except Err (Frame × Source Byte) :=
  readFrameBy header readFull receive readPayload

end Go

/-! ## The Rust crate -/

namespace Rust

/-- The lengths `header` accepts for each type. -/
def validLength (kind : Byte) (n : Nat) : Bool :=
  match kind with
  | 1 => decide (1 ≤ n ∧ n ≤ 512)
  | 2 | 5 | 6 | 8 => n == 0
  | 3 => n == 1
  | 7 => n == 2
  | 4 => decide (1 ≤ n ∧ n ≤ blockSize)
  | _ => false

def header (h : List Byte) : Except Err (Byte × Nat × Nat) :=
  let id := fromBigEndian ((h.drop 1).take 4)
  let n := (h.getD 5 0).toNat <<< 16 ||| (h.getD 6 0).toNat <<< 8 ||| (h.getD 7 0).toNat
  if id = 0 ∨ id &&& 1 = 0 ∨ validLength (h.headD 0) n = false then .error .protocol
  else .ok (h.headD 0, id, n)

/-- `frame`: the length is cut to 32 bits and written without its first byte. -/
def frame (out : List Byte) (kind : Byte) (id : UInt32) (payload : List Byte) : List Byte :=
  out ++ [kind] ++ beBytes id ++ (beBytes (UInt32.ofNat payload.length)).drop 1 ++ payload

/-- `read_exact` of tokio, which has one error for every missing byte. -/
def readExact : Source Byte → Nat → Except Err (List Byte × Source Byte) :=
  Wire.readExact .unexpectedEOF .unexpectedEOF

/-- The loop of `read_loop` over the pieces of a DATA payload. -/
def readData : Source Byte → Nat → Except Err (List Byte × Source Byte) :=
  Wire.readExact .unexpectedEOF .unexpectedEOF

/-- One turn of `read_loop`, as far as it parses. -/
def readFrame : Source Byte → Except Err (Frame × Source Byte) :=
  readFrameBy header readExact readData readExact

end Rust

/-! ## The interop executable -/

namespace Interop

/-- `u24`. -/
def u24 (n : Nat) : List Byte :=
  [UInt8.ofNat (n >>> 16), UInt8.ofNat (n >>> 8), UInt8.ofNat n]

/-- `length`. -/
def length (b : List Byte) : Nat := b.foldl (fun n x => n <<< 8 ||| x.toNat) 0

def frame (t : Byte) (id : UInt32) (p : List Byte) : List Byte :=
  [t] ++ beBytes id ++ u24 p.length ++ p

/-- The lengths `header` accepts for each type. -/
def validLength (kind : Byte) (n : Nat) : Bool :=
  match kind with
  | 1 => decide (1 ≤ n ∧ n ≤ 512)
  | 2 | 5 | 6 | 8 => n == 0
  | 3 => n == 1
  | 4 => decide (1 ≤ n ∧ n ≤ 32768)
  | 7 => n == 2
  | _ => false

def header (h : List Byte) : Except Err (Byte × Nat × Nat) :=
  let id := fromBigEndian ((h.drop 1).take 4)
  let n := length (h.drop 5)
  if id = 0 ∨ id % 2 = 0 ∨ validLength (h.headD 0) n = false then .error .protocol
  else .ok (h.headD 0, id, n)

/-- `Channel::read_exact`. -/
def readExact : Source Byte → Nat → Except Err (List Byte × Source Byte) :=
  Wire.readExact .unexpectedEOF .unexpectedEOF

/-- `read_frame`. -/
def readFrame : Source Byte → Except Err (Frame × Source Byte) :=
  readFrameBy header readExact readExact readExact

end Interop

/-! ## The implementations side by side -/

/-- The three places that write and read frames. -/
inductive Impl where
  | go
  | rust
  | interop
  deriving DecidableEq, Repr

namespace Impl

/-- Append one encoded frame to a buffer. -/
def append : Impl → List Byte → Byte → UInt32 → List Byte → List Byte
  | go, dst, typ, id, p => Go.appendFrame dst typ id p
  | rust, dst, typ, id, p => Rust.frame dst typ id p
  | interop, dst, typ, id, p => dst ++ Interop.frame typ id p

/-- Check the eight bytes of a header. -/
def header : Impl → List Byte → Except Err (Byte × Nat × Nat)
  | go => Go.header
  | rust => Rust.header
  | interop => Interop.header

def readFrame : Impl → Source Byte → Except Err (Frame × Source Byte)
  | go => Go.readFrame
  | rust => Rust.readFrame
  | interop => Interop.readFrame

/-- The error at the end of the input, between two frames. -/
def ended : Impl → Err
  | go => .eof
  | rust | interop => .unexpectedEOF

/-- The bytes of a sequence of frames, appended one after another. -/
def encode (impl : Impl) (frames : List Frame) : List Byte :=
  frames.foldl (fun dst f => impl.append dst f.kind.code (UInt32.ofNat f.id) f.payload) []

/-- Read frames until one cannot be read; a frame takes at least one byte. -/
def parse (impl : Impl) (s : Source Byte) : Parsed Frame Err Byte :=
  parseItems impl.readFrame (s.bytes.length + 1) s

end Impl

/-! ## Encoding -/

theorem beBytes_eq (x : UInt32) : beBytes x = bigEndian 4 x.toNat := by
  simp only [beBytes, bigEndian, List.cons.injEq, and_true]
  refine ⟨?_, ?_, ?_, ?_⟩ <;>
    · apply UInt8.toNat_inj.mp
      simp [Nat.shiftRight_eq_div_pow]

theorem bigEndian_three (n : Nat) :
    bigEndian 3 n = [UInt8.ofNat (n >>> 16), UInt8.ofNat (n >>> 8), UInt8.ofNat n] := by
  simp [bigEndian, Nat.shiftRight_eq_div_pow]

theorem drop_beBytes (n : Nat) :
    (beBytes (UInt32.ofNat n)).drop 1 = bigEndian 3 n := by
  rw [bigEndian_three]
  simp only [beBytes, List.drop_succ_cons, List.drop_zero, List.cons.injEq, and_true]
  refine ⟨?_, ?_, ?_⟩ <;>
    · apply UInt8.toNat_inj.mp
      simp [Nat.shiftRight_eq_div_pow]
      try omega

/-- Every implementation appends the same bytes. -/
theorem Impl.append_eq (impl : Impl) (dst : List Byte) (typ : Byte) (id : UInt32)
    (p : List Byte) :
    impl.append dst typ id p =
      dst ++ (typ :: (bigEndian 4 id.toNat ++ bigEndian 3 p.length) ++ p) := by
  cases impl with
  | go => simp [append, Go.appendFrame, beBytes_eq, bigEndian_three, List.take_append]
  | rust =>
      rw [append, Rust.frame, drop_beBytes, beBytes_eq]
      simp
  | interop => simp [append, Interop.frame, Interop.u24, beBytes_eq, bigEndian_three]

/-- The bytes of a sequence of frames are the concatenation of their encodings. -/
theorem Impl.encode_eq (impl : Impl) {frames : List Frame}
    (valid : ∀ f ∈ frames, f.Valid) : impl.encode frames = encodeAll frames := by
  have onto : ∀ dst, frames.foldl
      (fun dst f => impl.append dst f.kind.code (UInt32.ofNat f.id) f.payload) dst =
        dst ++ encodeAll frames := by
    induction frames with
    | nil => simp
    | cons f rest induction =>
        intro dst
        have small : (UInt32.ofNat f.id).toNat = f.id := by
          have bound := (valid f (by simp)).2.1
          simp only [Frame.header] at bound
          simp only [UInt32.toNat_ofNat']
          omega
        have later := induction fun g member => valid g (by simp [member])
        rw [List.foldl_cons, later, impl.append_eq, small]
        simp [encodeAll, Frame.bytes, Frame.header, Header.bytes]
  exact onto []

/-! ## Headers -/

theorem shift_or (n : Nat) (x : Byte) : n <<< 8 ||| x.toNat = n * 256 + x.toNat := by
  rw [Nat.shiftLeft_eq, Nat.mul_comm n, ← Nat.two_pow_add_eq_or_of_lt x.toNat_lt n]

theorem fromBigEndian_three (x y z : Byte) :
    fromBigEndian [x, y, z] = (x.toNat * 256 + y.toNat) * 256 + z.toNat := by
  simp only [fromBigEndian, List.length_cons, List.length_nil]
  omega

theorem length_three (x y z : Byte) : Interop.length [x, y, z] = fromBigEndian [x, y, z] := by
  simp [Interop.length, shift_or, fromBigEndian_three]

theorem shifts_three (x y z : Byte) :
    x.toNat <<< 16 ||| y.toNat <<< 8 ||| z.toNat = fromBigEndian [x, y, z] := by
  have pair : x.toNat <<< 16 ||| y.toNat <<< 8 = (x.toNat <<< 8 ||| y.toNat) <<< 8 := by
    rw [Nat.shiftLeft_or_distrib, ← Nat.shiftLeft_add]
  rw [pair, shift_or, shift_or, fromBigEndian_three]

theorem Rust.validLength_eq (kind : Byte) (n : Nat) :
    Rust.validLength kind n = (Kind.ofCode kind).any (·.lengthOk n) := by
  rw [Bool.eq_iff_iff]
  unfold Rust.validLength Kind.ofCode
  split <;>
    simp only [Option.any_some, Option.any_none, Kind.lengthOk, Bool.and_eq_true,
      decide_eq_true_eq, Nat.lt_iff_add_one_le, Nat.zero_add]

theorem Interop.validLength_eq (kind : Byte) (n : Nat) :
    Interop.validLength kind n = (Kind.ofCode kind).any (·.lengthOk n) := by
  have block : blockSize = 32768 := rfl
  rw [Bool.eq_iff_iff]
  unfold Interop.validLength Kind.ofCode
  split <;>
    simp only [Option.any_some, Option.any_none, Kind.lengthOk, Bool.and_eq_true,
      decide_eq_true_eq, Nat.lt_iff_add_one_le, Nat.zero_add, block]

/-- What a header check does with the three fields it has read. -/
def checkFields (t : Byte) (id n : Nat) : Except Err (Byte × Nat × Nat) :=
  if id = 0 ∨ id % 2 = 0 ∨ (Kind.ofCode t).any (·.lengthOk n) = false then .error .protocol
  else .ok (t, id, n)

theorem Go.header_eq (h : List Byte) :
    Go.header h = checkFields (h.headD 0) (fromBigEndian ((h.drop 1).take 4))
      (fromBigEndian (h.drop 5)) := by
  unfold Go.header readHeader checkFields
  cases known : Kind.ofCode (h.headD 0) with
  | none => rw [if_pos (.inr (.inr (by rw [Option.any_none])))]
  | some kind =>
      have same := Kind.code_of_ofCode known
      simp only [Option.any_some]
      generalize fromBigEndian ((h.drop 1).take 4) = id
      generalize fromBigEndian (h.drop 5) = n
      by_cases fine : id ≠ 0 ∧ id % 2 = 1 ∧ kind.lengthOk n = true
      · have passes : ¬ (id = 0 ∨ id % 2 = 0 ∨ kind.lengthOk n = false) := by
          rintro (zero | even | long)
          · exact fine.1 zero
          · omega
          · rw [fine.2.2] at long
            cases long
        rw [if_pos fine, if_neg passes]
        simp only [same]
      · have fails : id = 0 ∨ id % 2 = 0 ∨ kind.lengthOk n = false := by
          by_contra passes
          simp only [not_or, Bool.not_eq_false] at passes
          exact fine ⟨passes.1, by omega, passes.2.2⟩
        rw [if_neg fine, if_pos fails]

theorem last_three {h : List Byte} (size : h.length = headerSize) :
    ∃ x y z, h.drop 5 = [x, y, z] ∧ h.getD 5 0 = x ∧ h.getD 6 0 = y ∧ h.getD 7 0 = z := by
  match h, size with
  | [_, _, _, _, _, x, y, z], _ => exact ⟨x, y, z, rfl, rfl, rfl, rfl⟩

/-- Every implementation accepts the same headers and reads the same from them. -/
theorem Impl.header_eq (impl : Impl) {h : List Byte} (size : h.length = headerSize) :
    impl.header h = Go.header h := by
  rcases last_three size with ⟨x, y, z, tail, fifth, sixth, seventh⟩
  cases impl with
  | go => rfl
  | rust =>
      rw [Go.header_eq, header, Rust.header, fifth, sixth, seventh, shifts_three,
        Rust.validLength_eq, Nat.and_one_is_mod, checkFields, tail]
  | interop =>
      rw [Go.header_eq, header, Interop.header, tail, length_three, Interop.validLength_eq,
        checkFields]

/-! ## Reading -/

/-- A full buffer is the next `n` bytes. -/
theorem readExact_ok {ended cut : Err} {s s' : Source Byte} {n : Nat} {got : List Byte} :
    readExact ended cut s n = .ok (got, s') →
      got.length = n ∧ s.bytes = got ++ s'.bytes := by
  intro read
  rcases Source.fill_spec s n with ⟨first, rest⟩
  unfold readExact at read
  split at read
  next got' after filled =>
    rw [filled] at first rest
    simp only at first rest
    split at read
    · next size =>
        cases read
        refine ⟨size, ?_⟩
        rw [first, rest, List.take_append_drop]
    · split at read <;> cases read

theorem readExact_word {ended cut : Err} {s : Source Byte} {word rest : List Byte}
    (next : s.bytes = word ++ rest) :
    ∃ s', readExact ended cut s word.length = .ok (word, s') ∧ s'.bytes = rest := by
  rcases Source.fill_word next with ⟨got, left⟩
  refine ⟨(s.fill word.length).2, ?_, left⟩
  unfold readExact
  rw [← Prod.mk.eta (p := s.fill word.length), got]
  simp

theorem readExact_atEnd {ended cut : Err} {s : Source Byte} (empty : s.bytes = []) {n : Nat}
    (some_ : 0 < n) : readExact ended cut s n = .error ended := by
  have got := (Source.fill_spec s n).1
  rw [empty, List.take_nil] at got
  unfold readExact
  rw [← Prod.mk.eta (p := s.fill n), got]
  simp [some_.ne]

/-- Filling a buffer under some pair of error names. -/
def Exact (read : Source Byte → Nat → Except Err (List Byte × Source Byte)) : Prop :=
  ∃ ended cut, read = readExact ended cut

/-- A reader of headers and payloads reads back exactly the valid frames. -/
theorem readFrameBy_reads {header : List Byte → Except Err (Byte × Nat × Nat)}
    {readHead readData readControl : Source Byte → Nat → Except Err (List Byte × Source Byte)}
    (same : ∀ h, h.length = headerSize → header h = Go.header h)
    (head : Exact readHead) (data : Exact readData) (control : Exact readControl) :
    Reads (readFrameBy header readHead readData readControl) Frame.Valid Frame.bytes := by
  rcases head with ⟨_, _, rfl⟩
  have payload : ∀ kind : Kind,
      ∃ ended cut, (if kind = .data then readData else readControl) = readExact ended cut := by
    intro kind
    split
    · exact data
    · exact control
  refine ⟨?_, ?_⟩
  · intro f rest s valid spelled
    rw [Frame.bytes, List.append_assoc] at spelled
    rcases readExact_word spelled with ⟨s₁, headRead, left⟩
    rcases payload f.kind with ⟨_, _, exact_⟩
    rcases readExact_word left with ⟨s₂, payloadRead, left⟩
    refine ⟨s₂, ?_, left⟩
    have checked : header f.header.bytes = .ok (f.kind.code, f.id, f.payload.length) := by
      rw [same _ f.header.bytes_length, Go.header, readHeader_bytes valid]
      rfl
    rw [Header.bytes_length] at headRead
    unfold readFrameBy
    rw [headRead]
    simp only [checked, Kind.ofCode_code]
    rw [exact_, payloadRead]
  · intro s f s' read
    unfold readFrameBy at read
    split at read
    · cases read
    next h s₁ headRead =>
    rcases readExact_ok headRead with ⟨size, first⟩
    rw [same h size, Go.header] at read
    cases decoded : readHeader h with
    | none =>
        rw [decoded] at read
        cases read
    | some hd =>
        rw [decoded] at read
        simp only [Kind.ofCode_code] at read
        rcases payload hd.kind with ⟨_, _, exact_⟩
        rw [exact_] at read
        split at read
        · cases read
        next p s₂ payloadRead =>
        cases read
        rcases readExact_ok payloadRead with ⟨short, second⟩
        rcases readHeader_sound size decoded with ⟨rfl, valid⟩
        have announced : (⟨hd.kind, hd.id, p⟩ : Frame).header = hd := by
          rw [Frame.header, short]
        refine ⟨?_, ?_⟩
        · rw [Frame.Valid, announced]
          exact valid
        · rw [Frame.bytes, announced, List.append_assoc, ← second, ← first]

namespace Impl

/-- Every implementation reads back exactly the valid frames. -/
theorem readFrame_reads (impl : Impl) :
    Reads impl.readFrame Frame.Valid Frame.bytes := by
  have same := fun h size => @header_eq impl h size
  cases impl with
  | go => exact readFrameBy_reads same ⟨_, _, rfl⟩ ⟨_, _, rfl⟩ ⟨_, _, rfl⟩
  | rust => exact readFrameBy_reads same ⟨_, _, rfl⟩ ⟨_, _, rfl⟩ ⟨_, _, rfl⟩
  | interop => exact readFrameBy_reads same ⟨_, _, rfl⟩ ⟨_, _, rfl⟩ ⟨_, _, rfl⟩

theorem readFrame_atEnd (impl : Impl) (s : Source Byte) (empty : s.bytes = []) :
    impl.readFrame s = .error impl.ended := by
  have none_ : ∀ ended cut, readExact ended cut s headerSize = .error ended :=
    fun _ _ => readExact_atEnd empty (by decide)
  cases impl <;>
    simp only [readFrame, Go.readFrame, Rust.readFrame, Interop.readFrame, readFrameBy,
      Go.readFull, Rust.readExact, Interop.readExact, none_, ended]

/-- A sequence of frames takes at least as many bytes. -/
theorem length_le_encodeAll (frames : List Frame) :
    frames.length ≤ (encodeAll frames).length := by
  induction frames with
  | nil => simp
  | cons f rest induction =>
      simp only [encodeAll, List.flatMap_cons, List.length_append, List.length_cons,
        Frame.bytes_length, headerSize] at induction ⊢
      omega

/--
The stream frame codecs.  Each implementation parses the encoding of any list of
valid frames, cut into reads in any way, to exactly that list, and ends at the
end of the input.  Whatever it parses as whole frames is the encoding of these
frames.  All of them append the same bytes for the same frame, and accept the
same headers with the same type, identifier and length.
-/
theorem codecs_agree (impl : Impl) :
    (∀ frames : List Frame, (∀ f ∈ frames, f.Valid) → ∀ s : Source Byte,
      s.bytes = impl.encode frames → impl.parse s = ⟨frames, some impl.ended, []⟩) ∧
    (∀ s : Source Byte, (impl.parse s).rest = [] →
      (∀ f ∈ (impl.parse s).items, f.Valid) ∧
        impl.encode (impl.parse s).items = s.bytes) ∧
    (∀ other : Impl, ∀ dst typ id p, impl.append dst typ id p = other.append dst typ id p) ∧
    (∀ other : Impl, ∀ h : List Byte, h.length = headerSize →
      impl.header h = other.header h) := by
  refine ⟨?_, ?_, ?_, ?_⟩
  · intro frames valid s spelled
    rw [impl.encode_eq valid] at spelled
    have short := length_le_encodeAll frames
    rw [← spelled] at short
    exact impl.readFrame_reads.parse_words impl.readFrame_atEnd valid
      (Nat.lt_succ_of_le short) spelled
  · intro s whole
    rcases impl.readFrame_reads.parse_sound (s.bytes.length + 1) s with ⟨valid, spelled⟩
    refine ⟨valid, (impl.encode_eq valid).trans ?_⟩
    change (parseItems impl.readFrame (s.bytes.length + 1) s).rest = [] at whole
    rw [whole, List.append_nil] at spelled
    exact spelled.symm
  · intro other dst typ id p
    rw [append_eq, append_eq]
  · intro other h size
    rw [header_eq _ size, header_eq _ size]

end Impl

end Veil.Wire

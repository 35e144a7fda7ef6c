import Veil.Lib.Code

/-!
# Frames of the stream multiplexer

The eight frame kinds, the eight-byte header in front of every payload, and
the two functions that write and check it, as in `internal/mux/frame.go`.

A frame that can be sent is one whose header the reader accepts: an odd stream
identifier below `2 ^ 32` and a payload length within the bound of its kind.
On these frames the encoding is self-delimiting, so a peer that reads the
concatenation of encodings recovers the frames in order.
-/

namespace Veil.Mux

open Veil.Lib

/-- One byte of the transport. -/
abbrev Byte := UInt8

def headerSize : Nat := 8
def blockSize : Nat := 32 * 1024
def batchSize : Nat := 128 * 1024
/-- At most 8 MiB of unread payload per stream. -/
def windowBlocks : Int := 256
def maxStreams : Nat := 8
def maxControls : Nat := 8 * maxStreams
/-- A relay buffer that fills one batch together with its four DATA headers. -/
def payloadSize : Nat := batchSize - batchSize / blockSize * headerSize

/-- The frame types, in the order of their wire values. -/
inductive Kind where
  | «open»
  | opened
  | failed
  | data
  | fin
  | reset
  | credit
  | finished
  deriving DecidableEq, Repr

namespace Kind

/-- The wire value: `iota + 1` in declaration order. -/
def code : Kind → Byte
  | «open» => 1
  | opened => 2
  | failed => 3
  | data => 4
  | fin => 5
  | reset => 6
  | credit => 7
  | finished => 8

def ofCode : Byte → Option Kind
  | 1 => some «open»
  | 2 => some opened
  | 3 => some failed
  | 4 => some data
  | 5 => some fin
  | 6 => some reset
  | 7 => some credit
  | 8 => some finished
  | _ => none

/-- The payload lengths `readHeader` accepts for each type. -/
def lengthOk : Kind → Nat → Bool
  | «open», n => 0 < n && n ≤ 512
  | opened, n | fin, n | reset, n | finished, n => n == 0
  | failed, n => n == 1
  | credit, n => n == 2
  | data, n => 0 < n && n ≤ blockSize

@[simp]
theorem ofCode_code (kind : Kind) : ofCode kind.code = some kind := by
  cases kind <;> rfl

theorem code_of_ofCode {byte : Byte} {kind : Kind}
    (decoded : ofCode byte = some kind) : kind.code = byte := by
  unfold ofCode at decoded
  split at decoded <;> cases decoded <;> rfl

theorem lengthOk_le {kind : Kind} {n : Nat} (fits : kind.lengthOk n = true) :
    n ≤ blockSize := by
  cases kind <;>
    simp only [lengthOk, Bool.and_eq_true, decide_eq_true_eq, beq_iff_eq] at fits <;>
    simp only [blockSize] at * <;>
    omega

end Kind

/-- What a header says about the frame that follows. -/
structure Header where
  kind : Kind
  id : Nat
  length : Nat
  deriving DecidableEq, Repr

/-- A frame: type, stream identifier and payload. -/
structure Frame where
  kind : Kind
  id : Nat
  payload : List Byte
  deriving DecidableEq, Repr

namespace Header

/-- The eight bytes of a header. -/
def bytes (header : Header) : List Byte :=
  header.kind.code :: (bigEndian 4 header.id ++ bigEndian 3 header.length)

/-- The headers `readHeader` accepts. -/
def Valid (header : Header) : Prop :=
  header.id % 2 = 1 ∧ header.id < 2 ^ 32 ∧ header.kind.lengthOk header.length = true

instance (header : Header) : Decidable header.Valid :=
  inferInstanceAs (Decidable (_ ∧ _ ∧ _))

@[simp]
theorem bytes_length (header : Header) : header.bytes.length = headerSize := by
  simp [bytes, headerSize]

end Header

/--
`readHeader` on the eight bytes it has read: the type must be known, the
identifier odd (hence not zero) and the length within the bound of the type.
-/
def readHeader (h : List Byte) : Option Header :=
  match Kind.ofCode (h.headD 0) with
  | none => none
  | some kind =>
      let id := fromBigEndian ((h.drop 1).take 4)
      let n := fromBigEndian (h.drop 5)
      if id ≠ 0 ∧ id % 2 = 1 ∧ kind.lengthOk n = true then some ⟨kind, id, n⟩ else none

theorem readHeader_bytes {header : Header} (valid : header.Valid) :
    readHeader header.bytes = some header := by
  rcases header with ⟨kind, id, length⟩
  rcases valid with ⟨odd, small, fits⟩
  simp only at odd small fits
  have short : length < 256 ^ 3 := by
    have := Kind.lengthOk_le fits
    simp only [blockSize] at this
    omega
  have idBack : fromBigEndian (bigEndian 4 id) = id := by
    rw [fromBigEndian_bigEndian, Nat.mod_eq_of_lt (by omega)]
  have lengthBack : fromBigEndian (bigEndian 3 length) = length := by
    rw [fromBigEndian_bigEndian, Nat.mod_eq_of_lt short]
  have idPart : ((Header.bytes ⟨kind, id, length⟩).drop 1).take 4 = bigEndian 4 id := by
    simp [Header.bytes]
  have lengthPart : (Header.bytes ⟨kind, id, length⟩).drop 5 = bigEndian 3 length := by
    simp [Header.bytes]
  have headPart : (Header.bytes ⟨kind, id, length⟩).headD 0 = kind.code := rfl
  rw [readHeader, headPart, Kind.ofCode_code, idPart, lengthPart]
  simp only [idBack, lengthBack]
  rw [if_pos ⟨by omega, odd, fits⟩]

/-- An accepted header is valid, and its bytes are the ones that were read. -/
theorem readHeader_sound {h : List Byte} {header : Header}
    (size : h.length = headerSize) (read : readHeader h = some header) :
    h = header.bytes ∧ header.Valid := by
  rw [readHeader] at read
  split at read
  · cases read
  · next kind decoded =>
      simp only at read
      split at read
      · next checks =>
          cases read
          match h, size with
          | [t, a, b, c, d, x, y, z], _ =>
              have idBytes : bigEndian 4 (fromBigEndian [a, b, c, d]) = [a, b, c, d] :=
                bigEndian_fromBigEndian [a, b, c, d]
              have lengthBytes : bigEndian 3 (fromBigEndian [x, y, z]) = [x, y, z] :=
                bigEndian_fromBigEndian [x, y, z]
              have small : fromBigEndian [a, b, c, d] < 2 ^ 32 := by
                have := fromBigEndian_lt [a, b, c, d]
                simpa using this
              have typeByte : kind.code = t := Kind.code_of_ofCode decoded
              refine ⟨?_, checks.2.1, small, checks.2.2⟩
              simp [Header.bytes, idBytes, lengthBytes, typeByte]
      · cases read

namespace Frame

/-- The header in front of a frame's payload. -/
def header (frame : Frame) : Header :=
  ⟨frame.kind, frame.id, frame.payload.length⟩

/-- `appendFrame` on an empty buffer. -/
def bytes (frame : Frame) : List Byte :=
  frame.header.bytes ++ frame.payload

/-- A frame whose header the reader accepts. -/
def Valid (frame : Frame) : Prop := frame.header.Valid

@[simp]
theorem bytes_length (frame : Frame) :
    frame.bytes.length = headerSize + frame.payload.length := by
  simp [bytes]

/-- The amount a CREDIT frame grants: its payload as a big-endian `uint16`. -/
def amount (frame : Frame) : Nat := fromBigEndian frame.payload

end Frame

/-- The encodings of valid frames are self-delimiting. -/
theorem frames_selfDelimiting : SelfDelimiting Frame.Valid Frame.bytes where
  nonempty frame _ empty := by
    have := congrArg List.length empty
    simp [headerSize] at this
  unique first second rest rest' validFirst validSecond equal := by
    simp only [Frame.bytes, List.append_assoc] at equal
    have headers : first.header.bytes = second.header.bytes :=
      List.append_inj_left equal (by simp)
    have same : first.header = second.header := by
      have := congrArg readHeader headers
      rw [readHeader_bytes validFirst, readHeader_bytes validSecond] at this
      exact Option.some.inj this
    have tails := List.append_inj_right equal (by simp)
    have sizes : first.payload.length = second.payload.length :=
      congrArg Header.length same
    have payloads : first.payload = second.payload := List.append_inj_left tails sizes
    cases first
    cases second
    simp only [Frame.header, Header.mk.injEq] at same payloads
    simp [same.1, same.2.1, payloads]

/-- The bytes of a sequence of frames, as the writer concatenates them. -/
def encodeAll (frames : List Frame) : List Byte := frames.flatMap Frame.bytes

@[simp]
theorem encodeAll_nil : encodeAll [] = [] := rfl

@[simp]
theorem encodeAll_append (first second : List Frame) :
    encodeAll (first ++ second) = encodeAll first ++ encodeAll second := by
  simp [encodeAll]

@[simp]
theorem encodeAll_singleton (frame : Frame) : encodeAll [frame] = frame.bytes := by
  simp [encodeAll]

end Veil.Mux

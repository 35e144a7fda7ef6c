import Veil.Lib.Json

/-!
# SHA-256

The digest of a text's UTF-8 form, as lower-case hexadecimal digits.
-/

namespace Veil.Lib.Sha256

def constants : List UInt32 :=
  [0x428a2f98, 0x71374491, 0xb5c0fbcf, 0xe9b5dba5,
    0x3956c25b, 0x59f111f1, 0x923f82a4, 0xab1c5ed5,
    0xd807aa98, 0x12835b01, 0x243185be, 0x550c7dc3,
    0x72be5d74, 0x80deb1fe, 0x9bdc06a7, 0xc19bf174,
    0xe49b69c1, 0xefbe4786, 0x0fc19dc6, 0x240ca1cc,
    0x2de92c6f, 0x4a7484aa, 0x5cb0a9dc, 0x76f988da,
    0x983e5152, 0xa831c66d, 0xb00327c8, 0xbf597fc7,
    0xc6e00bf3, 0xd5a79147, 0x06ca6351, 0x14292967,
    0x27b70a85, 0x2e1b2138, 0x4d2c6dfc, 0x53380d13,
    0x650a7354, 0x766a0abb, 0x81c2c92e, 0x92722c85,
    0xa2bfe8a1, 0xa81a664b, 0xc24b8b70, 0xc76c51a3,
    0xd192e819, 0xd6990624, 0xf40e3585, 0x106aa070,
    0x19a4c116, 0x1e376c08, 0x2748774c, 0x34b0bcb5,
    0x391c0cb3, 0x4ed8aa4a, 0x5b9cca4f, 0x682e6ff3,
    0x748f82ee, 0x78a5636f, 0x84c87814, 0x8cc70208,
    0x90befffa, 0xa4506ceb, 0xbef9a3f7, 0xc67178f2]

structure Words where
  a : UInt32
  b : UInt32
  c : UInt32
  d : UInt32
  e : UInt32
  f : UInt32
  g : UInt32
  h : UInt32

def start : Words :=
  ⟨0x6a09e667, 0xbb67ae85, 0x3c6ef372, 0xa54ff53a,
    0x510e527f, 0x9b05688c, 0x1f83d9ab, 0x5be0cd19⟩

def rotate (word : UInt32) (count : UInt32) : UInt32 :=
  (word >>> count) ||| (word <<< (32 - count))

/-- The message schedule, newest word first, extended by so many words. -/
def schedule : Nat → List UInt32 → List UInt32
  | 0, words => words
  | more + 1, words =>
      let old (index : Nat) := words.getD index 0
      let small := rotate (old 14) 7 ^^^ rotate (old 14) 18 ^^^ (old 14 >>> 3)
      let large := rotate (old 1) 17 ^^^ rotate (old 1) 19 ^^^ (old 1 >>> 10)
      schedule more ((old 15 + small + old 6 + large) :: words)

def round (s : Words) (input : UInt32 × UInt32) : Words :=
  let sum := rotate s.e 6 ^^^ rotate s.e 11 ^^^ rotate s.e 25
  let choice := (s.e &&& s.f) ^^^ (~~~s.e &&& s.g)
  let first := s.h + sum + choice + input.1 + input.2
  let mix := rotate s.a 2 ^^^ rotate s.a 13 ^^^ rotate s.a 22
  let majority := (s.a &&& s.b) ^^^ (s.a &&& s.c) ^^^ (s.b &&& s.c)
  ⟨first + (mix + majority), s.a, s.b, s.c, s.d + first, s.e, s.f, s.g⟩

def add (s t : Words) : Words :=
  ⟨s.a + t.a, s.b + t.b, s.c + t.c, s.d + t.d,
    s.e + t.e, s.f + t.f, s.g + t.g, s.h + t.h⟩

/-- One block of sixteen words. -/
def compress (s : Words) (block : List UInt32) : Words :=
  let words := (schedule 48 block.reverse).reverse
  add s ((constants.zip words).foldl round s)

def word (bytes : List UInt8) : UInt32 :=
  bytes.foldl (fun value byte => value <<< 8 ||| byte.toUInt32) 0

/-- Consecutive pieces of equal length; the last piece may be shorter. -/
def pieces {α : Type} (size : Nat) : Nat → List α → List (List α)
  | 0, _ => []
  | _ + 1, [] => []
  | fuel + 1, list => list.take size :: pieces size fuel (list.drop size)

/-- The message with its padding and its length in bits. -/
def padded (bytes : List UInt8) : List UInt8 :=
  let bits := 8 * bytes.length
  let zeros : List UInt8 := List.replicate ((119 - bytes.length % 64) % 64) 0
  let length := (List.range 8).map fun index =>
    UInt8.ofNat (bits >>> (8 * (7 - index)))
  bytes ++ [0x80] ++ zeros ++ length

def digest (bytes : List UInt8) : Words :=
  let message := padded bytes
  let words := (pieces 4 message.length message).map word
  (pieces 16 words.length words).foldl compress start

def hexWord (word : UInt32) : Text :=
  (List.range 8).map fun index =>
    Json.hexDigit (word.toNat >>> (4 * (7 - index)) % 16)

def hex (s : Words) : Text :=
  [s.a, s.b, s.c, s.d, s.e, s.f, s.g, s.h].flatMap hexWord

/-- The digest of a text in hexadecimal digits. -/
def sum (text : Text) : Text :=
  hex (digest (text.flatMap String.utf8EncodeChar))

theorem length_sum (text : Text) : (sum text).length = 64 := by
  simp [sum, hex, hexWord]

example : (sum "abc".toList).take 8 = "ba7816bf".toList := by decide +kernel

theorem sum_ne_nil (text : Text) : sum text ≠ [] := by
  intro empty
  have length := length_sum text
  simp [empty] at length

end Veil.Lib.Sha256

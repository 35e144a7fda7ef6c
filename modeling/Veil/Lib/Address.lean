import Veil.Lib.Json

/-!
# Network addresses as text

A host and a port in one text, decimal integers and IP addresses, read the way
the networking library of Go reads them.  One address has many spellings: an
IPv4 address stands for the IPv6 address it is mapped to, zeros of an IPv6
address may be left out, and an integer may have a sign and leading zeros.
-/

namespace Veil.Lib

/-- What precedes the last colon of a text and what follows it. -/
def splitLastColon (text : Text) : Option (Text × Text) :=
  match text.reverse.dropWhile (· ≠ ':') with
  | [] => none
  | _ :: before =>
      some (before.reverse, (text.reverse.takeWhile (· ≠ ':')).reverse)

/-- The host and the port of an address; a host with colons is in brackets. -/
def splitHostPort (text : Text) : Option (Text × Text) := do
  let (before, port) ← splitLastColon text
  if text.head? = some '[' then
    let host := text.tail.takeWhile (· ≠ ']')
    if before = '[' :: (host ++ [']']) ∧ '[' ∉ text.tail ∧ ']' ∉ port then
      some (host, port)
    else none
  else if ':' ∈ before ∨ '[' ∈ text ∨ ']' ∈ text then none
  else some (before, port)

/-- Digits only, as a number. -/
def decimal (digits : Text) : Option Nat :=
  if digits ≠ [] ∧ digits.all Char.isDigit then
    some (Nat.ofDigitChars 10 digits 0)
  else none

/-- A decimal integer of 64 bits, with an optional sign. -/
def atoi (text : Text) : Option Int := do
  let value : Int ←
    match text with
    | '+' :: digits => (decimal digits).map fun value => (value : Int)
    | '-' :: digits => (decimal digits).map fun value => -(value : Int)
    | digits => (decimal digits).map fun value => (value : Int)
  if -2 ^ 63 ≤ value ∧ value < 2 ^ 63 then some value else none

/-- The sixteen bytes of an address. -/
abbrev IP := List Nat

def octet (part : Text) : Option Nat := do
  let value ← decimal part
  if (1 < part.length ∧ part.head? = some '0') ∨ 255 < value then none
  else some value

def parseIPv4 (text : Text) : Option (List Nat) := do
  let octets ← (text.splitOn '.').mapM octet
  if octets.length = 4 then some octets else none

def mapped (octets : List Nat) : IP :=
  List.replicate 10 0 ++ [255, 255] ++ octets

def isHex (char : Char) : Bool :=
  (Json.hexValue char).isSome

def hexNumber (digits : Text) : Nat :=
  digits.foldl (fun value char => 16 * value + (Json.hexValue char).getD 0) 0

/--
The fields of an IPv6 address, at most `left` of them, after the bytes read so
far and the position of the ellipsis among them.
-/
def fields : Nat → Text → List Nat → Option Nat →
    Option (List Nat × Option Nat)
  | 0, text, bytes, ellipsis =>
      if text = [] then some (bytes, ellipsis) else none
  | left + 1, text, bytes, ellipsis =>
      let digits := text.takeWhile isHex
      let value := hexNumber digits
      let longer := bytes ++ [value / 256, value % 256]
      if digits.length = 0 ∨ 4 < digits.length then none
      else
        match text.dropWhile isHex with
        | [] => some (longer, ellipsis)
        | '.' :: _ =>
            -- an IPv4 address in the last two fields
            if (ellipsis = none ∧ bytes.length ≠ 12) ∨ 12 < bytes.length then
              none
            else (parseIPv4 text).map fun octets => (bytes ++ octets, ellipsis)
        | [':'] => none
        | ':' :: ':' :: more =>
            if ellipsis.isSome then none
            else if more = [] then some (longer, some longer.length)
            else fields left more longer (some longer.length)
        | ':' :: more => fields left more longer ellipsis
        | _ => none

/-- Fill the place of the ellipsis with zeros. -/
def expand : List Nat × Option Nat → Option IP
  | (bytes, none) => if bytes.length = 16 then some bytes else none
  | (bytes, some place) =>
      if bytes.length < 16 then
        some (bytes.take place ++ List.replicate (16 - bytes.length) 0 ++
          bytes.drop place)
      else none

def parseIPv6 (text : Text) : Option IP :=
  if '%' ∈ text then none
  else
    match text with
    | [':', ':'] => some (List.replicate 16 0)
    | ':' :: ':' :: more => (fields 8 more [] (some 0)).bind expand
    | _ => (fields 8 text [] none).bind expand

/-- An address in the sixteen bytes that equal addresses share. -/
def parseIP (text : Text) : Option IP :=
  match text.find? fun char => char = '.' || char = ':' || char = '%' with
  | some '.' => (parseIPv4 text).map mapped
  | some ':' => parseIPv6 text
  | _ => none

/-- The unspecified address of either family. -/
def unspecified (ip : IP) : Bool :=
  ip = List.replicate 16 0 || ip = mapped [0, 0, 0, 0]

example : parseIP "::ffff:127.0.0.1".toList = parseIP "127.0.0.1".toList := by
  decide +kernel

example : splitHostPort "[::1]:80".toList = some ("::1".toList, "80".toList) := by
  decide +kernel

end Veil.Lib

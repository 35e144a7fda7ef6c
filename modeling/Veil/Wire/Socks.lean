import Veil.Wire.Address

/-!
# Negotiation with a SOCKS client

A client greets with the methods that it offers and, once one of them is
chosen, sends a request with a destination.  `readConnect` reads both from the
connection, in whatever pieces they arrive.

It accepts the streams that begin with a greeting that offers method 0 and a
CONNECT request for a destination that `DecodeAddress` accepts.  It reads these
bytes and no others, and answers a greeting once.
-/

namespace Veil.Wire.Socks

open Veil.Lib Veil.Mux

inductive Fault where
  | read (error : Err)
  | write
  | protocol
  | method
  | connectOnly
  deriving DecidableEq

/-- What was read and what is left to read. -/
abbrev Result := Except Fault (List Byte × Source Byte)

/-- How the negotiation ended and what was written, one list for each write. -/
structure Outcome where
  result : Result
  sent : List (List Byte)

/-- The bytes that `Reply` writes. -/
def reply (code : Byte) : List Byte :=
  [5, code, 0, 1, 0, 0, 0, 0, 0, 0]

def readFull (s : Source Byte) (n : Nat) : Result :=
  (Go.readFull s n).mapError .read

/-! ## `ReadConnect` -/

/-- The methods of the greeting. -/
def readGreeting (s : Source Byte) : Result := do
  let (h, s) ← readFull s 2
  if h.getD 0 0 ≠ 5 ∨ h.getD 1 0 = 0 then .error .protocol
  else readFull s (h.getD 1 0).toNat

/-- The end of the request: `n` bytes and a port after `b`. -/
def readRest (b : List Byte) (n : Nat) (s : Source Byte) : Result := do
  let (rest, s) ← readFull s (n + 2)
  match Go.decodeAddress (b ++ rest) with
  | none => .error .protocol
  | some address => .ok (address, s)

/-- The length of a host name, and the end of the request. -/
def readName (s : Source Byte) : Result := do
  let (size, s) ← readFull s 1
  if size.getD 0 0 = 0 then .error .protocol
  else readRest [3, size.getD 0 0] (size.getD 0 0).toNat s

/-- The switch on the type of the address. -/
def readAddress (kind : Byte) (s : Source Byte) : Outcome :=
  match kind with
  | 1 => ⟨readRest [1] 4 s, []⟩
  | 4 => ⟨readRest [4] 16 s, []⟩
  | 3 => ⟨readName s, []⟩
  | _ => ⟨.error .protocol, [reply 8]⟩

def readRequest (s : Source Byte) : Outcome :=
  match readFull s 4 with
  | .error fault => ⟨.error fault, []⟩
  | .ok (req, s) =>
      if req.getD 0 0 ≠ 5 ∨ req.getD 2 0 ≠ 0 then ⟨.error .protocol, []⟩
      else if req.getD 1 0 ≠ 1 then ⟨.error .connectOnly, [reply 7]⟩
      else readAddress (req.getD 3 0) s

/-- `ReadConnect`; `open_` says whether the client still takes what is written. -/
def readConnect (open_ : Bool) (s : Source Byte) : Outcome :=
  match readGreeting s with
  | .error fault => ⟨.error fault, []⟩
  | .ok (methods, s) =>
      if 0 ∉ methods then ⟨.error .method, [[5, 255]]⟩
      else if open_ = false then ⟨.error .write, [[5, 0]]⟩
      else ⟨(readRequest s).result, [5, 0] :: (readRequest s).sent⟩

/-! ## What is read -/

theorem readFull_sound {s left : Source Byte} {n : Nat} {got : List Byte}
    (read : readFull s n = .ok (got, left)) :
    got.length = n ∧ s.bytes = got ++ left.bytes := by
  obtain ⟨first, rest⟩ := s.fill_spec n
  unfold readFull Go.readFull readExact at read
  dsimp only at read
  split_ifs at read with whole
  · obtain ⟨rfl, rfl⟩ := Prod.mk.inj (Except.ok.inj read)
    refine ⟨whole, ?_⟩
    rw [first, rest, List.take_append_drop]
  · exact absurd read (by simp [Except.mapError])
  · exact absurd read (by simp [Except.mapError])

theorem readFull_complete {s : Source Byte} {word rest : List Byte}
    (next : s.bytes = word ++ rest) :
    ∃ left, readFull s word.length = .ok (word, left) ∧ left.bytes = rest := by
  obtain ⟨got, left⟩ := Source.fill_word next
  refine ⟨(s.fill word.length).2, ?_, left⟩
  unfold readFull Go.readFull readExact
  dsimp only
  rw [if_pos (by rw [got]), got]
  rfl

theorem bind_ok {first : Result} {next : List Byte × Source Byte → Result}
    {last : List Byte × Source Byte} :
    (first >>= next) = .ok last ↔
      ∃ word left, first = .ok (word, left) ∧ next (word, left) = .ok last := by
  cases first with
  | error fault =>
      constructor
      · intro read
        exact absurd read (by simp [bind, Except.bind])
      · rintro ⟨_, _, read, _⟩
        exact absurd read (by simp)
  | ok pair =>
      constructor
      · exact fun read => ⟨pair.1, pair.2, rfl, read⟩
      · rintro ⟨word, left, read, later⟩
        obtain rfl := Except.ok.inj read
        exact later

/-- The bytes of a greeting. -/
def greeting (methods : List Byte) : List Byte :=
  5 :: UInt8.ofNat methods.length :: methods

/-- A list of methods that a greeting can carry. -/
def Offered (methods : List Byte) : Prop :=
  0 < methods.length ∧ methods.length < 256

theorem readGreeting_sound {s left : Source Byte} {methods : List Byte}
    (read : readGreeting s = .ok (methods, left)) :
    Offered methods ∧ s.bytes = greeting methods ++ left.bytes := by
  obtain ⟨head, middle, first, read⟩ := bind_ok.mp read
  obtain ⟨two, spelled⟩ := readFull_sound first
  obtain ⟨version, count, rfl⟩ := List.length_eq_two.mp two
  have read : (if version ≠ 5 ∨ count = 0 then .error .protocol
      else readFull middle count.toNat) = (.ok (methods, left) : Result) := read
  split_ifs at read with refused
  rw [not_or, not_not] at refused
  obtain ⟨counted, rest⟩ := readFull_sound read
  have positive : count.toNat ≠ 0 := fun zero => refused.2 (UInt8.toNat_inj.mp zero)
  refine ⟨⟨by omega, counted ▸ count.toNat_lt⟩, ?_⟩
  rw [spelled, rest, greeting, counted, UInt8.ofNat_toNat, refused.1]
  rfl

theorem readGreeting_complete {s : Source Byte} {methods rest : List Byte}
    (offered : Offered methods) (next : s.bytes = greeting methods ++ rest) :
    ∃ left, readGreeting s = .ok (methods, left) ∧ left.bytes = rest := by
  have counted : (UInt8.ofNat methods.length).toNat = methods.length :=
    UInt8.toNat_ofNat_of_lt' offered.2
  have some_ : UInt8.ofNat methods.length ≠ 0 := by
    intro zero
    rw [zero] at counted
    exact absurd counted.symm (Nat.ne_of_gt offered.1)
  have next : s.bytes = [5, UInt8.ofNat methods.length] ++ (methods ++ rest) := next
  obtain ⟨middle, first, spelled⟩ := readFull_complete next
  obtain ⟨left, second, ended⟩ := readFull_complete spelled
  refine ⟨left, bind_ok.mpr ⟨_, middle, first, ?_⟩, ended⟩
  show (if (5 : Byte) ≠ 5 ∨ UInt8.ofNat methods.length = 0 then .error .protocol
    else readFull middle (UInt8.ofNat methods.length).toNat) = _
  rw [if_neg (by simp [some_]), counted, second]

theorem readRest_sound {s left : Source Byte} {b a : List Byte} {n : Nat}
    (read : readRest b n s = .ok (a, left)) :
    ∃ rest, s.bytes = rest ++ left.bytes ∧ Go.decodeAddress (b ++ rest) = some a := by
  obtain ⟨rest, middle, first, read⟩ := bind_ok.mp read
  obtain ⟨_, spelled⟩ := readFull_sound first
  dsimp only at read
  split at read
  next => simp at read
  next address decoded =>
    obtain ⟨rfl, rfl⟩ := Prod.mk.inj (Except.ok.inj read)
    exact ⟨rest, spelled, decoded⟩

theorem readRest_complete {s : Source Byte} {b a rest tail : List Byte} {n : Nat}
    (length : rest.length = n + 2) (decoded : Go.decodeAddress (b ++ rest) = some a)
    (next : s.bytes = rest ++ tail) :
    ∃ left, readRest b n s = .ok (a, left) ∧ left.bytes = tail := by
  obtain ⟨left, first, ended⟩ := readFull_complete next
  rw [length] at first
  refine ⟨left, bind_ok.mpr ⟨rest, left, first, ?_⟩, ended⟩
  dsimp only
  rw [decoded]

theorem readName_sound {s left : Source Byte} {a : List Byte}
    (read : readName s = .ok (a, left)) :
    ∃ p, s.bytes = p ++ left.bytes ∧ Go.decodeAddress (3 :: p) = some a := by
  obtain ⟨size, middle, first, read⟩ := bind_ok.mp read
  obtain ⟨one, spelled⟩ := readFull_sound first
  obtain ⟨count, rfl⟩ := List.length_eq_one_iff.mp one
  have read : (if count = 0 then .error .protocol
      else readRest [3, count] count.toNat middle) = (.ok (a, left) : Result) := read
  split_ifs at read
  obtain ⟨rest, ended, decoded⟩ := readRest_sound read
  exact ⟨count :: rest, by rw [spelled, ended]; rfl, decoded⟩

theorem readAddress_sound {kind : Byte} {s left : Source Byte} {a : List Byte}
    (read : (readAddress kind s).result = .ok (a, left)) :
    ∃ p, s.bytes = p ++ left.bytes ∧ Go.decodeAddress (kind :: p) = some a := by
  unfold readAddress at read
  split at read
  next => exact readRest_sound read
  next => exact readRest_sound read
  next => exact readName_sound read
  next => simp at read

/-- A request for a destination is read to its end, and not answered. -/
theorem readAddress_complete {s : Source Byte} {kind : Byte} {p a tail : List Byte}
    (decoded : Go.decodeAddress (kind :: p) = some a) (next : s.bytes = p ++ tail) :
    ∃ left, readAddress kind s = ⟨.ok (a, left), []⟩ ∧ left.bytes = tail := by
  obtain ⟨⟨host, port, valid, ported⟩, wire, _⟩ := Go.decodeAddress_ok.mp decoded
  have wire : kind :: p = host.wire ++ portBytes port := wire
  cases host with
  | v4 octets =>
      obtain ⟨rfl, rest⟩ := List.cons.inj wire
      have length : p.length = 4 + 2 := by
        rw [rest]
        exact (List.length_append ..).trans (congrArg (· + 2) valid)
      obtain ⟨left, read, ended⟩ := readRest_complete (b := [1]) length decoded next
      exact ⟨left, congrArg (Outcome.mk · []) read, ended⟩
  | v6 octets =>
      obtain ⟨rfl, rest⟩ := List.cons.inj wire
      have length : p.length = 16 + 2 := by
        rw [rest]
        exact (List.length_append ..).trans (congrArg (· + 2) valid)
      obtain ⟨left, read, ended⟩ := readRest_complete (b := [4]) length decoded next
      exact ⟨left, congrArg (Outcome.mk · []) read, ended⟩
  | name list =>
      obtain ⟨rfl, rest⟩ := List.cons.inj wire
      obtain ⟨shown, short, _⟩ := valid
      have counted : (UInt8.ofNat list.length).toNat = list.length :=
        UInt8.toNat_ofNat_of_lt' (Nat.lt_succ_of_le short)
      have some_ : UInt8.ofNat list.length ≠ 0 := by
        intro zero
        rw [zero] at counted
        exact absurd counted.symm (Nat.ne_of_gt shown)
      have length : (list ++ portBytes port).length =
          (UInt8.ofNat list.length).toNat + 2 := by
        rw [counted]
        exact List.length_append ..
      have next : s.bytes = [UInt8.ofNat list.length] ++ (list ++ portBytes port ++ tail) := by
        rw [next, rest]
        rfl
      rw [rest] at decoded
      obtain ⟨middle, first, spelled⟩ := readFull_complete next
      obtain ⟨left, read, ended⟩ :=
        readRest_complete (b := [3, UInt8.ofNat list.length]) length decoded spelled
      have named : readName s = .ok (a, left) := by
        refine bind_ok.mpr ⟨_, middle, first, ?_⟩
        show (if UInt8.ofNat list.length = 0 then .error .protocol
          else readRest [3, UInt8.ofNat list.length] (UInt8.ofNat list.length).toNat
            middle) = _
        rw [if_neg some_, read]
      exact ⟨left, congrArg (Outcome.mk · []) named, ended⟩

/-- The bytes of a CONNECT request. -/
def request (p : List Byte) : List Byte :=
  5 :: 1 :: 0 :: p

theorem readRequest_sound {s left : Source Byte} {a : List Byte}
    (read : (readRequest s).result = .ok (a, left)) :
    ∃ p, s.bytes = request p ++ left.bytes ∧ Go.decodeAddress p = some a := by
  unfold readRequest at read
  split at read
  next => simp at read
  next req middle first =>
    obtain ⟨four, spelled⟩ := readFull_sound first
    obtain ⟨version, command, reserved, kind, rfl⟩ :
        ∃ version command reserved kind, req = [version, command, reserved, kind] := by
      match req, four with
      | [version, command, reserved, kind], _ => exact ⟨_, _, _, _, rfl⟩
    have read : (if version ≠ 5 ∨ reserved ≠ 0 then ⟨.error .protocol, []⟩
        else if command ≠ 1 then ⟨.error .connectOnly, [reply 7]⟩
        else readAddress kind middle : Outcome).result = .ok (a, left) := read
    by_cases refused : version ≠ 5 ∨ reserved ≠ 0
    · rw [if_pos refused] at read
      simp at read
    · by_cases other : command ≠ 1
      · rw [if_neg refused, if_pos other] at read
        simp at read
      · rw [if_neg refused, if_neg other] at read
        rw [not_or, not_not, not_not] at refused
        obtain ⟨p, rest, decoded⟩ := readAddress_sound read
        refine ⟨kind :: p, ?_, decoded⟩
        rw [spelled, rest, refused.1, refused.2, not_not.mp other]
        rfl

theorem readRequest_complete {s : Source Byte} {p a tail : List Byte}
    (decoded : Go.decodeAddress p = some a) (next : s.bytes = request p ++ tail) :
    ∃ left, readRequest s = ⟨.ok (a, left), []⟩ ∧ left.bytes = tail := by
  cases p with
  | nil => simp [Go.decodeAddress] at decoded
  | cons kind p =>
      have next : s.bytes = [5, 1, 0, kind] ++ (p ++ tail) := next
      obtain ⟨middle, first, spelled⟩ := readFull_complete next
      obtain ⟨left, read, ended⟩ := readAddress_complete decoded spelled
      refine ⟨left, ?_, ended⟩
      have first : readFull s 4 = .ok ([5, 1, 0, kind], middle) := first
      unfold readRequest
      rw [first]
      exact read

/-- What answers a request that is refused. -/
theorem readRequest_sent (s : Source Byte) :
    ∀ written ∈ (readRequest s).sent, written = reply 7 ∨ written = reply 8 := by
  unfold readRequest
  split
  next => simp
  next req middle first =>
    split_ifs
    · simp
    · simp
    · unfold readAddress
      split <;> simp

/-! ## The negotiation -/

/-- The reply to a greeting. -/
def choice (methods : List Byte) : List Byte :=
  [5, if 0 ∈ methods then 0 else 255]

theorem readConnect_greeted {s : Source Byte} {methods rest : List Byte}
    (offered : Offered methods) (next : s.bytes = greeting methods ++ rest) :
    ∃ left, left.bytes = rest ∧ readConnect true s =
      if 0 ∉ methods then ⟨.error .method, [choice methods]⟩
      else ⟨(readRequest left).result, choice methods :: (readRequest left).sent⟩ := by
  obtain ⟨left, read, ended⟩ := readGreeting_complete offered next
  refine ⟨left, ended, ?_⟩
  unfold readConnect choice
  rw [read]
  dsimp only
  by_cases free : 0 ∈ methods
  · rw [if_neg (not_not.mpr free), if_neg (not_not.mpr free), if_pos free]
    rfl
  · rw [if_pos free, if_pos free, if_neg free]

theorem readConnect_ungreeted {s : Source Byte}
    (none_ : ∀ methods rest, Offered methods → s.bytes ≠ greeting methods ++ rest) :
    ∃ fault, readConnect true s = ⟨.error fault, []⟩ := by
  unfold readConnect
  cases read : readGreeting s with
  | error fault => exact ⟨fault, rfl⟩
  | ok pair =>
      obtain ⟨offered, spelled⟩ := readGreeting_sound read
      exact absurd spelled (none_ _ _ offered)

theorem readConnect_ok {s : Source Byte} {a rest : List Byte} :
    (∃ left, (readConnect true s).result = .ok (a, left) ∧ left.bytes = rest) ↔
      ∃ methods p, Offered methods ∧ 0 ∈ methods ∧ Go.decodeAddress p = some a ∧
        s.bytes = greeting methods ++ request p ++ rest := by
  constructor
  · rintro ⟨left, read, rfl⟩
    by_cases greeted : ∃ methods rest, Offered methods ∧ s.bytes = greeting methods ++ rest
    · obtain ⟨methods, _, offered, next⟩ := greeted
      obtain ⟨middle, rfl, run⟩ := readConnect_greeted offered next
      rw [run] at read
      split_ifs at read with free
      · obtain ⟨p, ended, decoded⟩ := readRequest_sound read
        exact ⟨methods, p, offered, free, decoded,
          by rw [next, ended, List.append_assoc]⟩
    · obtain ⟨fault, run⟩ := readConnect_ungreeted
        (fun methods rest offered next => greeted ⟨methods, rest, offered, next⟩)
      rw [run] at read
      simp at read
  · rintro ⟨methods, p, offered, free, decoded, next⟩
    rw [List.append_assoc] at next
    obtain ⟨middle, spelled, run⟩ := readConnect_greeted offered next
    obtain ⟨left, read, ended⟩ := readRequest_complete decoded spelled
    refine ⟨left, ?_, ended⟩
    rw [run, if_neg (not_not.mpr free), read]

/-- A request that is granted is not answered here. -/
theorem readRequest_granted {s left : Source Byte} {a : List Byte}
    (read : (readRequest s).result = .ok (a, left)) : (readRequest s).sent = [] := by
  obtain ⟨p, spelled, decoded⟩ := readRequest_sound read
  obtain ⟨_, again, _⟩ := readRequest_complete decoded spelled
  rw [again]

/-- A stream is negotiated when it begins with a greeting that offers method 0
and a request for a destination.  These bytes are read and no others, and the
greeting is answered once; no request that is granted is answered here. -/
theorem readConnect_exact (s : Source Byte) :
    (∀ a rest,
      (∃ left, (readConnect true s).result = .ok (a, left) ∧ left.bytes = rest) ↔
        ∃ methods p, Offered methods ∧ 0 ∈ methods ∧ Go.decodeAddress p = some a ∧
          s.bytes = greeting methods ++ request p ++ rest) ∧
    (∀ methods rest, Offered methods → s.bytes = greeting methods ++ rest →
      ∃ replies, (readConnect true s).sent = choice methods :: replies ∧
        (∀ written ∈ replies, written = reply 7 ∨ written = reply 8) ∧
        ((0 ∉ methods ∨ (readConnect true s).result.isOk) → replies = [])) ∧
    ((∀ methods rest, Offered methods → s.bytes ≠ greeting methods ++ rest) →
      (readConnect true s).sent = []) := by
  refine ⟨fun _ _ => readConnect_ok, ?_, ?_⟩
  · intro methods rest offered next
    obtain ⟨left, _, run⟩ := readConnect_greeted offered next
    rw [run]
    by_cases free : 0 ∈ methods
    · rw [if_neg (not_not.mpr free)]
      refine ⟨(readRequest left).sent, rfl, readRequest_sent left, ?_⟩
      rintro (other | granted)
      · exact absurd free other
      · cases read : (readRequest left).result with
        | ok pair => exact readRequest_granted read
        | error fault =>
            rw [read] at granted
            exact Bool.noConfusion granted
    · rw [if_pos free]
      exact ⟨[], rfl, by simp, fun _ => rfl⟩
  · intro none_
    obtain ⟨fault, run⟩ := readConnect_ungreeted none_
    exact congrArg Outcome.sent run

/-- A client that sends its request and its first byte at once. -/
theorem readConnect_exact_early :
    ∃ left, (readConnect true
        ⟨[5, 1, 0, 5, 1, 0, 1, 127, 0, 0, 1, 0, 80, 72], [0, 3]⟩).result =
      .ok (bytes "127.0.0.1:80".toList, left) ∧ left.bytes = [72] :=
  ((readConnect_exact _).1 _ _).mpr
    ⟨[0], [1, 127, 0, 0, 1, 0, 80], by unfold Offered; decide, by decide,
      by decide +kernel, rfl⟩

end Veil.Wire.Socks

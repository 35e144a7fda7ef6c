import Mathlib.Data.List.Flatten
import Veil.Tls.Padding

/-!
# Writing application data in batches of records

`patches/batch.go.in`.  The records of one write are encrypted into a buffer,
one behind the other, and the buffer is handed to the connection when the next
record might not fit.  The test counts the plaintext and a fixed reserve; a
record with padding may be larger, and the buffer has twice the size that the
test allows.  Encryption and the connection are parameters: encryption may fail,
and the connection may fail or take too few bytes at any call.
-/

namespace Veil.Tls

def recordHeaderLen : Nat := 5

/-- The length a batch is kept within, with the overhead of its records. -/
def veilBatchBytes : Nat := 8 * (maxPlaintext + recordHeaderLen + 256)

/-- The capacity of a batch buffer. -/
def veilBufferBytes : Nat := 2 * veilBatchBytes

/-- `veilBatchPool`: the capacities of the buffers it caches, all cut to length zero. -/
structure BatchPool where
  caps : List Nat
  reserve : ∀ cap ∈ caps, cap = veilBufferBytes
  bound : caps.length ≤ 8

namespace BatchPool

/-- `veilTakeBuffer`: the capacity of the buffer, and the buffers left. -/
def take (pool : BatchPool) : Nat × BatchPool :=
  match pool with
  | ⟨[], reserve, bound⟩ => (veilBufferBytes, ⟨[], reserve, bound⟩)
  | ⟨cap :: caps, reserve, bound⟩ =>
      (cap, ⟨caps, fun other member => reserve other (List.mem_cons_of_mem cap member),
        Nat.le_of_succ_le bound⟩)

/-- `veilPutBuffer`. -/
def put (pool : BatchPool) (cap : Nat) : BatchPool :=
  if right : cap ≠ veilBufferBytes then pool
  else if space : pool.caps.length < 8 then
    { caps := pool.caps ++ [cap]
      reserve := by
        intro other member
        rcases List.mem_append.mp member with old | new
        · exact pool.reserve other old
        · rw [List.mem_singleton.mp new]
          exact not_not.mp right
      bound := by
        rw [List.length_append]
        exact space }
  else pool

@[simp]
theorem take_cap (pool : BatchPool) : pool.take.1 = veilBufferBytes := by
  obtain ⟨caps, reserve, bound⟩ := pool
  cases caps with
  | nil => rfl
  | cons cap caps => exact reserve cap List.mem_cons_self

end BatchPool

/-- What encryption returns: a slice, and whether it begins where its argument did. -/
structure Sealed where
  bytes : List UInt8
  inPlace : Bool
  deriving DecidableEq, Repr

/-- `halfConn.encrypt`, by the record, the spare capacity behind it and the payload. -/
abbrev Encrypt (η ε : Type) :=
  η → List UInt8 → Nat → List UInt8 → Except ε Sealed × η

/-- `Conn.write`, by the bytes of the earlier calls: the count and the error it returns. -/
abbrev Write (ε : Type) :=
  List (List UInt8) → List UInt8 → Nat × Option ε

/-- The ways a batch write can end early. -/
inductive Failure (ε : Type) where
  | write (e : ε)
  | shortWrite
  | encrypt (e : ε)
  | reserveExhausted
  /-- A slice or an index past the capacity or the length, a panic in Go. -/
  | outOfRange
  deriving DecidableEq, Repr

/-- The local variables of a batch write, with the bytes of its write calls. -/
structure Batch (η : Type) where
  b : List UInt8
  n : Nat
  pending : Nat
  out : η
  calls : List (List UInt8)

/-- The five header bytes of a record with `m` bytes of plaintext. -/
def recordHeader (m : Nat) : List UInt8 :=
  [23, 3, 3, UInt8.ofNat (m >>> 8), UInt8.ofNat m]

@[simp]
theorem recordHeader_length (m : Nat) : (recordHeader m).length = recordHeaderLen := rfl

namespace Batch

variable {η ε : Type}

/-- The closure `flush`. -/
def flush (write : Write ε) (s : Batch η) : Batch η × Option (Failure ε) :=
  if s.b.length = 0 then (s, none)
  else
    let called := { s with calls := s.calls ++ [s.b] }
    match write s.calls s.b with
    | (_, some e) => (called, some (.write e))
    | (written, none) =>
        if written ≠ s.b.length then (called, some .shortWrite)
        else ({ called with n := s.n + s.pending, pending := 0, b := [] }, none)

/-- One record behind the others in a buffer of capacity `cap`. -/
def encryptRecord (encrypt : Encrypt η ε) (cap : Nat) (s : Batch η) (plain : List UInt8) :
    Batch η × Option (Failure ε) :=
  let start := s.b.length
  if cap < start + recordHeaderLen then (s, some .outOfRange)
  else
    let spare := cap - (start + recordHeaderLen)
    match encrypt s.out (recordHeader plain.length) spare plain with
    | (.error e, out) => ({ s with out := out }, some (.encrypt e))
    | (.ok record, out) =>
        if record.bytes = [] then ({ s with out := out }, some .outOfRange)
        else if record.inPlace = false then ({ s with out := out }, some .reserveExhausted)
        else if cap < start + record.bytes.length then
          ({ s with out := out }, some .outOfRange)
        else
          ({ s with
              b := s.b ++ record.bytes
              pending := s.pending + plain.length
              out := out }, none)

/-- The loop over the data; every turn takes at least one byte of it. -/
def loop (encrypt : Encrypt η ε) (write : Write ε) (cap : Nat) :
    Nat → Batch η → List UInt8 → Batch η × Option (Failure ε)
  | 0, s, _ => s.flush write
  | fuel + 1, s, data =>
      if data = [] then s.flush write
      else
        let m := min data.length maxPlaintext
        let (s, failed) :=
          if s.b.length + m + recordHeaderLen + 256 > veilBatchBytes then s.flush write
          else (s, none)
        match failed with
        | some e => (s, some e)
        | none =>
            match s.encryptRecord encrypt cap (data.take m) with
            | (s, some e) => (s, some e)
            | (s, none) => loop encrypt write cap fuel s (data.drop m)

end Batch

/-- The result of a batch write, with the bytes of its write calls. -/
structure Wrote (ε : Type) where
  n : Nat
  err : Option (Failure ε)
  calls : List (List UInt8)
  pool : BatchPool

/-- The whole batch write. -/
def veilWriteApplicationBatchLocked {η ε : Type} (encrypt : Encrypt η ε) (write : Write ε)
    (pool : BatchPool) (out : η) (data : List UInt8) : Wrote ε :=
  let (cap, pool) := pool.take
  let (s, err) := Batch.loop encrypt write cap data.length ⟨[], 0, 0, out, []⟩ data
  ⟨s.n, err, s.calls, pool.put cap⟩

/-! ## What the batch write is for -/

section Meaning

variable {η ε : Type} (encrypt : Encrypt η ε) (write : Write ε)

/--
Encryption appends at most the payload, the padding and 256 bytes, and stays in
place when the slice has that much spare capacity.
-/
structure Appends : Prop where
  grows : ∀ hc record spare payload made hc', record.length = recordHeaderLen →
    payload.length ≤ maxPlaintext →
    encrypt hc record spare payload = (.ok made, hc') →
    record.length ≤ made.bytes.length ∧ ∃ padding ≤ 512,
      made.bytes.length ≤ record.length + (payload.length + padding + 256) ∧
      (payload.length + padding + 256 ≤ spare → made.inPlace = true)

/-- A plaintext and the record that encryption made of it. -/
structure Record where
  plain : List UInt8
  bytes : List UInt8

/-- The plaintext of records, one after another. -/
def plaintext (records : List Record) : List UInt8 := records.flatMap Record.plain

/-- The bytes of records, one after another. -/
def wire (records : List Record) : List UInt8 := records.flatMap Record.bytes

/-- Encryption, beginning in one state and ending in another, made these records. -/
inductive Encrypts : η → List Record → η → Prop where
  | nil (out : η) : Encrypts out [] out
  | snoc {out mid out' : η} {records : List Record} {r : Record} {spare : Nat}
      (before : Encrypts out records mid)
      (made : encrypt mid (recordHeader r.plain.length) spare r.plain =
        (.ok ⟨r.bytes, true⟩, out')) :
      Encrypts out (records ++ [r]) out'

/-- The write calls of these batches of records took all of their bytes. -/
def Complete (flushes : List (List Record)) : Prop :=
  ∀ earlier records later, flushes = earlier ++ records :: later →
    write (earlier.map wire) (wire records) = ((wire records).length, none)

/-- How the result of a batch write relates to the calls that were made. -/
def Outcome (data : List UInt8) (w : Wrote ε) (flushes : List (List Record))
    (unsent : List Record) : Prop :=
  match w.err with
  | none =>
      w.calls = flushes.map wire ∧ unsent = [] ∧ plaintext flushes.flatten = data
  | some (.write e) =>
      w.calls = flushes.map wire ++ [wire unsent] ∧
        (write (flushes.map wire) (wire unsent)).2 = some e
  | some .shortWrite =>
      w.calls = flushes.map wire ++ [wire unsent] ∧
        ∃ k ≠ (wire unsent).length, write (flushes.map wire) (wire unsent) = (k, none)
  | some (.encrypt e) =>
      w.calls = flushes.map wire ∧
        ∃ mid header spare payload out', encrypt mid header spare payload = (.error e, out')
  | some .reserveExhausted => False
  | some .outOfRange => False

/--
The records of a batch write: those of the write calls that took all their
bytes, and those that were encrypted and not completely written.
-/
structure Delivers (out : η) (data : List UInt8) (w : Wrote ε)
    (flushes : List (List Record)) (unsent : List Record) : Prop where
  encrypted : ∃ out', Encrypts encrypt out (flushes.flatten ++ unsent) out'
  sizes : ∀ r ∈ flushes.flatten ++ unsent,
    1 ≤ r.plain.length ∧ r.plain.length ≤ maxPlaintext
  front : plaintext (flushes.flatten ++ unsent) <+: data
  complete : Complete write flushes
  count : w.n = (plaintext flushes.flatten).length
  whole : w.n = data.length ↔ w.err = none
  outcome : Outcome encrypt write data w flushes unsent

end Meaning

/-! ## The records in the buffer -/

section Records

variable {η ε : Type} {encrypt : Encrypt η ε} {write : Write ε}

theorem plaintext_append (first second : List Record) :
    plaintext (first ++ second) = plaintext first ++ plaintext second :=
  List.flatMap_append

theorem wire_append (first second : List Record) :
    wire (first ++ second) = wire first ++ wire second :=
  List.flatMap_append

theorem plaintext_singleton (r : Record) : plaintext [r] = r.plain :=
  List.flatMap_singleton ..

theorem wire_singleton (r : Record) : wire [r] = r.bytes :=
  List.flatMap_singleton ..

/-- A batch that took all its bytes, behind others that did. -/
theorem Complete.snoc {flushes : List (List Record)} {records : List Record}
    (before : Complete write flushes)
    (taken : write (flushes.map wire) (wire records) = ((wire records).length, none)) :
    Complete write (flushes ++ [records]) := by
  intro earlier middle later split_
  rcases List.eq_nil_or_concat later with rfl | ⟨later', last, rfl⟩
  · obtain ⟨rfl, same⟩ := List.append_inj' split_ rfl
    obtain rfl : records = middle := by simpa using same
    exact taken
  · have inner : flushes ++ [records] = (earlier ++ middle :: later') ++ [last] := by
      simpa using split_
    obtain ⟨rfl, -⟩ := List.append_inj' inner rfl
    exact before earlier middle later' rfl

/--
Where a batch write stands, with `rest` of the data to come: the records of the
write calls, and those in the buffer.
-/
structure Held (encrypt : Encrypt η ε) (write : Write ε) (out : η) (data rest : List UInt8)
    (s : Batch η) (flushes : List (List Record)) (unsent : List Record) : Prop where
  encrypted : Encrypts encrypt out (flushes.flatten ++ unsent) s.out
  sizes : ∀ r ∈ flushes.flatten ++ unsent,
    1 ≤ r.plain.length ∧ r.plain.length ≤ maxPlaintext
  split : plaintext (flushes.flatten ++ unsent) ++ rest = data
  complete : Complete write flushes
  calls : s.calls = flushes.map wire
  buffer : s.b = wire unsent
  empty : s.b = [] → unsent = []
  count : s.n = (plaintext flushes.flatten).length
  pending : s.pending = (plaintext unsent).length
  -- the test of the loop leaves out the padding of the last record
  filled : s.b.length ≤ veilBatchBytes + 512

variable {out : η} {data rest : List UInt8} {s s' : Batch η}
  {flushes : List (List Record)} {unsent : List Record}

/-- Records in the buffer, or data to come, are missing from the count. -/
theorem Held.missing (held : Held encrypt write out data rest s flushes unsent) :
    s.n + (plaintext unsent).length + rest.length = data.length := by
  have lengths := congrArg List.length held.split
  rw [plaintext_append] at lengths
  simp only [List.length_append] at lengths
  have count := held.count
  omega

/-- Records have plaintext. -/
theorem Held.unsent_pos (held : Held encrypt write out data rest s flushes unsent)
    (some_ : unsent ≠ []) : 0 < (plaintext unsent).length := by
  obtain ⟨r, others, rfl⟩ := List.exists_cons_of_ne_nil some_
  have size := (held.sizes r (by simp)).1
  show 0 < (r.plain ++ plaintext others).length
  rw [List.length_append]
  omega

/-- A batch write that stops short delivers what it has sent. -/
theorem Held.stopped (held : Held encrypt write out data rest s flushes unsent)
    (short : unsent ≠ [] ∨ rest ≠ []) {w : Wrote ε} {e : Failure ε} (n : w.n = s.n)
    (err : w.err = some e) (outcome : Outcome encrypt write data w flushes unsent) :
    Delivers encrypt write out data w flushes unsent where
  encrypted := ⟨_, held.encrypted⟩
  sizes := held.sizes
  front := ⟨rest, held.split⟩
  complete := held.complete
  count := n.trans held.count
  whole := by
    have missing := held.missing
    have less : w.n < data.length := by
      rcases short with some_ | some_
      · have positive := held.unsent_pos some_
        omega
      · have positive := List.length_pos_of_ne_nil some_
        omega
    constructor
    · intro all
      omega
    · intro none_
      rw [err] at none_
      cases none_
  outcome := outcome

/-- A flush empties the buffer, or ends the batch write. -/
theorem flush_held (held : Held encrypt write out data rest s flushes unsent)
    {failed : Option (Failure ε)} (flushed : s.flush write = (s', failed)) :
    match failed with
    | none => ∃ flushes', Held encrypt write out data rest s' flushes' [] ∧ s'.b = []
    | some e => ∀ pool, Delivers encrypt write out data ⟨s'.n, some e, s'.calls, pool⟩
        flushes unsent := by
  unfold Batch.flush at flushed
  split at flushed
  · next nothing =>
      cases flushed
      have nil := List.eq_nil_of_length_eq_zero nothing
      obtain rfl := held.empty nil
      exact ⟨flushes, held, nil⟩
  next something =>
  have some_ : unsent ≠ [] := by
    rintro rfl
    rw [held.buffer] at something
    exact something rfl
  simp only [held.calls, held.buffer] at flushed
  split at flushed
  · next written e called =>
      cases flushed
      intro pool
      exact held.stopped (.inl some_) rfl rfl ⟨rfl, by rw [called]⟩
  · next written called =>
      split at flushed
      · next short =>
          cases flushed
          intro pool
          exact held.stopped (.inl some_) rfl rfl ⟨rfl, written, short, called⟩
      · next all =>
          cases flushed
          have same : written = (wire unsent).length := not_not.mp all
          rw [same] at called
          have flat : (flushes ++ [unsent]).flatten ++ [] = flushes.flatten ++ unsent := by
            simp
          refine ⟨flushes ++ [unsent], ?_, rfl⟩
          exact {
            encrypted := flat ▸ held.encrypted
            sizes := flat ▸ held.sizes
            split := flat ▸ held.split
            complete := held.complete.snoc called
            calls := by simp
            buffer := rfl
            empty := fun _ => rfl
            count := by
              have count := held.count
              have pending := held.pending
              rw [List.append_nil] at flat
              rw [flat, plaintext_append, List.length_append]
              show s.n + s.pending = _
              omega
            pending := rfl
            filled := Nat.zero_le _ }

/-- A record fits behind the others, whatever its padding, or encryption fails. -/
theorem encryptRecord_held (appends : Appends encrypt)
    {plain rest' : List UInt8} (front : rest = plain ++ rest')
    (held : Held encrypt write out data rest s flushes unsent)
    (size : 1 ≤ plain.length ∧ plain.length ≤ maxPlaintext)
    (space : s.b.length + plain.length + recordHeaderLen + 256 ≤ veilBatchBytes)
    {failed : Option (Failure ε)}
    (made : s.encryptRecord encrypt veilBufferBytes plain = (s', failed)) :
    match failed with
    | none => ∃ r, Held encrypt write out data rest' s' flushes (unsent ++ [r])
    | some e => ∀ pool, Delivers encrypt write out data ⟨s'.n, some e, s'.calls, pool⟩
        flushes unsent := by
  have double : veilBufferBytes = 2 * veilBatchBytes := rfl
  have large : 512 ≤ veilBatchBytes := by decide
  unfold Batch.encryptRecord at made
  simp only at made
  rw [if_neg (by omega)] at made
  split at made
  · next e out' refused =>
      cases made
      intro pool
      refine held.stopped (.inr ?_) rfl rfl ⟨held.calls, _, _, _, _, _, refused⟩
      rw [front]
      intro nil
      rw [List.append_eq_nil_iff] at nil
      rw [nil.1] at size
      exact absurd size.1 (by decide)
  · next record out' grown =>
      obtain ⟨longer, padding, small, bound, stays⟩ :=
        appends.grows _ _ _ _ _ _ (recordHeader_length _) size.2 grown
      rw [recordHeader_length] at longer bound
      have inPlace : record.inPlace = true := stays (by omega)
      have header : recordHeaderLen = 5 := rfl
      have some_ : record.bytes ≠ [] := by
        intro nil
        rw [nil] at longer
        exact absurd longer (by decide)
      rw [if_neg some_, if_neg (by simp [inPlace]), if_neg (by omega)] at made
      cases made
      obtain ⟨bytes, here⟩ := record
      obtain rfl : here = true := inPlace
      have added : flushes.flatten ++ (unsent ++ [⟨plain, bytes⟩]) =
          (flushes.flatten ++ unsent) ++ [⟨plain, bytes⟩] := by
        rw [List.append_assoc]
      refine ⟨⟨plain, bytes⟩, ?_⟩
      exact {
        encrypted := by
          rw [added]
          exact .snoc held.encrypted grown
        sizes := by
          intro r member
          rw [added] at member
          rcases List.mem_append.mp member with old | new
          · exact held.sizes r old
          · rw [List.mem_singleton.mp new]
            exact size
        split := by
          rw [added, plaintext_append, plaintext_singleton, List.append_assoc, ← front]
          exact held.split
        complete := held.complete
        calls := held.calls
        buffer := by
          rw [wire_append, wire_singleton, ← held.buffer]
        empty := by
          intro nil
          exact absurd (List.append_eq_nil_iff.mp nil).2 some_
        count := held.count
        pending := by
          rw [plaintext_append, plaintext_singleton, List.length_append, ← held.pending]
        filled := by
          show (s.b ++ bytes).length ≤ _
          rw [List.length_append]
          simp only at bound
          omega }

/-- The last flush ends the batch write, with or without an error. -/
theorem flush_last (held : Held encrypt write out data [] s flushes unsent)
    (pool : BatchPool) :
    ∃ flushes' unsent', Delivers encrypt write out data
      ⟨(s.flush write).1.n, (s.flush write).2, (s.flush write).1.calls, pool⟩
      flushes' unsent' := by
  rcases flushed : s.flush write with ⟨s', failed⟩
  cases failed with
  | some e => exact ⟨flushes, unsent, flush_held held flushed pool⟩
  | none =>
      obtain ⟨flushes', after, -⟩ := flush_held held flushed
      have all : plaintext flushes'.flatten = data := by
        have split_ := after.split
        rwa [List.append_nil, List.append_nil] at split_
      refine ⟨flushes', [], ?_⟩
      exact {
        encrypted := ⟨_, after.encrypted⟩
        sizes := after.sizes
        front := ⟨[], after.split⟩
        complete := after.complete
        count := after.count
        whole := by
          have count := after.count
          rw [all] at count
          exact ⟨fun _ => rfl, fun _ => count⟩
        outcome := ⟨after.calls, rfl, all⟩ }

/-- A batch that is full goes out before the next record, which then has space. -/
theorem space_held (held : Held encrypt write out data rest s flushes unsent) {m : Nat}
    (size : m ≤ maxPlaintext) {failed : Option (Failure ε)}
    (turned : (if s.b.length + m + recordHeaderLen + 256 > veilBatchBytes then
      s.flush write else (s, none)) = (s', failed)) :
    match failed with
    | none => ∃ flushes' unsent', Held encrypt write out data rest s' flushes' unsent' ∧
        s'.b.length + m + recordHeaderLen + 256 ≤ veilBatchBytes
    | some e => ∀ pool, Delivers encrypt write out data ⟨s'.n, some e, s'.calls, pool⟩
        flushes unsent := by
  split at turned
  · cases failed with
    | some e => exact flush_held held turned
    | none =>
        obtain ⟨flushes', after, nil⟩ := flush_held held turned
        refine ⟨flushes', [], after, ?_⟩
        have room : maxPlaintext + recordHeaderLen + 256 ≤ veilBatchBytes := by decide
        rw [nil, List.length_nil]
        omega
  · next space =>
      cases turned
      exact ⟨flushes, unsent, held, Nat.le_of_not_lt space⟩

/-- The loop delivers what is left of the data, wherever it stands. -/
theorem loop_delivers (appends : Appends encrypt) (pool : BatchPool) (fuel : Nat)
    {rest : List UInt8} (enough : rest.length ≤ fuel) {s : Batch η}
    {flushes : List (List Record)} {unsent : List Record}
    (held : Held encrypt write out data rest s flushes unsent) :
    ∃ flushes' unsent', Delivers encrypt write out data
      ⟨(Batch.loop encrypt write veilBufferBytes fuel s rest).1.n,
        (Batch.loop encrypt write veilBufferBytes fuel s rest).2,
        (Batch.loop encrypt write veilBufferBytes fuel s rest).1.calls, pool⟩
      flushes' unsent' := by
  induction fuel generalizing rest s flushes unsent with
  | zero =>
      obtain rfl := List.eq_nil_of_length_eq_zero (Nat.le_zero.mp enough)
      exact flush_last held pool
  | succ fuel induction =>
      unfold Batch.loop
      split
      · next nothing =>
          subst nothing
          exact flush_last held pool
      next something =>
      have positive := List.length_pos_of_ne_nil something
      have plain : (rest.take (min rest.length maxPlaintext)).length =
          min rest.length maxPlaintext := by
        rw [List.length_take]
        omega
      have large : 1 ≤ maxPlaintext := by decide
      have size : 1 ≤ (rest.take (min rest.length maxPlaintext)).length ∧
          (rest.take (min rest.length maxPlaintext)).length ≤ maxPlaintext := by
        omega
      have front := (List.take_append_drop (min rest.length maxPlaintext) rest).symm
      have fewer : (rest.drop (min rest.length maxPlaintext)).length ≤ fuel := by
        rw [List.length_drop]
        omega
      rcases turned : (if s.b.length + min rest.length maxPlaintext + recordHeaderLen + 256 >
          veilBatchBytes then s.flush write else (s, none)) with ⟨s', failed⟩
      have spaced := space_held held (min_le_right _ _) turned
      simp only [turned]
      cases failed with
      | some e => exact ⟨flushes, unsent, spaced pool⟩
      | none =>
          obtain ⟨flushes', unsent', after, space⟩ := spaced
          rw [← plain] at space
          rcases made : s'.encryptRecord encrypt veilBufferBytes
            (rest.take (min rest.length maxPlaintext)) with ⟨s'', failed⟩
          have sealed := encryptRecord_held appends front after size space made
          simp only
          cases failed with
          | some e => exact ⟨flushes', unsent', sealed pool⟩
          | none =>
              obtain ⟨r, next⟩ := sealed
              exact induction fewer next

end Records

/--
A batch write delivers its data in records of a permitted size: all of it when
it returns no error, and a part of it when a write call or encryption fails.  It
counts the plaintext of the write calls that took all their bytes, and neither
exhausts its reserve nor leaves its buffer.
-/
theorem batch_delivers {η ε : Type} {encrypt : Encrypt η ε} (appends : Appends encrypt)
    (write : Write ε) (pool : BatchPool) (out : η) (data : List UInt8) :
    ∃ flushes unsent, Delivers encrypt write out data
      (veilWriteApplicationBatchLocked encrypt write pool out data) flushes unsent := by
  have initial : Held encrypt write out data data ⟨[], 0, 0, out, []⟩ [] [] := {
    encrypted := .nil out
    sizes := by simp
    split := rfl
    complete := by
      intro earlier records later split_
      exact absurd split_.symm (by simp)
    calls := rfl
    buffer := rfl
    empty := fun _ => rfl
    count := rfl
    pending := rfl
    filled := Nat.zero_le _ }
  have cap := pool.take_cap
  unfold veilWriteApplicationBatchLocked
  simp only [cap]
  exact loop_delivers appends _ data.length le_rfl initial

/-! ## Encryption with padding -/

/-- The padding counters under a limit that `VeilSetPaddingBudget` accepts. -/
abbrev Padder := { hc : HalfConn // hc.veilPadLimit.toNat ≤ 512 }

/--
TLS 1.3 encryption of application data, with padding, and with a cipher that
leaves its input as it is and appends a tag of sixteen zeros.
-/
def nullEncrypt (hc : Padder) (record : List UInt8) (spare : Nat) (payload : List UInt8) :
    Except Unit Sealed × Padder :=
  if fits : payload.length ≤ maxPlaintext then
    let padded := hc.1.veilRecordPadding payload.length 7
    let inner := payload ++ [23] ++ List.replicate padded.1 0
    let n := inner.length + 16
    (.ok {
        bytes := record.take 3 ++ [UInt8.ofNat (n >>> 8), UInt8.ofNat n] ++ inner ++
          List.replicate 16 0
        inPlace := n ≤ spare },
      ⟨padded.2, by
        rw [(HalfConn.veilRecordPadding_takes fits).limit]
        exact hc.2⟩)
  else (.error (), hc)

/-- Padding by the counters is padding by at most their limit. -/
theorem nullEncrypt_appends : Appends nullEncrypt := by
  constructor
  intro hc record spare payload made hc' header fits encrypted
  have takes := @HalfConn.veilRecordPadding_takes hc.1 payload.length 7 fits
  have size := takes.size
  have limit := hc.2
  unfold nullEncrypt at encrypted
  rw [dif_pos fits] at encrypted
  cases encrypted
  have five : recordHeaderLen = 5 := rfl
  simp only [List.length_append, List.length_take, List.length_replicate,
    List.length_cons, List.length_nil, decide_eq_true_eq]
  refine ⟨by omega, (hc.1.veilRecordPadding payload.length 7).1, by omega, by omega, ?_⟩
  intro space
  omega

/-- Two bytes go out in one padded record, through a buffer from the pool. -/
theorem batch_delivers_padded :
    (veilWriteApplicationBatchLocked nullEncrypt (fun _ b => (b.length, none))
        ⟨[veilBufferBytes], by decide, by decide⟩ ⟨⟨1, 9, 4⟩, by decide⟩ [104, 105]).n = 2 ∧
      ∃ flushes unsent, Delivers nullEncrypt (fun _ b => (b.length, none))
        ⟨⟨1, 9, 4⟩, by decide⟩ [104, 105]
        (veilWriteApplicationBatchLocked nullEncrypt (fun _ b => (b.length, none))
          ⟨[veilBufferBytes], by decide, by decide⟩ ⟨⟨1, 9, 4⟩, by decide⟩ [104, 105])
        flushes unsent :=
  ⟨by decide, batch_delivers nullEncrypt_appends _ _ _ _⟩

end Veil.Tls

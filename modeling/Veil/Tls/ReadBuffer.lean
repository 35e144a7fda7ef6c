import Mathlib.Data.List.Flatten
import Veil.Lib.Buffer
import Veil.Lib.Machine
import Veil.Tls.Batch

/-!
# Buffering the raw input of a connection

`patches/reader.go.in`.  The ciphertext that has been read and not yet decrypted
waits in `rawInput`, which moves from a small buffer to one from a cache when a
record needs it, and is otherwise used again with the unread part moved to its
front.  The slices involved may share their arrays.  The reader below is a
parameter: every call returns any number of bytes that fit, with or without an
error, and may use the rest of its argument as scratch space.
-/

namespace Veil.Tls

open Veil.Lib

/-- The longest ciphertext of a record, without its header. -/
def maxCiphertext : Nat := 16384 + 2048

/-- The capacity of a cached read buffer. -/
def veilReadBufferBytes : Nat := 64 * 1024

/-- The capacity of the buffer a connection begins with. -/
def veilSmallReadBytes : Nat := 4096

/-- `veilReadPool`: the buffers it caches. -/
structure ReadPool where
  buffers : List Slice
  reserve : ∀ b ∈ buffers, b.cap = veilReadBufferBytes
  bound : buffers.length ≤ 8

namespace ReadPool

/-- `veilPutReadBuffer`. -/
def put (pool : ReadPool) (b : Slice) : ReadPool :=
  if right : b.cap ≠ veilReadBufferBytes then pool
  else if space : pool.buffers.length < 8 then
    { buffers := pool.buffers ++ [b.take 0 (Nat.zero_le _)]
      reserve := by
        intro other member
        rcases List.mem_append.mp member with old | new
        · exact pool.reserve other old
        · rw [List.mem_singleton.mp new]
          exact not_not.mp right
      bound := by
        rw [List.length_append]
        exact space }
  else pool

/-- A buffer that is cached afterwards was there before, or has the array of the one put. -/
theorem mem_put {pool : ReadPool} {b other : Slice} (member : other ∈ (pool.put b).buffers) :
    other ∈ pool.buffers ∨ other.array = b.array := by
  unfold put at member
  split at member
  · exact .inl member
  · split at member
    · rcases List.mem_append.mp member with old | new
      · exact .inl old
      · rw [List.mem_singleton.mp new]
        exact .inr rfl
    · exact .inl member

end ReadPool

/--
What `veilReadFromUntil` uses of a connection, with the arrays behind it.  Every
slice is of an array that has been made; nothing keeps two slices from sharing one.
-/
structure Input where
  mem : Memory UInt8
  rawInput : Buffer
  pool : ReadPool
  made : rawInput.buf.array < mem.next
  cached : ∀ b ∈ pool.buffers, b.array < mem.next

namespace Input

/-- The unread bytes of `rawInput`. -/
def unread (c : Input) : List UInt8 := c.mem.read c.rawInput.bytes

/-- The number of bytes that `rawInput` can take without growing. -/
def free (c : Input) : Nat := c.rawInput.buf.cap - c.rawInput.buf.len

/-- `c.rawInput.Write(p)`. -/
def write (c : Input) (p : Slice) : Input :=
  { c with
    mem := (c.rawInput.write 0 c.mem p).1
    rawInput := (c.rawInput.write 0 c.mem p).2
    made := Buffer.write_made 0 c.mem c.rawInput p c.made
    cached := fun b member =>
      Nat.lt_of_lt_of_le (c.cached b member) (Buffer.write_next 0 c.mem c.rawInput p) }

/-- `rawInput` becomes a new small buffer. -/
def small (c : Input) : Input :=
  { c with
    mem := (c.mem.make 0 veilSmallReadBytes).1
    rawInput := .new (c.mem.make 0 veilSmallReadBytes).2
    made := Nat.lt_succ_self _
    cached := fun b member => Nat.lt_succ_of_lt (c.cached b member) }

/-- `rawInput` becomes what `veilTakeReadBuffer` returns. -/
def pooled (c : Input) : Input :=
  match c with
  | ⟨mem, _, ⟨b :: buffers, reserve, bound⟩, _, cached⟩ =>
      { mem := mem
        rawInput := .new (b.take 0 (Nat.zero_le _))
        pool := ⟨buffers, fun other member => reserve other (List.mem_cons_of_mem b member),
          Nat.le_of_succ_le bound⟩
        made := cached b List.mem_cons_self
        cached := fun other member => cached other (List.mem_cons_of_mem b member) }
  | ⟨mem, _, ⟨[], reserve, bound⟩, _, _⟩ =>
      { mem := (mem.make 0 veilReadBufferBytes).1
        rawInput := .new (mem.make 0 veilReadBufferBytes).2
        pool := ⟨[], reserve, bound⟩
        made := Nat.lt_succ_self _
        cached := nofun }

/-- `c.rawInput.Reset()`. -/
def reset (c : Input) : Input := { c with rawInput := c.rawInput.reset, made := c.made }

/-- The empty buffer a read of up to `n` bytes goes on with: another one, or the same. -/
def switched (c : Input) (n : Nat) : Input :=
  if c.rawInput.capacity < veilSmallReadBytes ∨ c.rawInput.capacity < n then
    if n ≤ veilSmallReadBytes then c.small else c.pooled
  else c.reset

/-- A reader has written into a slice. -/
def fill (c : Input) (p : Slice) (bytes : List UInt8) : Input :=
  { c with
    mem := c.mem.store p.array p.first bytes
    made := c.made
    cached := c.cached }

end Input

/-- The errors of a reader, and those `veilReadFromUntil` reports itself. -/
inductive ReadErr where
  | eof
  | unexpectedEOF
  | noProgress
  | other (number : Nat)
  deriving DecidableEq, Repr

/-- History: one call of the reader, by the length of its argument and what it returned. -/
structure Call where
  room : Nat
  bytes : List UInt8
  err : Option ReadErr
  deriving DecidableEq, Repr

/-- The result of `veilReadFromUntil`, with the reader and the calls that were made of it. -/
structure Filled (σ : Type) where
  input : Input
  reader : σ
  calls : List Call
  err : Option ReadErr

section Reading

variable {σ : Type} (r : SliceReader σ UInt8 ReadErr)

/-- Read into the space behind the contents of `rawInput`, and append what was returned. -/
def Input.readOnce (c : Input) (s : σ) : Input × σ × Call :=
  let available := c.rawInput.availableBuffer
  let result := (r s available.cap).1
  ((c.fill available result.filled).write (available.take result.got result.bound),
    (r s available.cap).2, ⟨available.cap, result.items, result.err⟩)

/-- The loop of `veilReadFromUntil`; `none` when the fuel is spent. -/
def readLoop (n : Nat) : Nat → Input → σ → List Call → Option (Filled σ)
  | 0, _, _, _ => none
  | fuel + 1, c, s, calls =>
      if n ≤ c.rawInput.length then some ⟨c, s, calls, none⟩
      else
        let (c, s, call) := c.readOnce r s
        let calls := calls ++ [call]
        match call.err with
        | some .eof =>
            some ⟨c, s, calls, if c.rawInput.length < n then some .unexpectedEOF else none⟩
        | some e => some ⟨c, s, calls, some e⟩
        | none =>
            if call.bytes = [] then some ⟨c, s, calls, some .noProgress⟩
            else readLoop n fuel c s calls

/-- `veilReadFromUntil`: read until `n` bytes are buffered. -/
def veilReadFromUntil (fuel : Nat) (c : Input) (s : σ) (n : Nat) : Option (Filled σ) :=
  let pending := c.rawInput.bytes
  readLoop r n fuel ((c.switched n).write pending) s []

/-! ## One read -/

namespace Input

/-- Whether it moves to another buffer or not, what it gave up can still be read. -/
theorem read_switched (c : Input) (n : Nat) :
    (c.switched n).mem.read c.rawInput.bytes = c.unread := by
  unfold switched
  split
  · split
    · exact c.mem.read_make 0 veilSmallReadBytes c.made
    · rcases c with ⟨mem, rawInput, ⟨buffers, reserve, bound⟩, made, cached⟩
      cases buffers with
      | nil => exact mem.read_make 0 veilReadBufferBytes made
      | cons b buffers => rfl
  · rfl

/-- The buffer to go on with is empty, and large enough for what is pending and needed. -/
theorem switched_spec (c : Input) {n : Nat} (fits : n ≤ veilReadBufferBytes) :
    (c.switched n).rawInput.off = 0 ∧ (c.switched n).rawInput.buf.len = 0 ∧
      n ≤ (c.switched n).rawInput.buf.cap ∧
      c.rawInput.length ≤ (c.switched n).rawInput.buf.cap := by
  have pending := c.rawInput.length_le_capacity
  have sizes : veilSmallReadBytes ≤ veilReadBufferBytes := by decide
  unfold switched
  split
  · next narrow =>
    split
    · next few =>
      refine ⟨rfl, rfl, few, ?_⟩
      show _ ≤ veilSmallReadBytes
      omega
    · next many =>
      have cap : c.pooled.rawInput.buf.cap = veilReadBufferBytes ∧
          c.pooled.rawInput.off = 0 ∧ c.pooled.rawInput.buf.len = 0 := by
        rcases c with ⟨mem, rawInput, ⟨buffers, reserve, bound⟩, made, cached⟩
        cases buffers with
        | nil => exact ⟨rfl, rfl, rfl⟩
        | cons b buffers => exact ⟨reserve b List.mem_cons_self, rfl, rfl⟩
      obtain ⟨cap, front, empty⟩ := cap
      rw [cap]
      exact ⟨front, empty, fits, by omega⟩
  · next wide =>
    have large : n ≤ c.rawInput.capacity := by omega
    exact ⟨rfl, rfl, large, pending⟩

/-- The buffer in the loop: unread from its front, with room for what is needed. -/
structure Ready (c : Input) (n : Nat) : Prop where
  front : c.rawInput.off = 0
  large : n ≤ c.rawInput.buf.cap

theorem Ready.length {c : Input} {n : Nat} (ready : c.Ready n) :
    c.rawInput.length = c.rawInput.buf.len := by
  rw [Buffer.length, ready.front, Nat.sub_zero]

/-- `Write` appends to the unread bytes. -/
theorem unread_write (c : Input) (p : Slice) :
    (c.write p).unread = c.unread ++ c.mem.read p :=
  Buffer.read_write 0 c.mem c.rawInput p

theorem length_unread (c : Input) : c.unread.length = c.rawInput.length :=
  c.mem.length_read _

/-- A write that has room stays in the buffer. -/
theorem Ready.write {c : Input} {n : Nat} (ready : c.Ready n) {p : Slice}
    (room : p.len ≤ c.free) : (c.write p).Ready n := by
  have bounded := c.rawInput.buf.bounded
  have fits : c.rawInput.buf.len + p.len ≤ c.rawInput.buf.cap := by
    unfold free at room
    omega
  have same := Buffer.write_room 0 c.mem c.rawInput p fits
  constructor
  · show (c.rawInput.write 0 c.mem p).2.off = 0
    rw [same]
    exact ready.front
  · show n ≤ (c.rawInput.write 0 c.mem p).2.buf.cap
    rw [same]
    exact ready.large

/-- The loop begins with the pending bytes at the front of a buffer that has room for the rest. -/
theorem switched_ready (c : Input) {n : Nat} (fits : n ≤ veilReadBufferBytes) :
    ((c.switched n).write c.rawInput.bytes).Ready n ∧
      ((c.switched n).write c.rawInput.bytes).unread = c.unread := by
  obtain ⟨front, empty, large, pending⟩ := c.switched_spec fits
  constructor
  · have ready : (c.switched n).Ready n := ⟨front, large⟩
    apply ready.write
    rw [free, empty, Nat.sub_zero]
    exact pending
  · have nothing : (c.switched n).unread = [] := by
      apply List.eq_nil_of_length_eq_zero
      rw [length_unread, Buffer.length, empty, Nat.zero_sub]
    rw [unread_write, nothing, List.nil_append, read_switched]

/-- What a reader writes behind the contents does not change them. -/
theorem unread_fill (c : Input) (bytes : List UInt8) :
    (c.fill c.rawInput.availableBuffer bytes).unread = c.unread := by
  have inside := c.rawInput.inside
  apply Memory.window_store_before
  show c.rawInput.buf.first + c.rawInput.off + (c.rawInput.buf.len - c.rawInput.off) ≤
    c.rawInput.buf.first + c.rawInput.buf.len
  omega

section Reading

variable {σ : Type} {r : SliceReader σ UInt8 ReadErr} {c : Input} {n : Nat} {s : σ}

/-- One read appends what the reader returned, and stays in the buffer. -/
theorem Ready.readOnce (ready : c.Ready n) :
    (c.readOnce r s).1.Ready n ∧
      (c.readOnce r s).1.unread = c.unread ++ (c.readOnce r s).2.2.bytes := by
  have bound := (r s c.rawInput.availableBuffer.cap).1.bound
  have size := (r s c.rawInput.availableBuffer.cap).1.size
  have filled : (c.fill c.rawInput.availableBuffer
      (r s c.rawInput.availableBuffer.cap).1.filled).Ready n := ⟨ready.front, ready.large⟩
  constructor
  · exact filled.write bound
  · have copied := Memory.window_store c.mem c.rawInput.availableBuffer.array
      c.rawInput.availableBuffer.first (Nat.le_trans bound (Nat.le_of_eq size.symm))
    exact (unread_write _ _).trans (congrArg₂ _ (c.unread_fill _) copied)

/-- A reader is called with a slice that is not empty while bytes are missing. -/
theorem Ready.room (ready : c.Ready n) (missing : c.rawInput.length < n) :
    0 < (c.readOnce r s).2.2.room := by
  have large := ready.large
  rw [ready.length] at missing
  show 0 < c.rawInput.buf.cap - c.rawInput.buf.len
  omega

end Reading

end Input

/-! ## The loop -/

/-- These calls of the reader lead from one of its states to another. -/
inductive Ran : σ → List Call → σ → Prop where
  | nil (s : σ) : Ran s [] s
  | cons {s t : σ} {room : Nat} {calls : List Call} (later : Ran (r s room).2 calls t) :
      Ran s (⟨room, (r s room).1.items, (r s room).1.err⟩ :: calls) t

theorem Ran.append {s t u : σ} {first second : List Call} (before : Ran r s first t)
    (after : Ran r t second u) : Ran r s (first ++ second) u := by
  induction before with
  | nil => exact after
  | cons _ induction => exact .cons (induction after)

/-- The bytes that calls returned, in order. -/
def returned (calls : List Call) : List UInt8 := calls.flatMap Call.bytes

/-- Why a read ends with an error: its last call failed, or made no progress. -/
def Explains (n : Nat) (f : Filled σ) (e : ReadErr) : Prop :=
  ∃ call, f.calls.getLast? = some call ∧
    (call.err = some e ∨
      e = .unexpectedEOF ∧ call.err = some .eof ∧ f.input.unread.length < n ∨
      e = .noProgress ∧ call.err = none ∧ call.bytes = [])

/--
What a read is to do: the bytes that its calls of the reader returned are behind
those that were unread before, no call has an empty slice, and without an error
`n` bytes are there.
-/
structure Fills (c : Input) (s : σ) (n : Nat) (f : Filled σ) : Prop where
  ran : Ran r s f.calls f.reader
  kept : f.input.unread = c.unread ++ returned f.calls
  enough : f.err = none → n ≤ f.input.unread.length
  room : ∀ call ∈ f.calls, 0 < call.room
  cause : ∀ e, f.err = some e → Explains n f e

variable {r}

section Turn

variable {c c' : Input} {n : Nat} {s s' : σ} {call : Call}

/-- What a turn of the loop has done, when bytes were missing before it. -/
theorem turn_spec (ready : c.Ready n) (missing : c.rawInput.length < n)
    (turn : c.readOnce r s = (c', s', call)) :
    c'.Ready n ∧ c'.unread = c.unread ++ call.bytes ∧ 0 < call.room ∧
      ∀ {calls : List Call} {t : σ}, Ran r s' calls t → Ran r s (call :: calls) t := by
  have after := ready.readOnce (r := r) (s := s)
  have room := ready.room (r := r) (s := s) missing
  rw [turn] at after room
  refine ⟨after.1, after.2, room, ?_⟩
  intro calls t later
  cases turn
  exact .cons later

/-- A turn that is the last one. -/
theorem Fills.last (ready : c.Ready n) (missing : c.rawInput.length < n)
    (turn : c.readOnce r s = (c', s', call)) {e : Option ReadErr}
    (enough : e = none → n ≤ c'.unread.length)
    (cause : ∀ cause, e = some cause → call.err = some cause ∨
      cause = .unexpectedEOF ∧ call.err = some .eof ∧ c'.unread.length < n ∨
      cause = .noProgress ∧ call.err = none ∧ call.bytes = []) :
    Fills r c s n ⟨c', s', [call], e⟩ := by
  obtain ⟨-, kept, room, ran⟩ := turn_spec ready missing turn
  exact {
    ran := ran (.nil s')
    kept := by
      rw [kept, returned, List.flatMap_singleton]
    enough := enough
    room := by
      intro other member
      rwa [List.mem_singleton.mp member]
    cause := fun final failed => ⟨call, rfl, cause final failed⟩ }

/-- A turn and what follows it. -/
theorem Fills.cons (ready : c.Ready n) (missing : c.rawInput.length < n)
    (turn : c.readOnce r s = (c', s', call)) {f : Filled σ} (fills : Fills r c' s' n f) :
    Fills r c s n { f with calls := call :: f.calls } := by
  obtain ⟨-, kept, room, ran⟩ := turn_spec ready missing turn
  exact {
    ran := ran fills.ran
    kept := by
      rw [fills.kept, kept, List.append_assoc]
      rfl
    enough := fills.enough
    room := by
      intro other member
      rcases List.mem_cons.mp member with rfl | later
      · exact room
      · exact fills.room other later
    cause := by
      intro e failed
      obtain ⟨final, found, reason⟩ := fills.cause e failed
      refine ⟨final, ?_, reason⟩
      rw [List.getLast?_cons, found]
      rfl }

end Turn

/-- The calls made before the loop stay in front of those it makes. -/
def Filled.after (calls : List Call) (f : Filled σ) : Filled σ :=
  { f with calls := calls ++ f.calls }

/-- With enough bytes the loop ends at once. -/
theorem readLoop_done {c : Input} {n : Nat} (s : σ) (enough : n ≤ c.rawInput.length) :
    Fills r c s n ⟨c, s, [], none⟩ where
  ran := .nil s
  kept := (List.append_nil _).symm
  enough _ := by rwa [Input.length_unread]
  room := nofun
  cause := nofun

/-- The result of a turn that is the last one, if it is. -/
def lastTurn (n : Nat) (c : Input) (call : Call) : Option (Option ReadErr) :=
  match call.err with
  | some .eof => some (if c.rawInput.length < n then some .unexpectedEOF else none)
  | some e => some (some e)
  | none => if call.bytes = [] then some (some .noProgress) else none

/-- One turn of the loop. -/
theorem readLoop_turn {c c' : Input} {n : Nat} {s s' : σ} {call : Call} (fuel : Nat)
    (missing : c.rawInput.length < n) (turn : c.readOnce r s = (c', s', call))
    (calls : List Call) :
    readLoop r n (fuel + 1) c s calls =
      match lastTurn n c' call with
      | some e => some ⟨c', s', calls ++ [call], e⟩
      | none => readLoop r n fuel c' s' (calls ++ [call]) := by
  rw [readLoop, if_neg (Nat.not_le_of_lt missing), turn]
  unfold lastTurn
  rcases call with ⟨room, bytes, err⟩
  cases err with
  | none =>
      by_cases nothing : bytes = []
      · simp only [if_pos nothing]
      · simp only [if_neg nothing]
  | some e => cases e <;> rfl

/-- The error of a last turn is explained by its call, and without one `n` bytes are there. -/
theorem lastTurn_spec {c : Input} {n : Nat} {call : Call} {e : Option ReadErr}
    (last : lastTurn n c call = some e) :
    (e = none → n ≤ c.unread.length) ∧
      ∀ cause, e = some cause → call.err = some cause ∨
        cause = .unexpectedEOF ∧ call.err = some .eof ∧ c.unread.length < n ∨
        cause = .noProgress ∧ call.err = none ∧ call.bytes = [] := by
  rw [Input.length_unread]
  unfold lastTurn at last
  split at last
  · next ended =>
    cases last
    by_cases short : c.rawInput.length < n
    · rw [if_pos short]
      refine ⟨nofun, ?_⟩
      rintro cause ⟨⟩
      exact .inr (.inl ⟨rfl, ended, short⟩)
    · rw [if_neg short]
      exact ⟨fun _ => Nat.le_of_not_lt short, nofun⟩
  · next failed =>
    cases last
    refine ⟨nofun, ?_⟩
    rintro cause ⟨⟩
    exact .inl failed
  · next fine =>
    split at last
    · next nothing =>
      cases last
      refine ⟨nofun, ?_⟩
      rintro cause ⟨⟩
      exact .inr (.inr ⟨rfl, fine, nothing⟩)
    · cases last

/-- A turn that is not the last one has read something. -/
theorem bytes_of_lastTurn {c : Input} {n : Nat} {call : Call}
    (more : lastTurn n c call = none) : 0 < call.bytes.length := by
  unfold lastTurn at more
  split at more
  · cases more
  · cases more
  · split at more
    · cases more
    · next some_ => exact List.length_pos_of_ne_nil some_

/--
The loop ends: every turn that goes on has read at least one of the missing
bytes, so that there are no more turns than missing bytes, and one.
-/
theorem readLoop_fills {n : Nat} (missing : Nat) {c : Input} (ready : c.Ready n) (s : σ)
    (few : n - c.rawInput.length ≤ missing) (calls : List Call) :
    ∃ f, (∀ fuel, missing < fuel → readLoop r n fuel c s calls = some (f.after calls)) ∧
      Fills r c s n f := by
  induction missing generalizing c s calls with
  | zero =>
      have enough : n ≤ c.rawInput.length := by omega
      refine ⟨⟨c, s, [], none⟩, ?_, readLoop_done s enough⟩
      intro fuel positive
      obtain ⟨fuel, rfl⟩ := Nat.exists_eq_succ_of_ne_zero (Nat.ne_of_gt positive)
      rw [readLoop, if_pos enough, Filled.after, List.append_nil]
  | succ missing induction =>
      by_cases enough : n ≤ c.rawInput.length
      · refine ⟨⟨c, s, [], none⟩, ?_, readLoop_done s enough⟩
        intro fuel positive
        obtain ⟨fuel, rfl⟩ := Nat.exists_eq_succ_of_ne_zero (Nat.ne_zero_of_lt positive)
        rw [readLoop, if_pos enough, Filled.after, List.append_nil]
      · have short := Nat.lt_of_not_le enough
        rcases turn : c.readOnce r s with ⟨c', s', call⟩
        have next := fun fuel => readLoop_turn fuel short turn calls
        cases outcome : lastTurn n c' call with
        | some e =>
            obtain ⟨whole, cause⟩ := lastTurn_spec outcome
            refine ⟨⟨c', s', [call], e⟩, ?_, Fills.last ready short turn whole cause⟩
            intro fuel positive
            obtain ⟨fuel, rfl⟩ := Nat.exists_eq_succ_of_ne_zero (Nat.ne_zero_of_lt positive)
            rw [Nat.succ_eq_add_one, next, outcome]
            rfl
        | none =>
            obtain ⟨ready', kept, -, -⟩ := turn_spec ready short turn
            have grown := congrArg List.length kept
            rw [List.length_append, Input.length_unread, Input.length_unread] at grown
            have some_ := bytes_of_lastTurn outcome
            obtain ⟨f, ends, fills⟩ := @induction c' ready' s' (by omega) (calls ++ [call])
            refine ⟨{ f with calls := call :: f.calls }, ?_, fills.cons ready short turn⟩
            intro fuel positive
            obtain ⟨fuel, rfl⟩ := Nat.exists_eq_succ_of_ne_zero (Nat.ne_zero_of_lt positive)
            rw [Nat.succ_eq_add_one, next, outcome]
            show readLoop r n fuel c' s' (calls ++ [call]) = _
            rw [ends fuel (Nat.lt_of_succ_lt_succ positive), Filled.after, Filled.after,
              List.append_assoc, List.singleton_append]

/--
A read of at most a record ends, whatever the reader returns.  It keeps the
bytes that were unread, appends all that the reader returned in order, never
calls the reader with an empty slice, and returns no error only with `n` bytes.
-/
theorem read_until_keeps {σ : Type} (r : SliceReader σ UInt8 ReadErr) (c : Input) (s : σ)
    {n : Nat} (record : n ≤ recordHeaderLen + maxCiphertext) :
    ∃ f, (∀ fuel, n < fuel → veilReadFromUntil r fuel c s n = some f) ∧
      Fills r c s n f := by
  have fits : n ≤ veilReadBufferBytes := Nat.le_trans record (by decide)
  obtain ⟨ready, same⟩ := c.switched_ready fits
  obtain ⟨f, ends, fills⟩ := readLoop_fills (r := r) n ready s (Nat.sub_le _ _) []
  exact ⟨f, ends, { fills with kept := by rw [fills.kept, same] }⟩

/-! ## The reads of a connection -/

namespace Input

/-- `c.rawInput.Next(n)`, but for its result. -/
def skip (c : Input) (n : Nat) : Input :=
  { c with rawInput := c.rawInput.skip n, made := c.made }

/--
The part of `VeilReleaseBuffers` that lets `rawInput` go, once it is empty.  A
slice of capacity zero stands for the one of a zero `Buffer`.
-/
def release (c : Input) : Input :=
  { c with
    rawInput := .new ⟨c.rawInput.buf.array, c.rawInput.buf.first, 0, 0, le_rfl⟩
    pool := c.pool.put c.rawInput.reset.bytes
    made := c.made
    cached := by
      intro b member
      rcases ReadPool.mem_put member with old | same
      · exact c.cached b old
      · rw [same]
        exact c.made }

theorem unread_skip (c : Input) (n : Nat) : (c.skip n).unread = c.unread.drop n :=
  Buffer.read_skip c.mem c.rawInput n

theorem unread_release (c : Input) : c.release.unread = [] := rfl

end Input

/-- A connection's raw input and the reader below, with what happened to them. -/
structure Stream (σ : Type) where
  input : Input
  reader : σ
  /-- History: the calls of the reader. -/
  calls : List Call
  /-- History: the bytes that the record layer has taken from `rawInput`. -/
  taken : List UInt8

/-- What the record layer does with the raw input of a connection. -/
inductive Use where
  /-- `veilReadFromUntil`, for a header or a record. -/
  | fill (n : Nat)
  /-- `rawInput.Next`. -/
  | next (n : Nat)
  /-- `VeilReleaseBuffers`; `idle` when no plaintext or handshake message waits. -/
  | release (idle : Bool)

/-- One use. -/
def Stream.step (r : SliceReader σ UInt8 ReadErr) (x : Stream σ) : Use → Option (Stream σ)
  | .fill n =>
      if n ≤ recordHeaderLen + maxCiphertext then
        (veilReadFromUntil r (n + 1) x.input x.reader n).map fun f =>
          { x with input := f.input, reader := f.reader, calls := x.calls ++ f.calls }
      else none
  | .next n =>
      some { x with
        input := x.input.skip n
        taken := x.taken ++ x.input.unread.take n }
  | .release idle =>
      if idle && x.input.rawInput.length == 0 then some { x with input := x.input.release }
      else some x

/-- The raw input of a connection, which is empty when the connection begins. -/
def Stream.machine (r : SliceReader σ UInt8 ReadErr) : Machine (Stream σ) Use where
  start x := x.input.unread = [] ∧ x.calls = [] ∧ x.taken = []
  step := Stream.step r

/-- Every use keeps the bytes that were returned: each is taken or unread, in order. -/
theorem Stream.step_kept {x x' : Stream σ} {use : Use} (taken : x.step r use = some x')
    (held : x.taken ++ x.input.unread = returned x.calls) :
    x'.taken ++ x'.input.unread = returned x'.calls := by
  cases use with
  | fill n =>
      simp only [step] at taken
      split at taken
      · next record =>
        obtain ⟨f, ends, fills⟩ := read_until_keeps r x.input x.reader record
        rw [ends (n + 1) (Nat.lt_succ_self n)] at taken
        cases taken
        show x.taken ++ f.input.unread = (x.calls ++ f.calls).flatMap Call.bytes
        rw [fills.kept, ← List.append_assoc, held, List.flatMap_append]
        rfl
      · cases taken
  | next n =>
      cases taken
      show (x.taken ++ x.input.unread.take n) ++ (x.input.skip n).unread = _
      rw [Input.unread_skip, List.append_assoc, List.take_append_drop, held]
  | release idle =>
      simp only [step] at taken
      split at taken
      · next free =>
        have nothing : x.input.unread = [] := by
          apply List.eq_nil_of_length_eq_zero
          rw [Input.length_unread]
          exact beq_iff_eq.mp (Bool.and_eq_true_iff.mp free).2
        cases taken
        show x.taken ++ x.input.release.unread = _
        rw [Input.unread_release, ← nothing, held]
      · cases taken
        exact held

/--
Over all reads of a connection, with buffers that come and go between them, the
record layer takes the bytes that the reader returned, in order and each once.
-/
theorem Stream.kept {x : Stream σ} (reached : (Stream.machine r).Reachable x) :
    x.taken ++ x.input.unread = returned x.calls := by
  refine reached.invariant (P := fun x => x.taken ++ x.input.unread = returned x.calls) ?_
    fun x use x' _ held _ taken => step_kept taken held
  rintro x ⟨empty, calls, taken⟩
  rw [empty, calls, taken]
  rfl

end Reading

/-- A reader that returns at most two bytes a call, and an error with the last ones. -/
def pairs : SliceReader (List UInt8) UInt8 ReadErr := fun s n =>
  (⟨(s.take (min n 2)) ++ List.replicate (n - (s.take (min n 2)).length) 0,
      (s.take (min n 2)).length, if s.length ≤ 2 then some (.other 0) else none, by
        rw [List.length_append, List.length_replicate]
        have short := List.length_take_le (min n 2) s
        omega, by
        have short := List.length_take_le (min n 2) s
        omega⟩, s.drop 2)

/-- A buffer of two bytes, one of them unread. -/
def tiny : Input where
  mem := ⟨fun _ i => UInt8.ofNat (6 + i), 1⟩
  rawInput := ⟨⟨0, 0, 2, 2, by decide⟩, 1, by decide⟩
  pool := ⟨[], nofun, by decide⟩
  made := by decide
  cached := nofun

/-- A header that comes in two reads, behind a byte from a buffer that is too small. -/
theorem read_until_keeps_split :
    ((veilReadFromUntil pairs 6 tiny [1, 2, 3, 4] 5).map fun f => (f.input.unread, f.err)) =
        some ([7, 1, 2, 3, 4], some (.other 0)) ∧
      ∃ f, (∀ fuel, 5 < fuel → veilReadFromUntil pairs fuel tiny [1, 2, 3, 4] 5 = some f) ∧
        Fills pairs tiny [1, 2, 3, 4] 5 f :=
  ⟨by decide +kernel, read_until_keeps pairs tiny [1, 2, 3, 4] (by decide)⟩

end Veil.Tls

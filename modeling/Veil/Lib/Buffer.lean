import Mathlib.Data.List.Basic

/-!
# Slices and growing buffers

Slices of arrays, with a length and a capacity, and a buffer on one slice that
keeps a read offset.  Slices may share an array, so that what is written through
one of them is read through the others.  A copy reads all of its source before
it writes, and so the two may overlap.
-/

namespace Veil.Lib

/-- Arrays by address and index; those from `next` on have not been made. -/
structure Memory (β : Type*) where
  cell : Nat → Nat → β
  next : Nat

/-- A slice: the items of an array from `first` on. -/
structure Slice where
  array : Nat
  first : Nat
  len : Nat
  cap : Nat
  bounded : len ≤ cap
  deriving DecidableEq, Repr

namespace Slice

/-- `s[k:]`. -/
def drop (s : Slice) (k : Nat) (_inside : k ≤ s.len) : Slice :=
  ⟨s.array, s.first + k, s.len - k, s.cap - k, Nat.sub_le_sub_right s.bounded k⟩

/-- `s[:k]`, which may reach behind the length up to the capacity. -/
def take (s : Slice) (k : Nat) (inside : k ≤ s.cap) : Slice :=
  ⟨s.array, s.first, k, s.cap, inside⟩

end Slice

namespace Memory

variable {β : Type*} (m : Memory β)

/-- The `n` items of an array from an index on. -/
def window (array first n : Nat) : List β :=
  (List.range n).map fun i => m.cell array (first + i)

/-- The items of a slice. -/
def read (s : Slice) : List β := m.window s.array s.first s.len

/-- Put items into an array, from an index on. -/
def store (array first : Nat) (items : List β) : Memory β :=
  { m with cell := fun a i =>
      if a = array ∧ first ≤ i then items[i - first]?.getD (m.cell a i) else m.cell a i }

/-- A new array of the given capacity, as a slice of length zero. -/
def make (zero : β) (cap : Nat) : Memory β × Slice :=
  ({ cell := fun a i => if a = m.next then zero else m.cell a i, next := m.next + 1 },
    ⟨m.next, 0, 0, cap, Nat.zero_le cap⟩)

@[simp]
theorem length_window (array first n : Nat) : (m.window array first n).length = n := by
  simp [window]

@[simp]
theorem window_zero (array first : Nat) : m.window array first 0 = [] := rfl

@[simp]
theorem length_read (s : Slice) : (m.read s).length = s.len := m.length_window _ _ _

/-- A window is the one before an index and the one behind it. -/
theorem window_add (array first n k : Nat) :
    m.window array first (n + k) =
      m.window array first n ++ m.window array (first + n) k := by
  simp [window, List.range_add, Nat.add_assoc]

@[simp]
theorem store_next (array first : Nat) (items : List β) :
    (m.store array first items).next = m.next := rfl

/-- The items that were put into an array are read back. -/
theorem window_store (array first : Nat) {n : Nat} {items : List β} (short : n ≤ items.length) :
    (m.store array first items).window array first n = items.take n := by
  apply List.ext_getElem
  · rw [length_window, List.length_take, Nat.min_eq_left short]
  · intro i below _
    rw [length_window] at below
    simp [window, store, List.getElem?_eq_getElem (Nat.lt_of_lt_of_le below short)]

/-- What lies before the items that are put into an array stays as it is. -/
theorem window_store_before (array : Nat) {first start n : Nat} (items : List β)
    (before : start + n ≤ first) :
    (m.store array first items).window array start n = m.window array start n := by
  apply List.map_congr_left
  intro i member
  have below := List.mem_range.mp member
  have outside : ¬ (array = array ∧ first ≤ start + i) := by omega
  exact if_neg outside

/-- A new array changes no older one. -/
theorem read_make (zero : β) (cap : Nat) {s : Slice} (older : s.array < m.next) :
    (m.make zero cap).1.read s = m.read s := by
  apply List.map_congr_left
  intro i _
  exact if_neg (Nat.ne_of_lt older)

end Memory

/-- A buffer: a slice, the first part of which has been read. -/
structure Buffer where
  buf : Slice
  off : Nat
  inside : off ≤ buf.len
  deriving DecidableEq, Repr

namespace Buffer

variable {β : Type*}

/-- `NewBuffer`. -/
def new (s : Slice) : Buffer := ⟨s, 0, Nat.zero_le _⟩

/-- `Bytes`: the unread part. -/
def bytes (b : Buffer) : Slice := b.buf.drop b.off b.inside

/-- `Len`. -/
def length (b : Buffer) : Nat := b.buf.len - b.off

/-- `Cap`. -/
def capacity (b : Buffer) : Nat := b.buf.cap

/-- `Reset`: empty, with the array it has. -/
def reset (b : Buffer) : Buffer := ⟨b.buf.take 0 (Nat.zero_le _), 0, Nat.le_refl 0⟩

/-- `Next` without its result: the first `n` unread items, or all, have been read. -/
def skip (b : Buffer) (n : Nat) : Buffer :=
  ⟨b.buf, b.off + min n b.length, by
    have inside := b.inside
    unfold length
    omega⟩

/-- `AvailableBuffer`: the empty slice behind the contents. -/
def availableBuffer (b : Buffer) : Slice := b.buf.drop b.buf.len (Nat.le_refl _)

/--
`Write`: copy a slice behind the contents.  Without room for it, the unread part
moves to a larger array first.
-/
def write (zero : β) (m : Memory β) (b : Buffer) (p : Slice) : Memory β × Buffer :=
  if room : b.buf.len + p.len ≤ b.buf.cap then
    (m.store b.buf.array (b.buf.first + b.buf.len) (m.read p),
      ⟨b.buf.take (b.buf.len + p.len) room, b.off, Nat.le_add_right_of_le b.inside⟩)
  else
    let made := m.make zero (2 * b.buf.cap + (b.length + p.len))
    (made.1.store made.2.array made.2.first (m.read b.bytes ++ m.read p),
      ⟨made.2.take (b.length + p.len) (Nat.le_add_left _ _), 0, Nat.zero_le _⟩)

theorem bytes_len (b : Buffer) : b.bytes.len = b.length := rfl

theorem length_le_capacity (b : Buffer) : b.length ≤ b.capacity :=
  Nat.le_trans (Nat.sub_le _ _) b.buf.bounded

@[simp]
theorem read_reset (m : Memory β) (b : Buffer) : m.read b.reset.bytes = [] := rfl

@[simp]
theorem read_new (m : Memory β) {s : Slice} (empty : s.len = 0) :
    m.read (new s).bytes = [] := by
  apply List.eq_nil_of_length_eq_zero
  rw [Memory.length_read]
  exact Nat.sub_eq_zero_of_le (Nat.le_of_eq empty)

/-- A skipped part is the front of the contents. -/
theorem read_skip (m : Memory β) (b : Buffer) (n : Nat) :
    m.read (b.skip n).bytes = (m.read b.bytes).drop n := by
  have split_ : b.length = min n b.length + (b.length - min n b.length) := by omega
  have whole : m.read b.bytes =
      m.window b.buf.array (b.buf.first + b.off) (min n b.length) ++
        m.window b.buf.array (b.buf.first + b.off + min n b.length)
          (b.length - min n b.length) := by
    rw [← Memory.window_add, ← split_]
    rfl
  have size : (b.skip n).bytes.len = b.length - min n b.length := Nat.sub_add_eq _ _ _
  have rest : m.read (b.skip n).bytes =
      m.window b.buf.array (b.buf.first + b.off + min n b.length)
        (b.length - min n b.length) := by
    rw [Memory.read, size, Nat.add_assoc]
    rfl
  rw [rest, whole]
  by_cases few : n ≤ b.length
  · rw [Nat.min_eq_left few, List.drop_left' (Memory.length_window _ _ _ _)]
  · have all := Nat.le_of_lt (Nat.lt_of_not_le few)
    rw [Nat.min_eq_right all, Nat.sub_self, Memory.window_zero, List.append_nil,
      List.drop_eq_nil_of_le (by rwa [Memory.length_window])]

section Write

variable (zero : β) (m : Memory β) (b : Buffer) (p : Slice)

/-- A buffer with room writes in place. -/
theorem write_room (room : b.buf.len + p.len ≤ b.buf.cap) :
    b.write zero m p = (m.store b.buf.array (b.buf.first + b.buf.len) (m.read p),
      ⟨b.buf.take (b.buf.len + p.len) room, b.off, Nat.le_add_right_of_le b.inside⟩) :=
  dif_pos room

/-- `Write` appends, wherever the slice lies and whether or not the buffer has room. -/
theorem read_write :
    (b.write zero m p).1.read (b.write zero m p).2.bytes = m.read b.bytes ++ m.read p := by
  by_cases room : b.buf.len + p.len ≤ b.buf.cap
  · rw [write_room zero m b p room]
    have size : b.buf.len + p.len - b.off = b.length + p.len := by
      have inside := b.inside
      unfold length
      omega
    have behind : b.buf.first + b.off + b.length = b.buf.first + b.buf.len := by
      have inside := b.inside
      unfold length
      omega
    show Memory.window _ b.buf.array (b.buf.first + b.off) (b.buf.len + p.len - b.off) = _
    rw [size, Memory.window_add, Memory.window_store_before _ _ _ (Nat.le_of_eq behind), behind,
      Memory.window_store _ _ _ (Nat.le_of_eq (m.length_read p).symm)]
    rw [List.take_of_length_le (Nat.le_of_eq (m.length_read p))]
    rfl
  · unfold write
    rw [dif_neg room]
    have size : (m.read b.bytes ++ m.read p).length = b.length + p.len := by
      rw [List.length_append, Memory.length_read, Memory.length_read, bytes_len]
    have moved := (m.make zero (2 * b.buf.cap + (b.length + p.len))).1.window_store m.next 0
      (Nat.le_of_eq size.symm)
    exact moved.trans (List.take_of_length_le (Nat.le_of_eq size))

theorem write_next : m.next ≤ (b.write zero m p).1.next := by
  unfold write
  split
  · exact Nat.le_refl _
  · exact Nat.le_succ _

/-- A buffer on an array that has been made stays on one. -/
theorem write_made (made : b.buf.array < m.next) :
    (b.write zero m p).2.buf.array < (b.write zero m p).1.next := by
  unfold write
  split
  · exact made
  · exact Nat.lt_succ_self _

end Write

end Buffer

/-- What a call of a reader leaves in a slice of `n` items, and what it returns. -/
structure ReadInto (β ε : Type*) (n : Nat) where
  filled : List β
  got : Nat
  err : Option ε
  size : filled.length = n
  bound : got ≤ n

/-- The items that a call returned: the first ones of those it left in the slice. -/
def ReadInto.items {β ε : Type*} {n : Nat} (result : ReadInto β ε n) : List β :=
  result.filled.take result.got

/-- A reader of slices: any result, by its state and the length of the slice. -/
abbrev SliceReader (σ β ε : Type*) := σ → (n : Nat) → ReadInto β ε n × σ

end Veil.Lib

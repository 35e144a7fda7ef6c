import Mathlib.Data.List.Basic
import Mathlib.Data.List.Infix

/-!
# Byte sources that cut their input

A reader of a stream does not choose how the bytes arrive: every read returns
at least one item, as long as there is one, and no more than it has room for.
A source carries the items still to come together with the sizes the transport
will choose.  What a loop reads until its buffer is full does not depend on
these sizes.

The second half is about parsers that read one item of a stream after another.
Two conditions on the item reader, that it reads back every word and accepts
nothing else, determine what the parser does on a whole input.
-/

namespace Veil.Lib

/-- The items still to come and the sizes of the next reads, less one. -/
structure Source (β : Type*) where
  bytes : List β
  cuts : List Nat

namespace Source

variable {β : Type*}

/-- One read with room for `room` items; nothing comes back at the end of input. -/
def read (s : Source β) (room : Nat) : List β × Source β :=
  match s.cuts with
  | [] => (s.bytes.take room, ⟨s.bytes.drop room, []⟩)
  | cut :: rest =>
      let n := min room (cut + 1)
      (s.bytes.take n, ⟨s.bytes.drop n, rest⟩)

/-- The items read and those left are the ones that were there. -/
theorem read_append (s : Source β) (room : Nat) :
    (s.read room).1 ++ (s.read room).2.bytes = s.bytes := by
  unfold read
  split <;> exact List.take_append_drop _ _

theorem read_length_le (s : Source β) (room : Nat) : (s.read room).1.length ≤ room := by
  unfold read
  split <;> simp only [List.length_take] <;> omega

/-- A read with room returns nothing only at the end of input. -/
theorem read_eq_nil {s : Source β} {room : Nat} (some_ : 0 < room)
    (empty : (s.read room).1 = []) : s.bytes = [] := by
  unfold read at empty
  split at empty <;>
    simp only [List.take_eq_nil_iff] at empty <;>
    rcases empty with none_ | ended
  · omega
  · exact ended
  · omega
  · exact ended

/-- The loop of `fill`; every turn reads at least one of the `left` items. -/
def fillLoop : Nat → Nat → Source β → List β × Source β
  | 0, _, s => ([], s)
  | fuel + 1, left, s =>
      if left = 0 then ([], s)
      else
        match s.read left with
        | ([], s) => ([], s)
        | (got, s) =>
            let rest := fillLoop fuel (left - got.length) s
            (got ++ rest.1, rest.2)

/-- Read until `left` items have arrived or the input ends. -/
def fill (s : Source β) (left : Nat) : List β × Source β := fillLoop left left s

theorem fillLoop_spec (fuel left : Nat) (s : Source β) (enough : left ≤ fuel) :
    (fillLoop fuel left s).1 = s.bytes.take left ∧
      (fillLoop fuel left s).2.bytes = s.bytes.drop left := by
  induction fuel generalizing left s with
  | zero =>
      have none_ : left = 0 := by omega
      simp [fillLoop, none_]
  | succ fuel induction =>
      rw [fillLoop]
      split
      · next none_ => simp [none_]
      · next some_ =>
          have parts := read_append s left
          have short := read_length_le s left
          split
          · next after reading =>
              have ended := @read_eq_nil _ s left (by omega) (by rw [reading])
              rw [reading, ended] at parts
              simp only [List.nil_append] at parts
              simp [ended, parts]
          · next got after some' reading =>
              rw [reading] at parts short
              simp only at parts short ⊢
              have grew : 0 < got.length := List.length_pos_iff.mpr some'
              have later := induction (left - got.length) after (by omega)
              rw [← parts, later.1, later.2, List.take_append, List.drop_append,
                List.take_of_length_le short, List.drop_of_length_le short]
              exact ⟨rfl, rfl⟩

/-- A loop that fills its buffer returns the next `left` items, however they arrive. -/
theorem fill_spec (s : Source β) (left : Nat) :
    (s.fill left).1 = s.bytes.take left ∧ (s.fill left).2.bytes = s.bytes.drop left :=
  fillLoop_spec left left s le_rfl

/-- Reading a whole word that comes next. -/
theorem fill_word {s : Source β} {word rest : List β} (next : s.bytes = word ++ rest) :
    (s.fill word.length).1 = word ∧ (s.fill word.length).2.bytes = rest := by
  rcases fill_spec s word.length with ⟨got, left⟩
  rw [got, left, next]
  simp

end Source

/-! ## Parsers of item sequences -/

/-- How a parser ended: its items, the error it stopped with, the input left over. -/
structure Parsed (φ ε β : Type*) where
  items : List φ
  stop : Option ε
  rest : List β

section Parsers

variable {φ ε β : Type*}

/-- Read items until one cannot be read; the input of that item is left over. -/
def parseItems (item : Source β → Except ε (φ × Source β)) :
    Nat → Source β → Parsed φ ε β
  | 0, s => ⟨[], none, s.bytes⟩
  | fuel + 1, s =>
      match item s with
      | .error e => ⟨[], some e, s.bytes⟩
      | .ok (a, s) =>
          let more := parseItems item fuel s
          ⟨a :: more.items, more.stop, more.rest⟩

/-- An item reader that reads back the words of the valid items, and only those. -/
structure Reads (item : Source β → Except ε (φ × Source β)) (valid : φ → Prop)
    (word : φ → List β) : Prop where
  complete : ∀ a rest s, valid a → s.bytes = word a ++ rest →
    ∃ s', item s = .ok (a, s') ∧ s'.bytes = rest
  sound : ∀ s a s', item s = .ok (a, s') → valid a ∧ s.bytes = word a ++ s'.bytes

variable {item : Source β → Except ε (φ × Source β)} {valid : φ → Prop}
  {word : φ → List β}

/-- The words of valid items are read back, whatever way they arrive. -/
theorem Reads.parse_words (reads : Reads item valid word) {ended : ε}
    (atEnd : ∀ s : Source β, s.bytes = [] → item s = .error ended)
    {items : List φ} (fine : ∀ a ∈ items, valid a) {fuel : Nat}
    (enough : items.length < fuel) {s : Source β} (spelled : s.bytes = items.flatMap word) :
    parseItems item fuel s = ⟨items, some ended, []⟩ := by
  induction items generalizing fuel s with
  | nil =>
      cases fuel with
      | zero => omega
      | succ fuel => simp [parseItems, atEnd s spelled, spelled]
  | cons a items induction =>
      cases fuel with
      | zero => omega
      | succ fuel =>
          rw [List.flatMap_cons] at spelled
          rcases reads.complete a _ s (fine a (by simp)) spelled with ⟨s', read, left⟩
          have later := induction (fun b member => fine b (by simp [member]))
            (by simpa using enough) left
          simp [parseItems, read, later]

/-- What was read and what is left over spell the input. -/
theorem Reads.parse_sound (reads : Reads item valid word) (fuel : Nat) (s : Source β) :
    (∀ a ∈ (parseItems item fuel s).items, valid a) ∧
      s.bytes = (parseItems item fuel s).items.flatMap word ++
        (parseItems item fuel s).rest := by
  induction fuel generalizing s with
  | zero => simp [parseItems]
  | succ fuel induction =>
      rw [parseItems]
      split
      · simp
      · next a s' read =>
          rcases reads.sound s a s' read with ⟨fine, spelled⟩
          rcases induction s' with ⟨later, rest⟩
          refine ⟨?_, ?_⟩
          · intro b member
            rcases List.mem_cons.mp member with rfl | member
            · exact fine
            · exact later b member
          · rw [spelled, List.flatMap_cons, List.append_assoc, ← rest]

end Parsers

end Veil.Lib

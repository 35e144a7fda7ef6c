import Mathlib.Data.List.TakeDrop

/-!
# Readers that end

A read fills part of a buffer and may come with an error, also when it returns
items.  A reader that streams returns the items of a word in order, and an error
only once the word is out.  What a loop gets that reads until its buffer is full
does not depend on how the word was cut, nor does what a sequence of reads gets
in all.
-/

namespace Veil.Lib

/--
One read, by the room in the buffer: the items, the error and the reader after
it.  `work` bounds the reads that return less than they could.
-/
structure Reader (σ β ε : Type*) where
  read : σ → Nat → (List β × Option ε) × σ
  work : σ → Nat

namespace Reader

variable {σ β ε : Type*} (R : Reader σ β ε)

/-- The reads of a loop that ends with a full buffer or an error. -/
def fill : Nat → Nat → σ → (List β × Option ε) × σ
  | 0, _, s => (([], none), s)
  | fuel + 1, left, s =>
      if left = 0 then (([], none), s)
      else
        match R.read s left with
        | ((got, some e), s) => ((got, some e), s)
        | ((got, none), s) =>
            let ((more, e), s) := fill fuel (left - got.length) s
            ((got ++ more, e), s)

/--
Read exactly `size` items.  An error that comes with the last of them is
dropped; `cut` stands for the end of input behind the first item.
-/
def readFull [DecidableEq ε] (eof cut : ε) (size : Nat) (s : σ) : Except ε (List β) × σ :=
  match R.fill (R.work s + 1) size s with
  | ((got, e), s) =>
      if size ≤ got.length then (.ok got, s)
      else if got ≠ [] ∧ e = some eof then (.error cut, s)
      else (.error (e.getD eof), s)

/-- Reads with buffers of these sizes. -/
def reads : List Nat → σ → List (List β × Option ε) × σ
  | [], s => ([], s)
  | room :: rooms, s =>
      let (first, s) := R.read s room
      let (later, s) := reads rooms s
      (first :: later, s)

/-- The items of a sequence of reads. -/
def items (results : List (List β × Option ε)) : List β :=
  results.flatMap Prod.fst

/-- A reader returns the items still to come, in order, and an error behind the last. -/
structure Streams (rest : σ → List β) (ending : σ → ε) : Prop where
  next : ∀ s room, (R.read s room).1.1 ++ rest (R.read s room).2 = rest s
  short : ∀ s room, (R.read s room).1.1.length ≤ room
  ends : ∀ s room e, (R.read s room).1.2 = some e →
    rest (R.read s room).2 = [] ∧ e = ending s
  same : ∀ s room, ending (R.read s room).2 = ending s
  steady : ∀ s room, R.work (R.read s room).2 ≤ R.work s
  progress : ∀ s room, (R.read s room).1.2 = none →
    (R.read s room).1.1.length = room ∨ R.work (R.read s room).2 < R.work s

variable {R} {rest : σ → List β} {ending : σ → ε}

theorem fill_zero (fuel : Nat) (s : σ) : R.fill fuel 0 s = (([], none), s) := by
  cases fuel <;> simp [fill]

/-- An invariant of single reads, by the room that is left, is one of the loop. -/
theorem fill_invariant {I : σ → Nat → Prop}
    (step : ∀ s left, I s left → I (R.read s left).2 (left - (R.read s left).1.1.length))
    (fuel : Nat) {left : Nat} {s : σ} (held : I s left) :
    ∃ left', I (R.fill fuel left s).2 left' := by
  induction fuel generalizing left s with
  | zero => exact ⟨left, held⟩
  | succ fuel induction =>
      unfold fill
      split
      · exact ⟨left, held⟩
      · have after := step s left held
        split
        · next got e s' reading =>
            rw [reading] at after
            exact ⟨_, after⟩
        · next got s' reading =>
            rw [reading] at after
            exact induction after

/-- A loop that fills its buffer gets the next items, however they arrive. -/
theorem Streams.fill_spec (law : R.Streams rest ending) {fuel left : Nat} {s : σ}
    (enough : R.work s < fuel) :
    (R.fill fuel left s).1.1 = (rest s).take left ∧
      rest (R.fill fuel left s).2 = (rest s).drop left ∧
      ending (R.fill fuel left s).2 = ending s ∧
      ((rest s).length < left → (R.fill fuel left s).1.2 = some (ending s)) := by
  induction fuel generalizing left s with
  | zero => exact absurd enough (Nat.not_lt_zero _)
  | succ fuel induction =>
      unfold fill
      split
      · next none_ => simp [none_]
      have next := law.next s left
      have short := law.short s left
      have ends := law.ends s left
      have same := law.same s left
      have progress := law.progress s left
      split
      · next got e s' reading =>
          rw [reading] at next short ends same
          obtain ⟨out, rfl⟩ := ends e rfl
          simp only at next short out same
          rw [out, List.append_nil] at next
          subst next
          rw [List.take_of_length_le short, List.drop_eq_nil_of_le short]
          exact ⟨rfl, out, same, fun _ => rfl⟩
      · next got s' reading =>
          rw [reading] at next short same progress
          simp only at next short same progress ⊢
          rcases progress trivial with full | less
          · rw [full, Nat.sub_self, fill_zero]
            have long : left ≤ (rest s).length := by
              rw [← next, List.length_append, full]
              exact Nat.le_add_right _ _
            rw [← next, List.append_nil, List.take_left' full, List.drop_left' full]
            refine ⟨rfl, rfl, same, ?_⟩
            intro cut
            rw [next] at cut
            omega
          · obtain ⟨items, after, ending', cut⟩ :=
              @induction (left - got.length) s' (by omega)
            rw [items, after, ending', same, ← next, List.take_append, List.drop_append,
              List.take_of_length_le short, List.drop_of_length_le short]
            refine ⟨rfl, rfl, rfl, ?_⟩
            intro few
            rw [List.length_append] at few
            rw [cut (by omega), same]

/-- Reading exactly: the items, or what is wrong with the stream. -/
theorem Streams.readFull_spec [DecidableEq ε] (law : R.Streams rest ending) (eof cut : ε)
    (size : Nat) (s : σ) :
    (R.readFull eof cut size s).1 =
        (if size ≤ (rest s).length then .ok ((rest s).take size)
        else if rest s ≠ [] ∧ ending s = eof then .error cut else .error (ending s)) ∧
      rest (R.readFull eof cut size s).2 = (rest s).drop size ∧
      ending (R.readFull eof cut size s).2 = ending s := by
  obtain ⟨items, after, same, ends⟩ :=
    @Streams.fill_spec _ _ _ R rest ending law (R.work s + 1) size s (Nat.lt_succ_self _)
  unfold readFull
  rcases filled : R.fill (R.work s + 1) size s with ⟨⟨got, e⟩, s'⟩
  rw [filled] at items after same ends
  simp only at items after same ends ⊢
  subst items
  by_cases enough : size ≤ (rest s).length
  · have whole : size ≤ ((rest s).take size).length := by
      rw [List.length_take]
      omega
    rw [if_pos whole, if_pos enough]
    exact ⟨rfl, after, same⟩
  · have less := Nat.lt_of_not_le enough
    have all : (rest s).take size = rest s := List.take_of_length_le (Nat.le_of_lt less)
    rw [all, if_neg enough, if_neg enough, ends less]
    simp only [Option.some.injEq, Option.getD_some]
    split <;> exact ⟨rfl, after, same⟩

/-- What reads have returned and what is still to come is the stream. -/
theorem Streams.reads_spec (law : R.Streams rest ending) (rooms : List Nat) (s : σ) :
    items (R.reads rooms s).1 ++ rest (R.reads rooms s).2 = rest s ∧
      ∀ result ∈ (R.reads rooms s).1, ∀ e, result.2 = some e →
        e = ending s ∧ items (R.reads rooms s).1 = rest s := by
  induction rooms generalizing s with
  | nil => exact ⟨rfl, fun _ => nofun⟩
  | cons room rooms induction =>
      have next := law.next s room
      have ends := law.ends s room
      obtain ⟨parts, errors⟩ := induction (R.read s room).2
      have whole : items (R.reads (room :: rooms) s).1 ++
          rest (R.reads (room :: rooms) s).2 = rest s := by
        show (R.read s room).1.1 ++ items (R.reads rooms (R.read s room).2).1 ++ _ = _
        rw [List.append_assoc]
        exact (congrArg _ parts).trans next
      refine ⟨whole, ?_⟩
      intro result member e failed
      rcases List.mem_cons.mp member with rfl | later
      · obtain ⟨out, same⟩ := ends e failed
        refine ⟨same, ?_⟩
        rw [out, List.append_eq_nil_iff] at parts
        show (R.read s room).1.1 ++ items (R.reads rooms (R.read s room).2).1 = _
        rw [parts.1, List.append_nil, ← next, out, List.append_nil]
      · obtain ⟨same, all⟩ := errors result later e failed
        refine ⟨same.trans (law.same s room), ?_⟩
        show (R.read s room).1.1 ++ items (R.reads rooms (R.read s room).2).1 = _
        rw [all, next]

/-- A read with room gets something done, as long as there is no error. -/
theorem Streams.advances (law : R.Streams rest ending) {s : σ} {room : Nat} (open_ : 0 < room)
    (fine : (R.read s room).1.2 = none) :
    R.work (R.read s room).2 + (rest (R.read s room).2).length <
      R.work s + (rest s).length := by
  have lengths := congrArg List.length (law.next s room)
  rw [List.length_append] at lengths
  have steady := law.steady s room
  rcases law.progress s room fine with full | less <;> omega

/-- Enough reads with room for something come to the end of the stream. -/
theorem Streams.reads_end (law : R.Streams rest ending) {rooms : List Nat}
    (open_ : ∀ room ∈ rooms, 0 < room) {s : σ}
    (enough : R.work s + (rest s).length < rooms.length) :
    items (R.reads rooms s).1 = rest s ∧
      ∃ result ∈ (R.reads rooms s).1, result.2 = some (ending s) := by
  have found : ∃ result ∈ (R.reads rooms s).1, ∃ e, result.2 = some e := by
    induction rooms generalizing s with
    | nil => exact absurd enough (Nat.not_lt_zero _)
    | cons room rooms induction =>
        cases outcome : (R.read s room).1.2 with
        | some e => exact ⟨(R.read s room).1, List.mem_cons_self, e, outcome⟩
        | none =>
            have less := law.advances (open_ room List.mem_cons_self) outcome
            rw [List.length_cons] at enough
            obtain ⟨result, member, failed⟩ :=
              @induction (fun room later => open_ room (List.mem_cons_of_mem _ later))
                (R.read s room).2 (by omega)
            exact ⟨result, List.mem_cons_of_mem _ member, failed⟩
  obtain ⟨result, member, e, failed⟩ := found
  obtain ⟨rfl, all⟩ := (law.reads_spec rooms s).2 result member e failed
  exact ⟨all, result, member, failed⟩

end Reader

end Veil.Lib

import Mathlib.Data.List.Count
import Mathlib.Logic.Function.Basic

/-!
# The life of a receive block

What the receive blocks of `internal/mux` are for, without their contents: a
block is taken from the caches for one frame, is given to a stream or kept by
the reader, is filled, and goes back.  The stage of a block says who owns it.
The moves of one block are listed once, with the calls each of them makes, and
any order in which the blocks of all sessions move is a run.

From the moves alone it follows that taking and returning alternate for every
block, and that a block queued on a stream stays with this stream, or with the
reader that fills it, until it is returned.
-/

namespace Veil.Mux.Chunks

/-- The address of a block; every `&chunk{}` gives a new one. -/
abbrev Ref := Nat

/-- Who owns a block.  Sessions are named by `ι`, streams by their identifiers. -/
inductive Stage (ι : Type*) where
  /-- Not allocated, or let go of by its cache. -/
  | absent
  /-- Taken by the reader of a session, for a frame it has not placed yet. -/
  | taken (i : ι)
  /-- In the queue of a stream; until it is complete the reader fills it. -/
  | queued (i : ι) (k : Nat) (complete : Bool)
  /-- Discarded, and with the reader; it may have left the queue of a stream. -/
  | dropped (i : ι) (left : Option Nat) (complete : Bool)
  /-- In the cache of its size. -/
  | cached (size : Nat)
  deriving DecidableEq

/-- The places a block can be in. -/
inductive Place (ι : Type*) where
  | reader (i : ι)
  | queue (i : ι) (k : Nat)
  | cache (size : Nat)
  deriving DecidableEq

/-- The calls on blocks, in the order they are made. -/
inductive Entry (ι : Type*) where
  | take (r : Ref)
  /-- A block is appended to the queue of a stream. -/
  | queue (i : ι) (k : Nat) (r : Ref)
  | put (r : Ref)
  deriving DecidableEq

namespace Stage

variable {ι : Type*}

def place : Stage ι → Option (Place ι)
  | absent => none
  | taken i | dropped i _ _ => some (.reader i)
  | queued i k _ => some (.queue i k)
  | cached size => some (.cache size)

/-- Taken and not yet returned. -/
def out : Stage ι → Bool
  | taken _ | queued _ _ _ | dropped _ _ _ => true
  | absent | cached _ => false

/-- In the queue of the stream, or with the reader after it has left this queue. -/
def Traces (i : ι) (k : Nat) : Stage ι → Prop
  | queued j l _ => j = i ∧ l = k
  | dropped j left _ => j = i ∧ left = some k
  | _ => False

/-- The moves of the block `r`, each with the calls it makes. -/
inductive Move (r : Ref) : Stage ι → Stage ι → List (Entry ι) → Prop where
  | make (i : ι) : Move r absent (taken i) [.take r]
  | reuse (i : ι) (size : Nat) : Move r (cached size) (taken i) [.take r]
  | queue (i : ι) (k : Nat) : Move r (taken i) (queued i k false) [.queue i k r]
  /-- The frame is for a stream that has ended. -/
  | refuse (i : ι) : Move r (taken i) (dropped i none false) []
  | fill (i : ι) (k : Nat) : Move r (queued i k false) (queued i k true) []
  | waste (i : ι) (left : Option Nat) :
      Move r (dropped i left false) (dropped i left true) []
  /-- The stream is closed while the reader still fills the block. -/
  | drop (i : ι) (k : Nat) : Move r (queued i k false) (dropped i (some k) false) []
  | put (i : ι) (k size : Nat) : Move r (queued i k true) (cached size) [.put r]
  | giveBack (i : ι) (left : Option Nat) (size : Nat) :
      Move r (dropped i left true) (cached size) [.put r]
  | evict (size : Nat) : Move r (cached size) absent []

end Stage

variable {ι : Type*}

/-- The stages and calls reached when blocks move in any order. -/
inductive Lived : (Ref → Stage ι) → List (Entry ι) → Prop where
  | start : Lived (fun _ => .absent) []
  | move {stage : Ref → Stage ι} {calls made : List (Entry ι)} {r : Ref} {next : Stage ι}
      (before : Lived stage calls) (moved : Stage.Move r (stage r) next made) :
      Lived (Function.update stage r next) (calls ++ made)

/-- At most one block moves, and makes its calls. -/
inductive Advance (stage : Ref → Stage ι) (calls : List (Entry ι)) :
    (Ref → Stage ι) → List (Entry ι) → Prop where
  | stay : Advance stage calls stage calls
  | move {r : Ref} {next : Stage ι} {made : List (Entry ι)}
      (moved : Stage.Move r (stage r) next made) :
      Advance stage calls (Function.update stage r next) (calls ++ made)

/-- A call in a history that has grown by at most one call is the new one, or an old one. -/
theorem split_more {history made pre post : List (Entry ι)} {e : Entry ι}
    (short : made.length ≤ 1) (split : history ++ made = pre ++ e :: post) :
    (made = [e] ∧ pre = history ∧ post = []) ∨
      ∃ old, history = pre ++ e :: old ∧ post = old ++ made := by
  rcases List.append_eq_append_iff.mp split with
    ⟨between, before, after⟩ | ⟨between, before, after⟩
  · rw [after, List.length_append, List.length_cons] at short
    have nothing : between = [] ∧ post = [] := by
      constructor <;> apply List.eq_nil_of_length_eq_zero <;> omega
    rw [nothing.1, nothing.2] at after
    exact .inl ⟨after, by simpa [nothing.1] using before, nothing.2⟩
  · cases between with
    | nil =>
        rw [List.nil_append] at after
        rw [← after, List.length_cons] at short
        have nothing : post = [] := List.eq_nil_of_length_eq_zero (by omega)
        exact .inl ⟨by rw [← after, nothing], by simpa using before.symm, nothing⟩
    | cons first old =>
        rw [List.cons_append, List.cons.injEq] at after
        exact .inr ⟨old, by rw [before, after.1], after.2⟩

namespace Stage.Move

variable {r : Ref} {stage next : Stage ι} {made : List (Entry ι)}

/-- Every move makes one call at most, and only on its own block. -/
theorem made_cases (moved : Stage.Move r stage next made) :
    made = [] ∨ made = [.take r] ∨ made = [.put r] ∨ ∃ i k, made = [.queue i k r] := by
  cases moved <;> simp

theorem short (moved : Stage.Move r stage next made) : made.length ≤ 1 := by
  cases moved <;> simp

/-- Only a block that is not out is taken. -/
theorem of_take {s : Ref} (moved : Stage.Move r stage next [.take s]) :
    s = r ∧ stage.out = false := by
  cases moved <;> exact ⟨rfl, rfl⟩

/-- Only a block that is out is returned. -/
theorem of_put {s : Ref} (moved : Stage.Move r stage next [.put s]) :
    s = r ∧ stage.out = true := by
  cases moved <;> exact ⟨rfl, rfl⟩

/-- A block that is returned is complete, and goes into a cache. -/
theorem returned {s : Ref} (moved : Stage.Move r stage next [.put s]) :
    s = r ∧ (∃ size, next = .cached size) ∧
      ((∃ i k, stage = .queued i k true) ∨ ∃ i left, stage = .dropped i left true) := by
  cases moved with
  | put i k size => exact ⟨rfl, ⟨size, rfl⟩, .inl ⟨i, k, rfl⟩⟩
  | giveBack i left size => exact ⟨rfl, ⟨size, rfl⟩, .inr ⟨i, left, rfl⟩⟩

theorem of_queue {s : Ref} {i : ι} {k : Nat} (moved : Stage.Move r stage next [.queue i k s]) :
    s = r ∧ next.Traces i k := by
  cases moved
  exact ⟨rfl, rfl, rfl⟩

/-- A block leaves a queue and the reader behind it only by being returned. -/
theorem traces {i : ι} {k : Nat} (moved : Stage.Move r stage next made)
    (before : stage.Traces i k) : .put r ∈ made ∨ next.Traces i k := by
  cases moved with
  | make | reuse | queue | refuse | evict => cases before
  | fill | waste => exact .inr before
  | drop => exact .inr ⟨before.1, congrArg some before.2⟩
  | put | giveBack => exact .inl List.mem_cons_self

end Stage.Move

/-- One block moves when a block is returned. -/
theorem Advance.returned {stage stage' : Ref → Stage ι} {calls calls' : List (Entry ι)} {r : Ref}
    (advanced : Advance stage calls stage' calls') (grown : calls' = calls ++ [.put r]) :
    (∃ size, stage' r = .cached size) ∧
      ((∃ i k, stage r = .queued i k true) ∨ ∃ i left, stage r = .dropped i left true) := by
  cases advanced with
  | stay => simp at grown
  | move moved =>
      rw [List.append_cancel_left grown] at moved
      rcases moved.returned with ⟨rfl, cached, was⟩
      exact ⟨by simpa using cached, was⟩

namespace Lived

theorem advance {stage stage' : Ref → Stage ι} {calls calls' : List (Entry ι)}
    (lived : Lived stage calls) (advanced : Advance stage calls stage' calls') :
    Lived stage' calls' := by
  cases advanced with
  | stay => exact lived
  | move moved => exact lived.move moved

variable {stage : Ref → Stage ι} {calls : List (Entry ι)}

section Counted

variable [DecidableEq ι]

/-- A block is out exactly when it has been taken once more than returned. -/
theorem balanced (lived : Lived stage calls) (r : Ref) :
    calls.count (.take r) =
      calls.count (.put r) + if (stage r).out = true then 1 else 0 := by
  induction lived with
  | start => simp [Stage.out]
  | @move stage calls made s next _ moved before =>
      by_cases own : r = s
      · subst own
        rw [Function.update_self]
        generalize stage r = now at moved before
        cases moved <;> simp_all [Stage.out]
      · rw [Function.update_of_ne own]
        rcases moved.made_cases with rfl | rfl | rfl | ⟨i, k, rfl⟩ <;>
          simpa [List.count_append, List.count_singleton, Ne.symm own] using before

/-- Taking and returning alternate: a block is taken when it is not out. -/
theorem take_back (lived : Lived stage calls) {pre post : List (Entry ι)} {r : Ref}
    (split : calls = pre ++ .take r :: post) : pre.count (.take r) = pre.count (.put r) := by
  induction lived generalizing post with
  | start => simp at split
  | move before moved induction =>
      rcases split_more moved.short split with ⟨rfl, rfl, -⟩ | ⟨old, past, -⟩
      · rcases moved.of_take with ⟨rfl, back⟩
        simpa [back] using before.balanced r
      · exact induction past

/-- Taking and returning alternate: a block is returned once for each time it is taken. -/
theorem put_once (lived : Lived stage calls) {pre post : List (Entry ι)} {r : Ref}
    (split : calls = pre ++ .put r :: post) :
    pre.count (.take r) = pre.count (.put r) + 1 := by
  induction lived generalizing post with
  | start => simp at split
  | move before moved induction =>
      rcases split_more moved.short split with ⟨rfl, rfl, -⟩ | ⟨old, past, -⟩
      · rcases moved.of_put with ⟨rfl, out⟩
        simpa [out] using before.balanced r
      · exact induction past

end Counted

/-- A block queued on a stream has been returned, or is still there or with the reader. -/
theorem returned_or_traces (lived : Lived stage calls) {pre post : List (Entry ι)} {i : ι}
    {k : Nat} {r : Ref} (split : calls = pre ++ .queue i k r :: post) :
    .put r ∈ post ∨ (stage r).Traces i k := by
  induction lived generalizing post with
  | start => simp at split
  | @move stage calls made s next _ moved induction =>
      rcases split_more moved.short split with ⟨rfl, rfl, -⟩ | ⟨old, past, rfl⟩
      · rcases moved.of_queue with ⟨rfl, traces⟩
        exact .inr (by simpa using traces)
      · rcases induction past with returned | traces
        · exact .inl (List.mem_append_left _ returned)
        by_cases own : r = s
        · subst own
          rw [Function.update_self]
          exact (moved.traces traces).imp_left (List.mem_append_right _)
        · rw [Function.update_of_ne own]
          exact .inr traces

end Lived

end Veil.Mux.Chunks

import Mathlib.Order.Lattice
import Mathlib.Data.List.Pairwise

/-!
# Turns in cyclic order

A server that goes around its clients in the order of their names, always on
from the last one it has served, is fair: between two turns of one client every
client that stays ready gets a turn.  Nothing is assumed of the clients that
come and go meanwhile.

`Rotates` says of a sequence of turns that none passes a client that is ready.
-/

namespace Veil.Lib

variable {α τ : Type*} [LinearOrder α]

/-- Going up from `x`, and from the top on from the bottom, `j` comes before `k`. -/
def Ahead (x j k : α) : Prop :=
  if x < k then x < j ∧ j < k else x < j ∨ j < k

namespace Ahead

variable {x i j k : α}

theorem irrefl (x k : α) : ¬ Ahead x k k := by
  unfold Ahead
  split_ifs <;> grind

theorem asymm (first : Ahead x j k) : ¬ Ahead x k j := by
  unfold Ahead at *
  split_ifs at * <;> grind

/-- Where one starts comes last. -/
theorem last (different : j ≠ x) : Ahead x j x := by
  unfold Ahead
  split_ifs <;> grind

/-- Starting from `k` instead, what came after it comes before what came before it. -/
theorem swap (first : Ahead x i k) (second : Ahead x k j) : Ahead k j i := by
  unfold Ahead at *
  split_ifs at * <;> grind

theorem later (first : Ahead x k i) (second : Ahead x i j) : Ahead k i j := by
  unfold Ahead at *
  split_ifs at * <;> grind

theorem earlier (first : Ahead x i j) (second : Ahead x j k) : Ahead k i j := by
  unfold Ahead at *
  split_ifs at * <;> grind

theorem ne (first : Ahead x i j) : i ≠ j := by
  rintro rfl
  exact irrefl x i first

/-- A turn that does not pass `j` stays on the way there. -/
theorem onward {a : α} (onWay : x = a ∨ Ahead a x j) (keeps : ¬ Ahead x j k)
    (other : k ≠ j) (apart : a ≠ j) : k ≠ a ∧ Ahead a k j := by
  have both : a ≠ j ∧ k ≠ j := ⟨apart, other⟩
  unfold Ahead at *
  split_ifs at * <;> grind

end Ahead

/-! ## Lists in cyclic order -/

/-- An increasing list, cut behind `x` and put together the other way round. -/
theorem pairwise_ahead {x : α} {low high : List α}
    (increasing : (low ++ high).Pairwise (· < ·)) (below : ∀ a ∈ low, a ≤ x)
    (above : ∀ b ∈ high, x < b) : (high ++ low).Pairwise (Ahead x) := by
  rw [List.pairwise_append] at increasing ⊢
  obtain ⟨lower, higher, -⟩ := increasing
  refine ⟨?_, ?_, ?_⟩
  · refine higher.imp_of_mem fun {a b} first second less => ?_
    rw [Ahead, if_pos (above b second)]
    exact ⟨above a first, less⟩
  · refine lower.imp_of_mem fun {a b} first second less => ?_
    rw [Ahead, if_neg (below b second).not_gt]
    exact .inr less
  · intro a first b second
    rw [Ahead, if_neg (below b second).not_gt]
    exact .inl (above a first)

/-- A list in cyclic order can be started behind any of its members. -/
theorem pairwise_rebase {x k : α} {before after : List α}
    (ordered : (before ++ k :: after).Pairwise (Ahead x)) :
    (after ++ (before ++ [k])).Pairwise (Ahead k) := by
  simp only [List.pairwise_append, List.pairwise_cons, List.mem_cons] at ordered
  obtain ⟨early, ⟨next, late⟩, across⟩ := ordered
  simp only [List.pairwise_append, List.mem_append, List.mem_singleton]
  refine ⟨?_, ⟨?_, List.pairwise_singleton _ _, ?_⟩, ?_⟩
  · exact late.imp_of_mem fun first _ ahead => (next _ first).later ahead
  · exact early.imp_of_mem fun _ second ahead => ahead.earlier (across _ second k (.inl rfl))
  · rintro a member _ rfl
    exact Ahead.last (across a member _ (.inl rfl)).ne
  · rintro a member b (old | rfl)
    · exact (across b old k (.inl rfl)).swap (next a member)
    · exact Ahead.last (next a member).ne.symm

/-! ## Turns -/

/--
Each turn is taken by `who`, while `ready` holds of those who could have taken
it, and it passes none of them on the way from the turn before.  The cursors are
those who took the turns before the first one and at the end, if any.
-/
inductive Rotates (who : τ → α) (ready : τ → α → Prop) :
    Option α → List τ → Option α → Prop where
  | nil (cursor : Option α) : Rotates who ready cursor [] cursor
  | cons {cursor last : Option α} {turn : τ} {rest : List τ}
      (keeps : ∀ x, cursor = some x → ∀ j, ready turn j → ¬ Ahead x j (who turn))
      (later : Rotates who ready (some (who turn)) rest last) :
      Rotates who ready cursor (turn :: rest) last

namespace Rotates

variable {who : τ → α} {ready : τ → α → Prop}

theorem append {first middle last : Option α} {xs ys : List τ}
    (before : Rotates who ready first xs middle) (after : Rotates who ready middle ys last) :
    Rotates who ready first (xs ++ ys) last := by
  induction before with
  | nil => exact after
  | cons keeps _ induction => exact .cons keeps (induction after)

theorem of_append {first last : Option α} {xs ys : List τ}
    (turns : Rotates who ready first (xs ++ ys) last) :
    ∃ middle, Rotates who ready middle ys last := by
  induction xs generalizing first with
  | nil => exact ⟨first, turns⟩
  | cons turn xs induction =>
      cases turns with
      | cons _ later => exact induction later

/-- On the way from `a`, whoever is ready all the time gets a turn before `a` does again. -/
theorem reaches {a b x : α} {last : Option α} {middle after : List τ} {second : τ}
    (turns : Rotates who ready (some x) (middle ++ second :: after) last)
    (onWay : x = a ∨ Ahead a x b) (apart : a ≠ b) (again : who second = a)
    (stays : ∀ turn ∈ middle ++ [second], ready turn b) : ∃ turn ∈ middle, who turn = b := by
  induction middle generalizing x with
  | nil =>
      cases turns with
      | cons keeps _ =>
          have kept := keeps x rfl b (stays second (by simp))
          have other : who second ≠ b := fun same => apart (again.symm.trans same)
          exact ((Ahead.onward onWay kept other apart).1 again).elim
  | cons turn rest induction =>
      cases turns with
      | cons keeps later =>
          by_cases served : who turn = b
          · exact ⟨turn, List.mem_cons_self, served⟩
          have kept := keeps x rfl b (stays turn (by simp))
          have still := (Ahead.onward onWay kept served apart).2
          obtain ⟨other, member, found⟩ := induction later (.inr still)
            fun turn member => stays turn (List.mem_cons_of_mem _ member)
          exact ⟨other, List.mem_cons_of_mem _ member, found⟩

/-- Between two turns of `a`, whoever is ready all the time gets one. -/
theorem fair {a b : α} {cursor last : Option α} {before middle after : List τ}
    {first second : τ}
    (turns : Rotates who ready cursor (before ++ first :: middle ++ second :: after) last)
    (apart : a ≠ b) (once : who first = a) (again : who second = a)
    (stays : ∀ turn ∈ middle ++ [second], ready turn b) : ∃ turn ∈ middle, who turn = b := by
  rw [List.append_assoc, List.cons_append] at turns
  obtain ⟨_, rest⟩ := turns.of_append
  cases rest with
  | cons _ later => exact later.reaches (.inl once) apart again stays

end Rotates

end Veil.Lib

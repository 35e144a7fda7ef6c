import Mathlib.Data.Set.Basic

/-!
# Loops that stop at a failure

A loop goes through a list and stops after the first element that fails.
Which elements it reaches can depend on the order of the list.  It does not
matter exactly when no element fails beside another one that counts.
-/

namespace Veil.Lib

universe u

variable {α : Type u} {fails : α → Bool}

/-- The elements that are reached, the first that fails included. -/
def reached (fails : α → Bool) : List α → List α
  | [] => []
  | a :: rest => if fails a then [a] else a :: reached fails rest

theorem reached_of_fails {a : α} {rest : List α} (failing : fails a = true) :
    reached fails (a :: rest) = [a] := by
  rw [reached, if_pos failing]

theorem reached_of_works {a : α} {rest : List α} (works : fails a = false) :
    reached fails (a :: rest) = a :: reached fails rest := by
  rw [reached, works]
  rfl

theorem mem_of_mem_reached {a : α} {list : List α}
    (member : a ∈ reached fails list) : a ∈ list := by
  induction list with
  | nil => exact member
  | cons b rest ih =>
      unfold reached at member
      split_ifs at member
      · rw [List.mem_singleton] at member
        rw [member]
        exact List.mem_cons_self
      · rcases List.mem_cons.mp member with rfl | later
        · exact List.mem_cons_self
        · exact List.mem_cons_of_mem b (ih later)

/-- What is reached depends on what fails in the list. -/
theorem reached_congr {other : α → Bool} {list : List α}
    (same : ∀ a ∈ list, fails a = other a) :
    reached fails list = reached other list := by
  induction list with
  | nil => rfl
  | cons a rest ih =>
      have later := ih fun b member => same b (List.mem_cons_of_mem a member)
      unfold reached
      rw [same a List.mem_cons_self, later]

end Veil.Lib

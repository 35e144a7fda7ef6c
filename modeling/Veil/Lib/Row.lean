import Mathlib.Data.List.ReduceOption

/-!
# Rows of slots

A queue that is read by clearing its first occupied slot is a row: some number
of empty slots and then its entries.  The position of the first entry is known
from elsewhere, so it is a parameter here.
-/

namespace Veil.Lib

variable {α : Type*}

/-- `n` empty slots, and then the entries. -/
def row (n : Nat) (entries : List α) : List (Option α) :=
  List.replicate n none ++ entries.map some

@[simp]
theorem length_row (n : Nat) (entries : List α) :
    (row n entries).length = n + entries.length := by
  simp [row]

@[simp]
theorem row_zero_nil : row 0 ([] : List α) = [] := rfl

@[simp]
theorem row_getElem?_nil (n : Nat) : (row n ([] : List α))[n]? = none := by
  simp [row]

@[simp]
theorem row_getElem?_cons (n : Nat) (a : α) (entries : List α) :
    (row n (a :: entries))[n]? = some (some a) := by
  simp [row]

/-- The slot of the first entry is cleared. -/
@[simp]
theorem row_set (n : Nat) (a : α) (entries : List α) :
    (row n (a :: entries)).set n none = row (n + 1) entries := by
  simp [row, List.replicate_succ']

/-- The empty slots are dropped. -/
@[simp]
theorem row_drop (n : Nat) (entries : List α) : (row n entries).drop n = row 0 entries := by
  simp [row]

theorem row_append (n : Nat) (entries : List α) (a : α) :
    row n entries ++ [some a] = row n (entries ++ [a]) := by
  simp [row]

@[simp]
theorem reduceOption_row (n : Nat) (entries : List α) :
    (row n entries).reduceOption = entries := by
  simp [row, List.reduceOption, List.filterMap_map]

theorem mem_row {n : Nat} {entries : List α} {a : α} :
    some a ∈ row n entries ↔ a ∈ entries := by
  simp [row]

end Veil.Lib

import Mathlib.Data.List.Basic
import Mathlib.Data.List.Infix
import Mathlib.Data.Nat.Digits.Defs
import Mathlib.Tactic.Linarith
import Mathlib.Tactic.Ring

/-!
# Big-endian numbers and self-delimiting codes

Two general facts about bytes on a pipe.  A number below `256 ^ width` is
recovered from its big-endian bytes, and a list of bytes from the number it
spells.  A code is self-delimiting when no continuation of one code word is a
continuation of another one; the items of a concatenation of such words can be
read off from the left, whatever follows.
-/

namespace Veil.Lib

/-! ## Big-endian numbers -/

/-- The last `width` big-endian bytes of a number. -/
def bigEndian : Nat → Nat → List UInt8
  | 0, _ => []
  | width + 1, value => UInt8.ofNat (value / 256 ^ width) :: bigEndian width value

/-- The number spelled by big-endian bytes. -/
def fromBigEndian : List UInt8 → Nat
  | [] => 0
  | byte :: rest => byte.toNat * 256 ^ rest.length + fromBigEndian rest

@[simp]
theorem bigEndian_length (width value : Nat) :
    (bigEndian width value).length = width := by
  induction width with
  | zero => rfl
  | succ width induction => simp [bigEndian, induction]

theorem fromBigEndian_lt (bytes : List UInt8) :
    fromBigEndian bytes < 256 ^ bytes.length := by
  induction bytes with
  | nil => simp [fromBigEndian]
  | cons byte rest induction =>
      have small : byte.toNat < 256 := byte.toNat_lt
      have step : (byte.toNat + 1) * 256 ^ rest.length ≤
          256 * 256 ^ rest.length :=
        Nat.mul_le_mul_right _ small
      rw [fromBigEndian, List.length_cons, pow_succ]
      nlinarith

theorem fromBigEndian_bigEndian (width value : Nat) :
    fromBigEndian (bigEndian width value) = value % 256 ^ width := by
  induction width with
  | zero => simp [bigEndian, fromBigEndian, Nat.mod_one]
  | succ width induction =>
      have split : value % 256 ^ (width + 1) =
          value % 256 ^ width + 256 ^ width * (value / 256 ^ width % 256) := by
        rw [pow_succ]
        exact Nat.mod_mul
      rw [bigEndian, fromBigEndian, induction, bigEndian_length,
        UInt8.toNat_ofNat', split, Nat.add_comm, Nat.mul_comm]

theorem bigEndian_fromBigEndian (bytes : List UInt8) :
    bigEndian bytes.length (fromBigEndian bytes) = bytes := by
  have shift : ∀ (width high low : Nat),
      bigEndian width (high * 256 ^ width + low) = bigEndian width low := by
    intro width
    induction width with
    | zero => intro high low; rfl
    | succ width induction =>
        intro high low
        have regroup : high * 256 ^ (width + 1) = (high * 256) * 256 ^ width := by
          ring
        have head : UInt8.ofNat ((high * 256 ^ (width + 1) + low) / 256 ^ width) =
            UInt8.ofNat (low / 256 ^ width) := by
          apply UInt8.toNat_inj.mp
          rw [UInt8.toNat_ofNat', UInt8.toNat_ofNat', regroup,
            Nat.add_comm, Nat.add_mul_div_right _ _ (by positivity)]
          omega
        rw [bigEndian, bigEndian, head, regroup, induction]
  induction bytes with
  | nil => rfl
  | cons byte rest induction =>
      have low : fromBigEndian rest < 256 ^ rest.length := fromBigEndian_lt rest
      have head : (byte.toNat * 256 ^ rest.length + fromBigEndian rest) /
          256 ^ rest.length = byte.toNat := by
        rw [Nat.add_comm, Nat.add_mul_div_right _ _ (by positivity),
          Nat.div_eq_of_lt low, Nat.zero_add]
      rw [fromBigEndian, List.length_cons, bigEndian, head, shift, induction,
        UInt8.ofNat_toNat]

/-! ## Self-delimiting codes -/

/--
A code on the valid items: a word is never empty, and two words with a common
continuation are words of the same item.
-/
structure SelfDelimiting {φ β : Type*} (valid : φ → Prop) (word : φ → List β) : Prop where
  nonempty : ∀ item, valid item → word item ≠ []
  unique : ∀ first second rest rest', valid first → valid second →
    word first ++ rest = word second ++ rest' → first = second

namespace SelfDelimiting

variable {φ β : Type*} {valid : φ → Prop} {word : φ → List β}

/--
If the words of `items`, followed by anything, spell the words of `all`, then
`items` is an initial part of `all` and the rest spells what remains.
-/
theorem split_words
    (code : SelfDelimiting valid word) {items all : List φ} {rest : List β}
    (validItems : ∀ item ∈ items, valid item)
    (validAll : ∀ item ∈ all, valid item)
    (spelled : all.flatMap word = items.flatMap word ++ rest) :
    ∃ remaining, all = items ++ remaining ∧ rest = remaining.flatMap word := by
  induction items generalizing all with
  | nil => exact ⟨all, rfl, by simpa using spelled.symm⟩
  | cons item items induction =>
      have validItem := validItems item (by simp)
      cases all with
      | nil =>
          have empty : word item = [] := by
            simp only [List.flatMap_nil, List.flatMap_cons, List.append_assoc,
              List.nil_eq, List.append_eq_nil_iff] at spelled
            exact spelled.1
          exact (code.nonempty item validItem empty).elim
      | cons other others =>
          simp only [List.flatMap_cons, List.append_assoc] at spelled
          have same : other = item :=
            code.unique _ _ _ _ (validAll other (by simp)) validItem spelled
          subst other
          rcases induction (fun i member => validItems i (by simp [member]))
              (fun i member => validAll i (by simp [member]))
              (List.append_cancel_left spelled) with ⟨remaining, rfl, equal⟩
          exact ⟨remaining, rfl, equal⟩

end SelfDelimiting

end Veil.Lib

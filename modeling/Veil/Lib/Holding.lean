import Mathlib.Data.List.Nodup
import Mathlib.Data.List.Perm.Basic
import Mathlib.Logic.Function.Basic

/-!
# Resources in places

Places hold lists of resources, and an assignment says in which place each
resource is, or that it is in none.  The two agree when every list contains
what is assigned to its place, once, and nothing else.  A resource then is in
one place at most, and it can be let in, let out or moved by changing the lists
of the places concerned; all other lists stay as they are.

Lists are compared up to order, so a place may be a queue, a stack or a bag.
-/

namespace Veil.Lib

variable {P R : Type*} [DecidableEq P] [DecidableEq R]
variable {held held' : P → List R} {place : R → Option P} {p q : P} {r s : R}

/-- What each place holds is what is assigned to it, once. -/
def Assigned (held : P → List R) (place : R → Option P) : Prop :=
  ∀ p r, (held p).count r = if place r = some p then 1 else 0

/-- One place holds the resource, once, and no other place holds it. -/
def HeldOnlyIn (held : P → List R) (r : R) (p : P) : Prop :=
  ∀ q, (held q).count r = if q = p then 1 else 0

namespace Assigned

theorem mem_iff (assigned : Assigned held place) :
    r ∈ held p ↔ place r = some p := by
  rw [← List.count_pos_iff, assigned p r]
  split_ifs with here <;> simp [here]

theorem heldOnlyIn (assigned : Assigned held place) (here : place r = some p) :
    HeldOnlyIn held r p := by
  intro q
  rw [assigned q r, here]
  simp only [Option.some.injEq, eq_comm]

/-- Two places do not share a resource. -/
theorem apart (assigned : Assigned held place) (first : r ∈ held p) (different : p ≠ q) :
    r ∉ held q := by
  intro second
  have one := assigned.mem_iff.mp first
  have other := assigned.mem_iff.mp second
  exact different (Option.some.inj (one.symm.trans other))

theorem nodup (assigned : Assigned held place) (p : P) : (held p).Nodup := by
  rw [List.nodup_iff_count_le_one]
  intro r
  rw [assigned p r]
  split_ifs <;> simp

theorem absent (assigned : Assigned held place) (nowhere : place r = none) (p : P) :
    r ∉ held p := by
  rw [assigned.mem_iff, nowhere]
  exact nofun

/-- A resource changes, but stays where it is. -/
theorem still (assigned : Assigned held place) {there : Option P} (here : there = place r)
    (same : ∀ o, held' o = held o) : Assigned held' (Function.update place r there) := by
  rw [here, Function.update_eq_self, funext same]
  exact assigned

/-- A resource that was nowhere is let into one place. -/
theorem enter (assigned : Assigned held place) (nowhere : place r = none)
    (gained : (held' q).Perm (r :: held q)) (frame : ∀ o, o ≠ q → held' o = held o) :
    Assigned held' (Function.update place r (some q)) := by
  intro o s
  have before := assigned o s
  by_cases own : o = q
  · subst own
    rw [gained.count_eq, List.count_cons, before]
    by_cases same : s = r
    · subst same
      simp [nowhere]
    · simp [same, Ne.symm same]
  · rw [frame o own, before]
    by_cases same : s = r
    · subst same
      simp [nowhere, Ne.symm own]
    · simp [same]

/-- A resource is let out of the place that holds it. -/
theorem leave (assigned : Assigned held place) (lost : (held p).Perm (r :: held' p))
    (frame : ∀ o, o ≠ p → held' o = held o) :
    Assigned held' (Function.update place r none) := by
  have here : place r = some p := assigned.mem_iff.mp (lost.mem_iff.mpr List.mem_cons_self)
  intro o s
  have before := assigned o s
  by_cases own : o = p
  · subst own
    rw [lost.count_eq, List.count_cons] at before
    by_cases same : s = r
    · subst same
      simpa [here] using before
    · simpa [same, Ne.symm same] using before
  · rw [frame o own, before]
    by_cases same : s = r
    · subst same
      simp [here, Ne.symm own]
    · simp [same]

/-- A resource moves from one place to another. -/
theorem transfer (assigned : Assigned held place) (different : p ≠ q)
    (lost : (held p).Perm (r :: held' p)) (gained : (held' q).Perm (r :: held q))
    (frame : ∀ o, o ≠ p → o ≠ q → held' o = held o) :
    Assigned held' (Function.update place r (some q)) := by
  have out : Assigned (Function.update held p (held' p)) (Function.update place r none) := by
    apply assigned.leave (p := p)
    · simpa using lost
    · intro o other
      exact Function.update_of_ne other _ _
  have moved : Assigned held' (Function.update (Function.update place r none) r (some q)) :=
    out.enter (Function.update_self r none place) ?_ ?_
  · rwa [Function.update_idem] at moved
  · rwa [Function.update_of_ne different.symm]
  · intro o other
    by_cases own : o = p
    · subst own
      exact (Function.update_self o _ held).symm
    · rw [Function.update_of_ne own]
      exact frame o own other

end Assigned

end Veil.Lib

import Veil.Lib.Machine
import Veil.Proxy.Controller

/-!
# Processes over one journal

The desktop's settings and the journal outlive the processes that change them.
Writes and journal saves succeed and are atomic; a process may end between any
two steps of an operation, and other applications may change the settings
between operations.
-/

namespace Veil.Proxy

open Lib

/-- Who wrote the settings in place.  A chain of applies remembers the settings
from before its first. -/
inductive Writer (κ : Type) where
  | other
  | applied (original : Snapshot κ)
  | undone

structure World (κ : Type) where
  settings : Snapshot κ
  journal : Option Text
  writer : Writer κ

namespace World

variable {κ : Type}

def wrote (w : World κ) : Purpose → Writer κ
  | .apply =>
      match w.writer with
      | .applied original => .applied original
      | _ => .applied w.settings
  | _ => .undone

/-- An apply owns what it writes. -/
theorem wrote_apply (w : World κ) :
    ∃ original, w.wrote .apply = .applied original ∧
      (w.writer = .applied original ∨
        original = w.settings ∧ ∀ first, w.writer ≠ .applied first) := by
  cases writer : w.writer with
  | other => exact ⟨w.settings, by simp [wrote, writer], by simp⟩
  | applied original => exact ⟨original, by simp [wrote, writer], by simp⟩
  | undone => exact ⟨w.settings, by simp [wrote, writer], by simp⟩

@[simp]
theorem wrote_journal (w : World κ) (journal : Option Text)
    (purpose : Purpose) :
    ({ w with journal := journal } : World κ).wrote purpose =
      w.wrote purpose := by
  cases purpose <;> rfl

/-- Steps that succeed. -/
def handle (_ : Unit) (w : World κ) :
    (effect : Effect κ) → World κ × effect.Answer
  | .load => (w, some w.journal)
  | .read => (w, some w.settings)
  | .write purpose settings =>
      ({ w with settings := settings, writer := w.wrote purpose }, true)
  | .save content => ({ w with journal := some content }, true)

end World

/-- A call of the controller. -/
inductive Call where
  | setMode (mode endpoint : Text)
  | apply (endpoint : Text)
  | restore
  | clear
  | selectConnection (id : Text)

inductive Event (κ : Type) where
  /-- `Open` by a new process, for so many steps. -/
  | start (steps : Nat)
  | call (call : Call) (steps : Nat)
  | exit
  | change (settings : Snapshot κ)

structure State (κ : Type) where
  world : World κ
  memory : Option (Controller κ)

variable {κ : Type} [Keys κ] [Fintype κ]
  (native : Option (Backend κ))

def Call.program (c : Controller κ) : Call → Action κ (Outcome κ)
  | .setMode mode endpoint => c.setMode native mode endpoint
  | .apply endpoint => c.applyNow native endpoint
  | .restore => c.restoreNow native
  | .clear => c.clear native
  | .selectConnection id => c.selectConnection id

/-- A run of so many steps. -/
def World.runFor {α : Type} (w : World κ) (steps : Nat)
    (program : Action κ α) : World κ × Except (Effect κ) α :=
  program.run World.handle (List.replicate steps ()) w

def step (s : State κ) : Event κ → Option (State κ)
  | .start steps =>
      match s.memory with
      | some _ => none
      | none =>
          match s.world.runFor steps (openController native) with
          | (w, .ok (.ok c)) => some ⟨w, some c⟩
          | (w, _) => some ⟨w, none⟩
  | .call call steps =>
      match s.memory with
      | none => none
      | some c =>
          match s.world.runFor steps (call.program native c) with
          | (w, .ok (c, _)) => some ⟨w, some c⟩
          | (w, .error _) => some ⟨w, none⟩
  | .exit => some { s with memory := none }
  | .change settings =>
      some { s with world := { s.world with settings := settings,
                                             writer := .other } }

/-- Processes and other applications over one journal, absent at first. -/
def desktop : Machine (State κ) (Event κ) where
  start s := s.memory = none ∧ s.world.journal = none ∧ s.world.writer = .other
  step := step native

end Veil.Proxy

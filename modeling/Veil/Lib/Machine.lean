import Mathlib.Logic.Relation

/-!
# Deterministic labelled machines

A machine is a partial step function on states, indexed by actions, together
with its start states.  Every nondeterministic choice (scheduling, the
environment, random draws) is part of the action, so that the step itself can
be evaluated.

A run may be restricted by a predicate on the state before a step and the
action taken there.  The unrestricted runs are the instance where every step
is allowed.
-/

namespace Veil.Lib

/-- A machine: its start states and a partial step for each action. -/
structure Machine (σ : Type*) (α : Type*) where
  start : σ → Prop
  step : σ → α → Option σ

namespace Machine

variable {σ α τ γ : Type*}

/-- The states reached from a start state by steps that all satisfy `ok`. -/
inductive ReachableBy (M : Machine σ α) (ok : σ → α → Prop) : σ → Prop where
  | start {state : σ} (initial : M.start state) : ReachableBy M ok state
  | step {state next : σ} {action : α}
      (before : ReachableBy M ok state)
      (allowed : ok state action)
      (taken : M.step state action = some next) :
      ReachableBy M ok next

/-- The states reached by any run. -/
def Reachable (M : Machine σ α) : σ → Prop :=
  M.ReachableBy fun _ _ => True

/-- A restricted run is a run. -/
theorem ReachableBy.mono
    {M : Machine σ α} {ok wider : σ → α → Prop}
    (widen : ∀ state action, ok state action → wider state action)
    {state : σ} (reached : M.ReachableBy ok state) :
    M.ReachableBy wider state := by
  induction reached with
  | start initial => exact .start initial
  | step _ allowed taken before =>
      exact .step before (widen _ _ allowed) taken

theorem ReachableBy.reachable
    {M : Machine σ α} {ok : σ → α → Prop}
    {state : σ} (reached : M.ReachableBy ok state) :
    M.Reachable state :=
  reached.mono fun _ _ _ => trivial

/--
The invariant rule: what holds in every start state and is preserved by every
allowed step holds in every state reached.
-/
theorem ReachableBy.invariant
    {M : Machine σ α} {ok : σ → α → Prop} {P : σ → Prop}
    (initially : ∀ state, M.start state → P state)
    (preserved : ∀ state action next,
      M.ReachableBy ok state → P state → ok state action →
      M.step state action = some next → P next)
    {state : σ} (reached : M.ReachableBy ok state) :
    P state := by
  induction reached with
  | start initial => exact initially _ initial
  | step before allowed taken held =>
      exact preserved _ _ _ before held allowed taken

/--
Projection of runs: when every step of one machine is a step of another one
on the projected states, or leaves the projection as it is, the projection of
a reached state is reached.
-/
theorem ReachableBy.project
    {M : Machine σ α} {N : Machine τ γ}
    {ok : σ → α → Prop} {okBelow : τ → γ → Prop} (image : σ → τ)
    (initially : ∀ state, M.start state → N.start (image state))
    (matched : ∀ state action next,
      ok state action → M.step state action = some next →
      image next = image state ∨
        ∃ below, okBelow (image state) below ∧
          N.step (image state) below = some (image next))
    {state : σ} (reached : M.ReachableBy ok state) :
    N.ReachableBy okBelow (image state) := by
  induction reached with
  | start initial => exact .start (initially _ initial)
  | step _ allowed taken before =>
      rcases matched _ _ _ allowed taken with same | ⟨below, fine, moved⟩
      · rw [same]
        exact before
      · exact .step before fine moved

/-- Run a list of actions. -/
def run (M : Machine σ α) : σ → List α → Option σ
  | state, [] => some state
  | state, action :: rest => (M.step state action).bind fun next => M.run next rest

theorem run_append (M : Machine σ α) (state : σ) (first second : List α) :
    M.run state (first ++ second) = (M.run state first).bind fun next => M.run next second := by
  induction first generalizing state with
  | nil => rfl
  | cons action rest induction =>
      rw [List.cons_append, run, run, Option.bind_assoc]
      congr 1
      funext next
      exact induction next

/-- Run a list of actions, each allowed in the state it is taken in. -/
def runBy (M : Machine σ α) (ok : σ → α → Prop)
    [∀ state action, Decidable (ok state action)] : σ → List α → Option σ
  | state, [] => some state
  | state, action :: rest =>
      if ok state action then
        (M.step state action).bind fun next => M.runBy ok next rest
      else none

theorem runBy_reachableBy
    {M : Machine σ α} {ok : σ → α → Prop}
    [∀ state action, Decidable (ok state action)]
    {state final : σ} {actions : List α}
    (reached : M.ReachableBy ok state)
    (ran : M.runBy ok state actions = some final) :
    M.ReachableBy ok final := by
  induction actions generalizing state with
  | nil =>
      cases ran
      exact reached
  | cons action rest induction =>
      rw [runBy] at ran
      by_cases allowed : ok state action
      · rw [if_pos allowed, Option.bind_eq_some_iff] at ran
        obtain ⟨next, taken, remaining⟩ := ran
        exact induction (.step reached allowed taken) remaining
      · simp [allowed] at ran

/-- A run that can be evaluated, of actions allowed in any state, ends in a state reached. -/
theorem run_reachableBy
    {M : Machine σ α} {ok : σ → α → Prop} {state final : σ} {actions : List α}
    (fine : ∀ action ∈ actions, ∀ state, ok state action)
    (reached : M.ReachableBy ok state)
    (ran : M.run state actions = some final) :
    M.ReachableBy ok final := by
  induction actions generalizing state with
  | nil =>
      cases ran
      exact reached
  | cons action rest induction =>
      rw [run, Option.bind_eq_some_iff] at ran
      rcases ran with ⟨next, taken, remaining⟩
      exact induction (fun action member => fine action (List.mem_cons_of_mem _ member))
        (.step reached (fine action List.mem_cons_self state) taken) remaining

/-- A run that can be evaluated ends in a reachable state. -/
theorem run_reachable
    {M : Machine σ α} {state final : σ} {actions : List α}
    (reached : M.Reachable state)
    (ran : M.run state actions = some final) :
    M.Reachable final :=
  run_reachableBy (fun _ _ _ => trivial) reached ran

end Machine

end Veil.Lib

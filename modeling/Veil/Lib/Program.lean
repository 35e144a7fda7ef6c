import Mathlib.Logic.Basic

/-!
# Programs that may be cut short

A program asks its environment for effects and goes on with the answers.  The
environment holds a state; with every effect it makes one choice, which decides
the answer and what becomes of the state.  Where the choices end, the program
is cut: the state is as its last effect left it and there is no result.

`Ensures` is the weakest precondition of such a program: a condition for the
states it may be cut in and one for its results.  `ensures_run` connects it to
the runs, `ensures_bind` composes it.
-/

namespace Veil.Lib

/-- A program with effects `ε`, answered as `ρ` says, and results in `α`. -/
inductive Program (ε : Type) (ρ : ε → Type) (α : Type) where
  | done (value : α)
  | ask (effect : ε) (next : ρ effect → Program ε ρ α)

namespace Program

variable {ε σ φ α β : Type} {ρ : ε → Type}

/-- One effect, whose answer is the result. -/
def perform (effect : ε) : Program ε ρ (ρ effect) :=
  .ask effect .done

def bind (program : Program ε ρ α) (next : α → Program ε ρ β) :
    Program ε ρ β :=
  match program with
  | .done value => next value
  | .ask effect more => .ask effect fun answer => (more answer).bind next

instance : Monad (Program ε ρ) where
  pure := .done
  bind := bind

@[simp]
theorem pure_eq (value : α) :
    (pure value : Program ε ρ α) = .done value :=
  rfl

@[simp]
theorem done_bind (value : α) (next : α → Program ε ρ β) :
    (Program.done value >>= next) = next value :=
  rfl

@[simp]
theorem ask_bind (effect : ε) (more : ρ effect → Program ε ρ α)
    (next : α → Program ε ρ β) :
    (Program.ask effect more >>= next) =
      .ask effect fun answer => more answer >>= next :=
  rfl

@[simp]
theorem perform_bind (effect : ε) (next : ρ effect → Program ε ρ β) :
    (perform effect >>= next) = .ask effect next :=
  rfl

variable (handle : φ → σ → (effect : ε) → σ × ρ effect)

/-- The state a program leaves, and its result or the effect it is cut at. -/
def run : List φ → σ → Program ε ρ α → σ × Except ε α
  | _, state, .done value => (state, .ok value)
  | [], state, .ask effect _ => (state, .error effect)
  | choice :: choices, state, .ask effect next =>
      run choices (handle choice state effect).1
        (next (handle choice state effect).2)

/-- The run that always makes the same choice and is not cut. -/
def complete (choice : φ) : σ → Program ε ρ α → σ × α
  | state, .done value => (state, value)
  | state, .ask effect next =>
      complete choice (handle choice state effect).1
        (next (handle choice state effect).2)

/-- Every choice made in a run is one that `ok` allows. -/
def Allowed (ok : σ → ε → φ → Prop) : List φ → σ → Program ε ρ α → Prop
  | _, _, .done _ => True
  | [], _, .ask _ _ => True
  | choice :: choices, state, .ask effect next =>
      ok state effect choice ∧
        Allowed ok choices (handle choice state effect).1
          (next (handle choice state effect).2)

instance decidableAllowed (ok : σ → ε → φ → Prop)
    [∀ state effect choice, Decidable (ok state effect choice)] :
    (choices : List φ) → (state : σ) → (program : Program ε ρ α) →
      Decidable (Allowed handle ok choices state program)
  | [], _, .done _ | _ :: _, _, .done _ | [], _, .ask _ _ => isTrue trivial
  | choice :: choices, state, .ask effect next =>
      @instDecidableAnd _ _ _
        (decidableAllowed ok choices (handle choice state effect).1
          (next (handle choice state effect).2))

/--
Under choices that `ok` allows, `cut` holds wherever the program may be cut,
of the state and the effect that is missing, and `post` of its result.
-/
def Ensures (ok : σ → ε → φ → Prop) (cut : σ → ε → Prop)
    (post : σ → α → Prop) : σ → Program ε ρ α → Prop
  | state, .done value => post state value
  | state, .ask effect next =>
      cut state effect ∧
        ∀ choice, ok state effect choice →
          Ensures ok cut post (handle choice state effect).1
            (next (handle choice state effect).2)

/-- What a program leaves, by its outcome. -/
def Leaves (cut : σ → ε → Prop) (post : σ → α → Prop) :
    σ × Except ε α → Prop
  | (state, .ok value) => post state value
  | (state, .error effect) => cut state effect

variable {handle} {ok : σ → ε → φ → Prop} {cut : σ → ε → Prop}

/-- A run under allowed choices leaves what the program ensures. -/
theorem ensures_run {post : σ → α → Prop} {program : Program ε ρ α}
    {state : σ} {choices : List φ}
    (ensures : Ensures handle ok cut post state program)
    (allowed : Allowed handle ok choices state program) :
    Leaves cut post (run handle choices state program) := by
  induction program generalizing state choices with
  | done value => cases choices <;> exact ensures
  | ask effect next ih =>
      cases choices with
      | nil => exact ensures.1
      | cons choice choices =>
          exact ih _ (ensures.2 choice allowed.1) allowed.2

/-- The uncut run under an allowed choice. -/
theorem ensures_complete {post : σ → α → Prop} {program : Program ε ρ α}
    {state : σ} {choice : φ}
    (ensures : Ensures handle ok cut post state program)
    (allowed : ∀ state effect, ok state effect choice) :
    post (complete handle choice state program).1
      (complete handle choice state program).2 := by
  induction program generalizing state with
  | done value => exact ensures
  | ask effect next ih => exact ih _ (ensures.2 choice (allowed _ _))

theorem Ensures.mono {wider : σ → ε → Prop} {post after : σ → α → Prop}
    {program : Program ε ρ α} {state : σ}
    (ensures : Ensures handle ok cut post state program)
    (widenCut : ∀ state effect, cut state effect → wider state effect)
    (widen : ∀ state value, post state value → after state value) :
    Ensures handle ok wider after state program := by
  induction program generalizing state with
  | done value => exact widen _ _ ensures
  | ask effect next ih =>
      exact ⟨widenCut _ _ ensures.1,
        fun choice allowed => ih _ (ensures.2 choice allowed)⟩

/-- A sequence ensures what its second half ensures after its first. -/
theorem ensures_bind {post : σ → β → Prop} {program : Program ε ρ α}
    {next : α → Program ε ρ β} {state : σ} :
    Ensures handle ok cut post state (program >>= next) ↔
      Ensures handle ok cut
        (fun state value => Ensures handle ok cut post state (next value))
        state program := by
  induction program generalizing state with
  | done value => rfl
  | ask effect more ih =>
      simp only [ask_bind, Ensures, ih]

/-- Every effect a program may ask for satisfies `P`. -/
def Only (P : ε → Prop) : Program ε ρ α → Prop
  | .done _ => True
  | .ask effect next => P effect ∧ ∀ answer, Only P (next answer)

/-- Choices that are all right with every effect asked for are allowed. -/
theorem Only.allowed {P : ε → Prop} {program : Program ε ρ α}
    (only : Only P program)
    (fine : ∀ state effect choice, P effect → ok state effect choice)
    (choices : List φ) (state : σ) :
    Allowed handle ok choices state program := by
  induction program generalizing state choices with
  | done value => cases choices <;> exact trivial
  | ask effect next ih =>
      cases choices with
      | nil => exact trivial
      | cons choice choices =>
          exact ⟨fine _ _ _ only.1, ih _ (only.2 _) _ _⟩

end Program

end Veil.Lib

import Veil.Lib.Machine
import Mathlib.Data.List.Infix

/-!
# Two endpoints joined by a pair of pipes

An endpoint is a machine whose steps may take items from one pipe or put items
into another.  Two endpoints are joined so that what one puts the other takes,
in order and without loss.  An endpoint may find its incoming pipe ended only
when the pipe is empty and the other endpoint has closed.

The one general fact used below is that the items an endpoint has put are the
items its peer has taken followed by those still in the pipe.
-/

namespace Veil.Lib

/-- What one step does on the pipes of its endpoint. -/
inductive Traffic (β : Type*) where
  | quiet
  | take (items : List β) (ended : Bool)
  | put (items : List β)

/-- A machine on a pair of pipes, with the history of what it took and put. -/
structure Endpoint (σ : Type*) (α : Type*) (β : Type*) extends Machine σ α where
  traffic : σ → α → Traffic β
  closed : σ → Bool
  taken : σ → List β
  given : σ → List β

namespace Endpoint

variable {σ α τ γ β : Type*}

/-- The histories record exactly the traffic of each step. -/
structure Lawful (E : Endpoint σ α β) : Prop where
  initially : ∀ state, E.start state → E.taken state = [] ∧ E.given state = []
  recorded : ∀ state action next, E.toMachine.Reachable state →
    E.step state action = some next →
    match E.traffic state action with
    | .quiet => E.taken next = E.taken state ∧ E.given next = E.given state
    | .take items _ =>
        E.taken next = E.taken state ++ items ∧ E.given next = E.given state
    | .put items =>
        E.taken next = E.taken state ∧ E.given next = E.given state ++ items

/-- The joint state of two endpoints and the two pipes between them. -/
structure Joint (σ : Type*) (τ : Type*) (β : Type*) where
  left : σ
  right : τ
  toRight : List β
  toLeft : List β

variable [DecidableEq β]

/-- Serve one step's traffic from the pipe it reads and the pipe it fills. -/
def serve (incoming outgoing : List β) (peerClosed : Bool) :
    Traffic β → Option (List β × List β)
  | .quiet => some (incoming, outgoing)
  | .take items ended =>
      if items <+: incoming ∧
          (ended = true → incoming.drop items.length = [] ∧ peerClosed = true)
      then some (incoming.drop items.length, outgoing)
      else none
  | .put items => some (incoming, outgoing ++ items)

/-- The two endpoints joined by the pipes. -/
def join (L : Endpoint σ α β) (R : Endpoint τ γ β) :
    Machine (Joint σ τ β) (α ⊕ γ) where
  start joint :=
    L.start joint.left ∧ R.start joint.right ∧
      joint.toRight = [] ∧ joint.toLeft = []
  step joint
    | .inl action =>
        match L.step joint.left action,
          serve joint.toLeft joint.toRight (R.closed joint.right)
            (L.traffic joint.left action) with
        | some next, some (incoming, outgoing) =>
            some { joint with left := next, toLeft := incoming, toRight := outgoing }
        | _, _ => none
    | .inr action =>
        match R.step joint.right action,
          serve joint.toRight joint.toLeft (L.closed joint.left)
            (R.traffic joint.right action) with
        | some next, some (incoming, outgoing) =>
            some { joint with right := next, toRight := incoming, toLeft := outgoing }
        | _, _ => none

/-- A restriction of the two endpoints' steps, each on its own side. -/
def bothSides (okLeft : σ → α → Prop) (okRight : τ → γ → Prop)
    (joint : Joint σ τ β) : α ⊕ γ → Prop
  | .inl action => okLeft joint.left action
  | .inr action => okRight joint.right action

/-- Everything one step of the joint machine can do. -/
theorem join_step_cases
    {L : Endpoint σ α β} {R : Endpoint τ γ β}
    {joint next : Joint σ τ β} {action : α ⊕ γ}
    (moved : (join L R).step joint action = some next) :
    (∃ own after incoming outgoing, action = .inl own ∧
      L.step joint.left own = some after ∧
      serve joint.toLeft joint.toRight (R.closed joint.right)
        (L.traffic joint.left own) = some (incoming, outgoing) ∧
      next = ⟨after, joint.right, outgoing, incoming⟩) ∨
    (∃ own after incoming outgoing, action = .inr own ∧
      R.step joint.right own = some after ∧
      serve joint.toRight joint.toLeft (L.closed joint.left)
        (R.traffic joint.right own) = some (incoming, outgoing) ∧
      next = ⟨joint.left, after, incoming, outgoing⟩) := by
  cases action with
  | inl own =>
      simp only [join] at moved
      split at moved
      · next after incoming outgoing stepped served =>
          cases moved
          exact .inl ⟨own, after, incoming, outgoing, rfl, stepped, served, rfl⟩
      · cases moved
  | inr own =>
      simp only [join] at moved
      split at moved
      · next after incoming outgoing stepped served =>
          cases moved
          exact .inr ⟨own, after, incoming, outgoing, rfl, stepped, served, rfl⟩
      · cases moved

/-- The left endpoint of a joint run runs by itself. -/
theorem join_left
    {L : Endpoint σ α β} {R : Endpoint τ γ β}
    {okLeft : σ → α → Prop} {okRight : τ → γ → Prop} {joint : Joint σ τ β}
    (reached : (join L R).ReachableBy (bothSides okLeft okRight) joint) :
    L.toMachine.ReachableBy okLeft joint.left := by
  refine reached.project (M := join L R) (N := L.toMachine) Joint.left
    (fun _ initial => initial.1) ?_
  intro state action next allowed moved
  rcases join_step_cases moved with
    ⟨own, after, _, _, rfl, stepped, _, rfl⟩ | ⟨own, after, _, _, rfl, _, _, rfl⟩
  · exact .inr ⟨own, allowed, stepped⟩
  · exact .inl rfl

/-- The right endpoint of a joint run runs by itself. -/
theorem join_right
    {L : Endpoint σ α β} {R : Endpoint τ γ β}
    {okLeft : σ → α → Prop} {okRight : τ → γ → Prop} {joint : Joint σ τ β}
    (reached : (join L R).ReachableBy (bothSides okLeft okRight) joint) :
    R.toMachine.ReachableBy okRight joint.right := by
  refine reached.project (M := join L R) (N := R.toMachine) Joint.right
    (fun _ initial => initial.2.1) ?_
  intro state action next allowed moved
  rcases join_step_cases moved with
    ⟨own, after, _, _, rfl, _, _, rfl⟩ | ⟨own, after, _, _, rfl, stepped, _, rfl⟩
  · exact .inl rfl
  · exact .inr ⟨own, allowed, stepped⟩

/-- What serving a step does to the two histories it connects. -/
theorem serve_fifo
    {E : Endpoint σ α β} (lawful : E.Lawful)
    {state after : σ} {action : α} {peerClosed : Bool}
    {incoming outgoing incoming' outgoing' peerGiven peerTaken : List β}
    (reached : E.toMachine.Reachable state)
    (stepped : E.step state action = some after)
    (served : serve incoming outgoing peerClosed (E.traffic state action) =
      some (incoming', outgoing'))
    (inward : peerGiven = E.taken state ++ incoming)
    (outward : E.given state = peerTaken ++ outgoing) :
    peerGiven = E.taken after ++ incoming' ∧
      E.given after = peerTaken ++ outgoing' := by
  have law := lawful.recorded state action after reached stepped
  cases traffic : E.traffic state action with
  | quiet =>
      rw [traffic] at law served
      cases served
      rw [law.1, law.2]
      exact ⟨inward, outward⟩
  | take items ended =>
      rw [traffic] at law served
      simp only [serve] at served
      split at served
      · next fits =>
          cases served
          rcases fits.1 with ⟨rest, rfl⟩
          simp only [List.drop_left]
          rw [law.1, law.2, inward, List.append_assoc]
          exact ⟨rfl, outward⟩
      · cases served
  | put items =>
      rw [traffic] at law served
      cases served
      rw [law.1, law.2, outward, List.append_assoc]
      exact ⟨inward, rfl⟩

/--
Each pipe is first in, first out: what an endpoint put is what its peer took
followed by what the pipe still holds.
-/
theorem join_fifo
    {L : Endpoint σ α β} {R : Endpoint τ γ β}
    (lawfulLeft : L.Lawful) (lawfulRight : R.Lawful)
    {joint : Joint σ τ β} (reached : (join L R).Reachable joint) :
    L.given joint.left = R.taken joint.right ++ joint.toRight ∧
      R.given joint.right = L.taken joint.left ++ joint.toLeft := by
  refine reached.invariant
    (P := fun joint =>
      L.given joint.left = R.taken joint.right ++ joint.toRight ∧
        R.given joint.right = L.taken joint.left ++ joint.toLeft) ?_ ?_
  · rintro state ⟨startLeft, startRight, emptyRight, emptyLeft⟩
    rw [(lawfulLeft.initially _ startLeft).1, (lawfulLeft.initially _ startLeft).2,
      (lawfulRight.initially _ startRight).1, (lawfulRight.initially _ startRight).2,
      emptyRight, emptyLeft]
    exact ⟨rfl, rfl⟩
  · intro state action next before held _ moved
    have free : (join L R).ReachableBy (bothSides (fun _ _ => True) fun _ _ => True) state :=
      before.mono fun _ action _ => by cases action <;> trivial
    rcases join_step_cases moved with
      ⟨own, after, incoming, outgoing, rfl, stepped, served, rfl⟩ |
      ⟨own, after, incoming, outgoing, rfl, stepped, served, rfl⟩
    · have kept := serve_fifo lawfulLeft (join_left free) stepped served held.2 held.1
      exact ⟨kept.2, kept.1⟩
    · exact serve_fifo lawfulRight (join_right free) stepped served held.1 held.2

end Endpoint

end Veil.Lib

import Mathlib.Order.Lattice
import Mathlib.Tactic.Ring

/-!
# Attempts that wait after failures

Attempts are made one at a time.  After a failure the next attempt waits, and
the wait doubles with every failure in a row up to a bound.  A success ends the
row; an attempt that is abandoned changes nothing.

A gate keeps the time before which no attempt is made.  Whatever passes the
gate is spaced: no attempt starts within the wait that follows a failure before
it.
-/

namespace Veil.Lib.Backoff

/-! ## Waits -/

/-- The wait after another failure. -/
def next (low high wait : Nat) : Nat :=
  min (max (2 * wait) low) high

/-- The wait after so many failures in a row. -/
def wait (low high : Nat) : Nat → Nat
  | 0 => 0
  | n + 1 => next low high (wait low high n)

/-- The first wait is doubled with every failure and bounded. -/
theorem wait_succ {low high : Nat} (ordered : low ≤ high) (n : Nat) :
    wait low high (n + 1) = min (low * 2 ^ n) high := by
  induction n with
  | zero =>
      simp only [wait, next, pow_zero, mul_one]
      omega
  | succ n ih =>
      have doubled : low * 2 ^ (n + 1) = 2 * (low * 2 ^ n) := by
        ring
      have grows : low ≤ low * 2 ^ n :=
        Nat.le_mul_of_pos_right low (Nat.two_pow_pos n)
      rw [wait, ih, next, doubled]
      omega

/-! ## What has happened -/

/-- What happens to attempts, and when. -/
inductive Event where
  | start (time : Nat)
  | failure (time : Nat)
  | abandoned (time : Nat)
  | success (time : Nat)
  deriving DecidableEq

/-- The failures in a row at the end of a history; the last event is first. -/
def streak : List Event → Nat
  | [] => 0
  | .failure _ :: past => streak past + 1
  | .success _ :: _ => 0
  | _ :: past => streak past

/-- For every failure the time before which no attempt is to start. -/
def bounds (low high : Nat) : List Event → List Nat
  | [] => []
  | .failure time :: past =>
      (time + wait low high (streak past + 1)) :: bounds low high past
  | _ :: past => bounds low high past

/-- No attempt starts within the wait that follows a failure before it. -/
def Spaced (low high : Nat) (history : List Event) : Prop :=
  ∀ later past failed started,
    history = later ++ .failure failed :: past → .start started ∈ later →
    failed + wait low high (streak past + 1) ≤ started

section

variable {low high : Nat}

theorem mem_bounds {later past : List Event} {failed : Nat} :
    failed + wait low high (streak past + 1) ∈
      bounds low high (later ++ .failure failed :: past) := by
  induction later with
  | nil => exact List.mem_cons_self
  | cons event later ih =>
      cases event with
      | failure time => exact List.mem_cons_of_mem _ ih
      | start _ | abandoned _ | success _ => exact ih

theorem spaced_nil : Spaced low high [] := by
  intro later past failed started split
  simp at split

/-- An event that is not a start keeps a history spaced, and so does a start
after all bounds. -/
theorem Spaced.cons {history : List Event} {event : Event}
    (spaced : Spaced low high history)
    (starts : ∀ time, event = .start time →
      ∀ bound ∈ bounds low high history, bound ≤ time) :
    Spaced low high (event :: history) := by
  intro later past failed started split listed
  cases later with
  | nil => simp at listed
  | cons first later =>
      obtain ⟨rfl, rfl⟩ := List.cons.inj split
      rcases List.mem_cons.mp listed with isFirst | earlier
      · exact starts started isFirst.symm _ mem_bounds
      · exact spaced later past failed started rfl earlier

/-! ## The gate -/

/-- What is kept of the history. -/
structure Gate where
  /-- an attempt is being made -/
  busy : Bool := false
  /-- the last attempt that was not abandoned has failed -/
  failing : Bool := false
  retryAt : Nat := 0
  wait : Nat := 0
  deriving DecidableEq

/-- Attempts have to wait. -/
def Gate.Closed (gate : Gate) (now : Nat) : Prop :=
  gate.failing = true ∧ now < gate.retryAt

instance (gate : Gate) (now : Nat) : Decidable (gate.Closed now) :=
  inferInstanceAs (Decidable (_ ∧ _))

/-- What becomes of a gate and a history at some time. -/
inductive Passes (low high now : Nat) :
    Gate → List Event → Gate → List Event → Prop where
  | start {gate : Gate} {history : List Event} (free : gate.busy = false)
      (passed : ¬ gate.Closed now) :
      Passes low high now gate history { gate with busy := true }
        (.start now :: history)
  | failure {gate : Gate} {history : List Event} (jitter : Nat)
      (busy : gate.busy = true) :
      Passes low high now gate history
        { busy := false
          failing := true
          retryAt := now + (next low high gate.wait + jitter)
          wait := next low high gate.wait }
        (.failure now :: history)
  | abandoned {gate : Gate} {history : List Event} :
      Passes low high now gate history { gate with busy := false }
        (.abandoned now :: history)
  | success {gate : Gate} {history : List Event} (busy : gate.busy = true) :
      Passes low high now gate history {} (.success now :: history)

/-- The gate keeps what the history asks for. -/
structure Keeps (low high now : Nat) (gate : Gate) (history : List Event) :
    Prop where
  wait : gate.wait = Backoff.wait low high (streak history)
  bounds : ∀ bound ∈ bounds low high history,
    bound ≤ now ∨ (gate.failing = true ∧ bound ≤ gate.retryAt)
  busy : gate.busy = true → ∀ bound ∈ Backoff.bounds low high history,
    bound ≤ now
  calm : gate.busy = true → ¬ gate.Closed now
  spaced : Spaced low high history

theorem keeps_nil (now : Nat) : Keeps low high now {} [] where
  wait := rfl
  bounds _ listed := by simp [Backoff.bounds] at listed
  busy busy := by simp at busy
  calm busy := by simp at busy
  spaced := spaced_nil

/-- Time passes. -/
theorem Keeps.later {now moment : Nat} {gate : Gate} {history : List Event}
    (keeps : Keeps low high now gate history) (later : now ≤ moment) :
    Keeps low high moment gate history where
  wait := keeps.wait
  bounds bound listed := (keeps.bounds bound listed).imp_left
    fun passed => passed.trans later
  busy busy bound listed := (keeps.busy busy bound listed).trans later
  calm busy closed := keeps.calm busy ⟨closed.1, later.trans_lt closed.2⟩
  spaced := keeps.spaced

/-- Whatever passes the gate, the gate keeps what the history asks for. -/
theorem Keeps.passes {now : Nat} {gate after : Gate}
    {history longer : List Event} (keeps : Keeps low high now gate history)
    (passes : Passes low high now gate history after longer) :
    Keeps low high now after longer := by
  cases passes with
  | start free passed =>
      have all : ∀ bound ∈ Backoff.bounds low high history, bound ≤ now := by
        intro bound listed
        rcases keeps.bounds bound listed with before | ⟨failing, before⟩
        · exact before
        · have reached : gate.retryAt ≤ now := by
            by_contra early
            exact passed ⟨failing, Nat.not_le.mp early⟩
          exact before.trans reached
      constructor
      · exact keeps.wait
      · exact keeps.bounds
      · exact fun _ => all
      · exact fun _ => passed
      · apply keeps.spaced.cons
        rintro time same
        obtain rfl := Event.start.inj same
        exact all
  | failure jitter busy =>
      have longer : next low high gate.wait =
          Backoff.wait low high (streak history + 1) := by
        rw [Backoff.wait, keeps.wait]
      constructor
      · exact longer
      · intro bound listed
        rcases List.mem_cons.mp listed with rfl | before
        · right
          refine ⟨rfl, ?_⟩
          dsimp only
          omega
        · exact .inl (keeps.busy busy bound before)
      · simp
      · simp
      · exact keeps.spaced.cons fun time same => by simp at same
  | abandoned =>
      constructor
      · exact keeps.wait
      · exact keeps.bounds
      · simp
      · simp
      · exact keeps.spaced.cons fun time same => by simp at same
  | success busy =>
      constructor
      · rfl
      · exact fun bound listed => .inl (keeps.busy busy bound listed)
      · simp
      · simp
      · exact keeps.spaced.cons fun time same => by simp at same

/-- Only a success ends a row of failures. -/
theorem streak_passes {now : Nat} {gate after : Gate}
    {history longer : List Event}
    (passes : Passes low high now gate history after longer)
    (shorter : streak longer < streak history) :
    longer = .success now :: history := by
  cases passes with
  | start => simp [streak] at shorter
  | failure => simp [streak] at shorter
  | abandoned => simp [streak] at shorter
  | success => rfl

end

end Veil.Lib.Backoff

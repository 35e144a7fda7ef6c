import Veil.Core.Pool

/-!
# Dials are spaced

The pool is a gate for dials: one caller dials at a time, and a dial that fails
keeps later ones back.  The order of the callers, the ends of their contexts
and the closing of the pool make no difference.  As long as dials are kept
back a caller that finds a lane is given it.
-/

namespace Veil.Core.Dialing

open Lib
open Lib.Backoff (Event Gate Passes Keeps)

/-! ## The gate of a pool -/

/-- What the pool keeps of the history of dials. -/
def Pool.gate (p : Pool) : Gate where
  busy := p.dialing
  failing := p.dialError.isSome
  retryAt := p.retryAt
  wait := p.retryDelay

namespace Pool

@[simp]
theorem gate_notify (p : Pool) : p.notify.gate = p.gate := by
  unfold notify
  split <;> rfl

@[simp]
theorem closed_notify (p : Pool) : p.notify.closed = p.closed := by
  unfold notify
  split <;> rfl

@[simp]
theorem gate_leaveQueue (p : Pool) (g : Nat) :
    (p.leaveQueue g).gate = p.gate := by
  unfold leaveQueue
  split_ifs
  · exact gate_notify _
  · rfl

@[simp]
theorem gate_pushBack (p : Pool) (g : Nat) : (p.pushBack g).gate = p.gate := by
  unfold pushBack
  split_ifs <;> rfl

@[simp]
theorem gate_remove (p : Pool) (gone : Lane → Bool) :
    (p.remove gone).gate = p.gate := by
  unfold remove
  split_ifs
  · exact gate_notify _
  · rfl

/-- The first in the queue has been notified since, or was the first before. -/
def Rouses (p q : Pool) : Prop :=
  ∀ w, q.waiters.head? = some w → w.2 = true ∨ p.waiters.head? = some w

theorem Rouses.refl (p : Pool) : Rouses p p :=
  fun _ first => .inr first

theorem head_notify {p : Pool} {w : Nat × Bool}
    (first : p.notify.waiters.head? = some w) : w.2 = true := by
  unfold notify at first
  cases same : p.waiters with
  | nil => simp [same] at first
  | cons x rest =>
      simp only [same, List.head?_cons, Option.some.injEq] at first
      rw [← first]

theorem rouses_notify (p q : Pool) : Rouses p q.notify :=
  fun _ first => .inl (head_notify first)

theorem rouses_leaveQueue (p : Pool) (g : Nat) : Rouses p (p.leaveQueue g) := by
  unfold leaveQueue
  split_ifs
  · exact rouses_notify p _
  · exact .refl p

theorem rouses_remove (p : Pool) (gone : Lane → Bool) :
    Rouses p (p.remove gone) := by
  unfold remove
  split_ifs
  · exact rouses_notify p _
  · exact .refl p

theorem Rouses.trans {p q r : Pool} (first : Rouses p q) (second : Rouses q r) :
    Rouses p r := by
  intro w isFirst
  rcases second w isFirst with notified | before
  · exact .inl notified
  · exact first w before

theorem cooling_iff (p : Pool) (now : Nat) :
    p.cooling now = true ↔ p.gate.Closed now := by
  unfold cooling Gate.Closed gate
  rw [Bool.and_eq_true, decide_eq_true_eq]

end Pool

namespace State

/-- A caller is in `dial`. -/
def Dials (s : State) (g : Nat) : Prop :=
  ∃ spare, (s.callers g).phase = .dialing spare

theorem callers_go (s : State) (g : Nat) (phase : Phase) (k : Nat) :
    (s.go g phase).callers k =
      if k = g then { s.callers g with phase } else s.callers k := by
  simp only [go, set, Function.update_apply]

end State

/-! ## What a caller does under the lock -/

/-- What becomes of a caller at the top of the loop. -/
inductive Looks (limits : Limits) (s : State) (g : Nat) : State → Prop where
  | refused (problem : Problem) :
      Looks limits s g (s.go g (.leaving (.error problem)))
  | waits (reason : s.pool.front.any (· ≠ g) = true ∨ s.pool.dialing = true) :
      Looks limits s g (s.wait limits g)
  | drops :
      Looks limits s g ({ s with
        pool := (s.pool.remove (Lane.dead limits s.now)).leaveQueue g }.go g
          .top)
  | dials (spare : Bool) (free : s.pool.dialing = false)
      (passed : s.pool.cooling s.now = false) :
      Looks limits s g (s.startDial g spare)
  | serves (lane : Lane) : Looks limits s g (s.serve g lane)

theorem looks_settle (limits : Limits) (s : State) (g : Nat)
    (best : Option Lane) : Looks limits s g (s.settle limits g best) := by
  unfold State.settle
  dsimp only
  split_ifs with cold starts queues
  · exact .refused _
  · simp only [Bool.and_eq_true, Bool.not_eq_true'] at starts
    exact .dials _ starts.2 starts.1.1.2
  · simp only [Bool.and_eq_true] at queues
    exact .waits (.inr queues.1.2)
  · cases best with
    | none => exact .refused _
    | some lane => exact .serves lane

theorem looks_look (limits : Limits) (s : State) (g : Nat) :
    Looks limits s g (s.look limits g) := by
  unfold State.look
  split_ifs with closed other dead
  · exact .refused _
  · exact .waits (.inl other)
  · exact .drops
  · split
    · exact .refused _
    · exact looks_settle limits s g _

/-! ## Dials pass the gate -/

/-- The least and the greatest delay. -/
abbrev low : Nat :=
  100 * millisecond

abbrev Gated (s next : State) : Prop :=
  (next.pool.gate = s.pool.gate ∧ next.history = s.history) ∨
    Passes low second s.now s.pool.gate s.history next.pool.gate next.history

theorem gated_looks {limits : Limits} {s next : State} {g : Nat}
    (looks : Looks limits s g next) : Gated s next := by
  cases looks with
  | refused problem => exact .inl ⟨rfl, rfl⟩
  | waits _ => exact .inl ⟨Pool.gate_pushBack _ _, rfl⟩
  | drops =>
      left
      constructor
      · show ((s.pool.remove _).leaveQueue g).gate = s.pool.gate
        rw [Pool.gate_leaveQueue, Pool.gate_remove]
      · rfl
  | dials spare free passed =>
      right
      have closed : ¬ s.pool.gate.Closed s.now := by
        rw [← Pool.cooling_iff, passed]
        decide
      have starts := @Passes.start low second s.now s.pool.gate s.history free
        closed
      show Passes low second s.now s.pool.gate s.history
        (Pool.leaveQueue _ g).gate _
      rw [Pool.gate_leaveQueue]
      exact starts
  | serves lane => exact .inl ⟨rfl, rfl⟩

theorem gated_of_passes {s next : State} {gate : Gate} {history : List Event}
    (passes : Passes low second s.now s.pool.gate s.history gate history)
    (kept : next.pool.gate = gate) (told : next.history = history) :
    Gated s next := by
  subst kept told
  exact .inr passes

theorem gated_dialFails {s : State} {g : Nat} {spare : Bool} {error : Text}
    {jitter : Nat} (busy : s.pool.dialing = true) :
    Gated s (s.dialFails g spare error jitter) := by
  have free := Pool.gate_notify { s.pool with dialing := false }
  unfold State.dialFails
  dsimp only
  generalize Pool.notify { s.pool with dialing := false } = p at free
  split_ifs with counted
  · apply gated_of_passes (.failure jitter busy)
    · obtain ⟨dialing, _, _, wait⟩ := Gate.mk.inj free
      dsimp only at dialing wait
      simp only [Pool.gate, State.go, State.set, dialing, wait,
        Option.isSome_some, Backoff.next]
    · rfl
  · exact gated_of_passes .abandoned free rfl

theorem gated_dialSucceeds {s : State} {g : Nat}
    (busy : s.pool.dialing = true) : Gated s (s.dialSucceeds g) := by
  have free := Pool.gate_notify { s.pool with dialing := false }
  unfold State.dialSucceeds
  dsimp only
  generalize Pool.notify { s.pool with dialing := false } = p at free
  split_ifs with closed
  · exact gated_of_passes .abandoned free rfl
  · apply gated_of_passes (.success busy)
    · have dialing := (Gate.mk.inj free).1
      dsimp only at dialing
      simp only [Pool.gate, State.go, State.set, dialing, Option.isSome_none]
    · rfl

/-! ## What a step does -/

/-- A caller goes on where it is, or to a place outside of `dial` and of the
queue. -/
def Quiet (before after : Phase) : Prop :=
  after = before ∨ (∀ spare, after ≠ .dialing spare) ∧ after ≠ .waiting

/-- What a step does. -/
inductive Steps (limits : Limits) (s : State) : Action → State → Prop where
  | time {action : Action} (later : Nat) (ordered : s.now ≤ later) :
      Steps limits s action { s with now := later }
  | caller {action : Action} (g : Nat) (f : Caller → Caller)
      (quiet : Quiet (s.callers g).phase (f (s.callers g)).phase) :
      Steps limits s action (s.set g f)
  | pool {action : Action} (p : Pool) (gate : p.gate = s.pool.gate)
      (rouses : s.pool.Rouses p) : Steps limits s action { s with pool := p }
  | wakes {action : Action} (g : Nat) :
      Steps limits s action ({ s with pool := s.pool.received g }.go g .top)
  | returns {action : Action} (g : Nat) (result : Except Problem Nat) :
      Steps limits s action ({ s with pool := s.pool.leaveQueue g }.go g
        (.returned result))
  | looks {action : Action} (g : Nat) {next : State}
      (looks : Looks limits s g next) : Steps limits s action next
  | dialFails (g : Nat) (spare : Bool) (error : Text) (jitter : Nat)
      (dials : (s.callers g).phase = .dialing spare) :
      Steps limits s (.dialFails g error jitter)
        (s.dialFails g spare error jitter)
  | dialSucceeds (g : Nat) (dials : s.Dials g) :
      Steps limits s (.dialSucceeds g) (s.dialSucceeds g)

theorem steps_step {limits : Limits} {s next : State} {action : Action}
    (taken : step limits s action = some next) :
    Steps limits s action next := by
  have away {before after : Phase}
      (dials : ∀ spare, after ≠ .dialing spare) (waits : after ≠ .waiting) :
      Quiet before after :=
    .inr ⟨dials, waits⟩
  cases action with
  | passes later =>
      simp only [step] at taken
      split_ifs at taken with ordered
      obtain rfl := Option.some.inj taken
      exact .time later ordered
  | calls g =>
      simp only [step] at taken
      split at taken
      · obtain rfl := Option.some.inj taken
        exact .caller g _ (away (by simp) (by simp))
      · exact nomatch taken
  | cancels g =>
      obtain rfl := Option.some.inj taken
      exact .caller g _ (.inl rfl)
  | expires g =>
      simp only [step] at taken
      split_ifs at taken
      obtain rfl := Option.some.inj taken
      exact .caller g _ (.inl rfl)
  | checks g =>
      simp only [step] at taken
      split at taken
      · split_ifs at taken
        all_goals
          obtain rfl := Option.some.inj taken
          exact .caller g _ (away (by simp) (by simp))
      · exact nomatch taken
  | looks g =>
      simp only [step] at taken
      split at taken
      · obtain rfl := Option.some.inj taken
        exact .looks g (looks_look limits s g)
      · exact nomatch taken
  | wakes g =>
      simp only [step] at taken
      split at taken
      · split_ifs at taken
        obtain rfl := Option.some.inj taken
        exact .wakes g
      · exact nomatch taken
  | givesUp g =>
      simp only [step] at taken
      split at taken
      · split_ifs at taken
        obtain rfl := Option.some.inj taken
        exact .caller g _ (away (by simp) (by simp))
      · exact nomatch taken
  | dialFails g error jitter =>
      simp only [step] at taken
      split at taken
      next spare dials =>
        split_ifs at taken
        obtain rfl := Option.some.inj taken
        exact .dialFails g spare error jitter dials
      next => exact nomatch taken
  | dialSucceeds g =>
      simp only [step] at taken
      split at taken
      next spare dials =>
        obtain rfl := Option.some.inj taken
        exact .dialSucceeds g ⟨spare, dials⟩
      next => exact nomatch taken
  | resumes g =>
      simp only [step] at taken
      split at taken
      · split_ifs at taken
        all_goals
          obtain rfl := Option.some.inj taken
          exact .caller g _ (away (by simp) (by simp))
      · exact nomatch taken
  | returns g =>
      simp only [step] at taken
      split at taken
      next result _ =>
        obtain rfl := Option.some.inj taken
        exact .returns g result
      next => exact nomatch taken
  | puts id =>
      simp only [step] at taken
      split at taken
      next lane _ =>
        split_ifs at taken
        obtain rfl := Option.some.inj taken
        apply Steps.pool
        · dsimp only
          split_ifs
          · exact Pool.gate_remove _ _
          · exact Pool.gate_notify _
        · dsimp only
          split_ifs
          · exact Pool.rouses_remove _ _
          · exact Pool.rouses_notify _ _
      next => exact nomatch taken
  | drains id =>
      obtain rfl := Option.some.inj taken
      apply Steps.pool
      · exact Pool.gate_notify _
      · exact Pool.rouses_notify _ _
  | sweeps =>
      obtain rfl := Option.some.inj taken
      apply Steps.pool
      · exact Pool.gate_remove _ _
      · exact Pool.rouses_remove _ _
  | closes =>
      obtain rfl := Option.some.inj taken
      apply Steps.pool
      · rw [Pool.gate_remove, Pool.gate_notify]
        rfl
      · exact (Pool.rouses_notify _ _).trans (Pool.rouses_remove _ _)
  | changes id closed bulk =>
      obtain rfl := Option.some.inj taken
      exact .pool _ rfl (.refl _)
  | reorders all =>
      simp only [step] at taken
      split_ifs at taken
      obtain rfl := Option.some.inj taken
      exact .pool _ rfl (.refl _)

/-- Every step is let through by the gate or does not touch it. -/
theorem gated_of_steps {limits : Limits} {s next : State} {action : Action}
    (marked : ∀ g, s.Dials g → s.pool.dialing = true)
    (steps : Steps limits s action next) : Gated s next := by
  cases steps with
  | time | caller | wakes => exact .inl ⟨rfl, rfl⟩
  | pool p gate _ => exact .inl ⟨gate, rfl⟩
  | returns g result => exact .inl ⟨Pool.gate_leaveQueue _ _, rfl⟩
  | looks g looks => exact gated_looks looks
  | dialFails g spare error jitter dials =>
      exact gated_dialFails (marked g ⟨spare, dials⟩)
  | dialSucceeds g dials => exact gated_dialSucceeds (marked g dials)

/-! ## One dial at a time -/

/-- One caller dials at most, and the pool knows. -/
structure Single (s : State) : Prop where
  single : ∀ g k, s.Dials g → s.Dials k → g = k
  marked : ∀ g, s.Dials g → s.pool.dialing = true

namespace State

/-- A caller waits in the select of `waitLocked`. -/
def Waits (s : State) (g : Nat) : Prop :=
  (s.callers g).phase = .waiting

end State

/-- Whoever dials did so before, and the pool still knows. -/
theorem Single.of_fewer {s next : State} (before : Single s)
    (fewer : ∀ k, next.Dials k → s.Dials k)
    (marked : s.pool.dialing = true → next.pool.dialing = true) :
    Single next where
  single g k first second := before.single g k (fewer g first) (fewer k second)
  marked g dials := marked (before.marked g (fewer g dials))

theorem single_of_none {s : State} (none : ∀ k, ¬ s.Dials k) : Single s where
  single g _ dials := absurd dials (none g)
  marked g dials := absurd dials (none g)

/-- After one caller has changed, another one dials if it did before. -/
theorem dials_update {s next : State} {g : Nat} {caller : Caller}
    (same : next.callers = Function.update s.callers g caller) {k : Nat}
    (dials : next.Dials k) :
    (∃ spare, caller.phase = .dialing spare) ∧ k = g ∨ s.Dials k ∧ k ≠ g := by
  unfold State.Dials at dials ⊢
  rw [same] at dials
  by_cases isCaller : k = g
  · subst isCaller
    rw [Function.update_self] at dials
    exact .inl ⟨dials, rfl⟩
  · rw [Function.update_of_ne isCaller] at dials
    exact .inr ⟨dials, isCaller⟩

theorem waits_update {s next : State} {g : Nat} {caller : Caller}
    (same : next.callers = Function.update s.callers g caller) {k : Nat}
    (waits : next.Waits k) :
    caller.phase = .waiting ∧ k = g ∨ s.Waits k ∧ k ≠ g := by
  unfold State.Waits at waits ⊢
  rw [same] at waits
  by_cases isCaller : k = g
  · subst isCaller
    rw [Function.update_self] at waits
    exact .inl ⟨waits, rfl⟩
  · rw [Function.update_of_ne isCaller] at waits
    exact .inr ⟨waits, isCaller⟩

/-- A caller leaves or stays out of `dial`. -/
theorem Single.of_update {s next : State} {g : Nat} {caller : Caller}
    (before : Single s)
    (same : next.callers = Function.update s.callers g caller)
    (outside : ∀ spare, caller.phase = .dialing spare →
      (s.callers g).phase = .dialing spare)
    (marked : s.pool.dialing = true → next.pool.dialing = true) :
    Single next := by
  apply before.of_fewer _ marked
  intro k dials
  rcases dials_update same dials with ⟨⟨spare, dialing⟩, rfl⟩ | ⟨dialing, _⟩
  · exact ⟨spare, outside spare dialing⟩
  · exact dialing

theorem single_looks {limits : Limits} {s next : State} {g : Nat}
    (before : Single s) (looks : Looks limits s g next) : Single next := by
  cases looks with
  | refused problem =>
      refine @Single.of_update s _ g _ before rfl ?_ fun marked => marked
      exact fun _ dials => nomatch dials
  | waits _ =>
      refine @Single.of_update s _ g _ before rfl ?_ ?_
      · exact fun _ dials => nomatch dials
      · exact (congrArg Gate.busy (Pool.gate_pushBack s.pool g)).trans
  | drops =>
      refine @Single.of_update s _ g _ before rfl
        (fun _ dials => nomatch dials) ?_
      have same := (Pool.gate_leaveQueue (s.pool.remove
        (Lane.dead limits s.now)) g).trans (Pool.gate_remove _ _)
      exact (congrArg Gate.busy same).trans
  | dials spare free _ =>
      have only (k : Nat) (dials : (s.startDial g spare).Dials k) : k = g := by
        rcases dials_update rfl dials with ⟨_, isCaller⟩ | ⟨dialing, _⟩
        · exact isCaller
        · rw [before.marked k dialing] at free
          exact nomatch free
      constructor
      · intro k j first second
        rw [only k first, only j second]
      · intro _ _
        exact congrArg Gate.busy (Pool.gate_leaveQueue _ g)
  | serves lane =>
      refine @Single.of_update s _ g _ before rfl ?_ fun marked => marked
      exact fun _ dials => nomatch dials

/-- A caller that has dialed was the only one. -/
theorem single_of_dialed {s next : State} {g : Nat} {caller : Caller}
    (before : Single s) (dials : s.Dials g)
    (same : next.callers = Function.update s.callers g caller)
    (outside : ∀ spare, caller.phase ≠ .dialing spare) : Single next := by
  apply single_of_none
  intro k again
  rcases dials_update same again with ⟨⟨spare, dialing⟩, _⟩ | ⟨dialing, other⟩
  · exact outside spare dialing
  · exact other (before.single k g dialing dials)

theorem callers_dialFails (s : State) (g : Nat) (spare : Bool) (error : Text)
    (jitter : Nat) :
    (s.dialFails g spare error jitter).callers =
      Function.update s.callers g
        { s.callers g with phase := .failed spare error } := by
  unfold State.dialFails
  dsimp only
  split_ifs <;> rfl

theorem callers_dialSucceeds (s : State) (g : Nat) :
    ∃ result, (s.dialSucceeds g).callers = Function.update s.callers g
      { s.callers g with phase := .leaving result } := by
  unfold State.dialSucceeds
  dsimp only
  split_ifs
  · exact ⟨_, rfl⟩
  · exact ⟨_, rfl⟩

theorem single_steps {limits : Limits} {s next : State} {action : Action}
    (before : Single s) (steps : Steps limits s action next) : Single next := by
  cases steps with
  | time later _ => exact ⟨before.single, before.marked⟩
  | caller g f quiet =>
      refine @Single.of_update s _ g _ before rfl ?_ fun marked => marked
      intro spare dials
      rcases quiet with kept | ⟨outside, _⟩
      · rw [← kept]
        exact dials
      · exact absurd dials (outside spare)
  | pool p gate _ =>
      exact ⟨before.single, fun g dials =>
        (congrArg Gate.busy gate).trans (before.marked g dials)⟩
  | wakes g =>
      refine @Single.of_update s _ g _ before rfl ?_ fun marked => marked
      exact fun _ dials => nomatch dials
  | returns g result =>
      refine @Single.of_update s _ g _ before rfl ?_ ?_
      · exact fun _ dials => nomatch dials
      · exact (congrArg Gate.busy (Pool.gate_leaveQueue s.pool g)).trans
  | looks g looks => exact single_looks before looks
  | dialFails g spare error jitter dials =>
      exact single_of_dialed before ⟨spare, dials⟩ (callers_dialFails ..)
        fun _ again => nomatch again
  | dialSucceeds g dials =>
      obtain ⟨result, same⟩ := callers_dialSucceeds s g
      exact single_of_dialed before dials same fun _ again => nomatch again

/-! ## The queue is awake -/

/-- While nobody dials, the first in the queue was notified or does not wait. -/
def Awake (s : State) : Prop :=
  ∀ w, s.pool.waiters.head? = some w →
    s.pool.dialing = true ∨ w.2 = true ∨ ¬ s.Waits w.1

theorem Awake.of_rouses {s next : State} (awake : Awake s)
    (rouses : s.pool.Rouses next.pool)
    (marked : s.pool.dialing = true → next.pool.dialing = true)
    (fewer : ∀ k, next.Waits k → s.Waits k) : Awake next := by
  intro w first
  rcases rouses w first with notified | before
  · exact .inr (.inl notified)
  · rcases awake w before with dials | notified | asleep
    · exact .inl (marked dials)
    · exact .inr (.inl notified)
    · exact .inr (.inr fun waits => asleep (fewer w.1 waits))

theorem Awake.of_update {s next : State} {g : Nat} {caller : Caller}
    (awake : Awake s) (rouses : s.pool.Rouses next.pool)
    (marked : s.pool.dialing = true → next.pool.dialing = true)
    (same : next.callers = Function.update s.callers g caller)
    (outside : caller.phase = .waiting → s.Waits g) : Awake next := by
  apply awake.of_rouses rouses marked
  intro k waits
  rcases waits_update same waits with ⟨waiting, rfl⟩ | ⟨waiting, _⟩
  · exact outside waiting
  · exact waiting

theorem awake_looks {limits : Limits} {s next : State} {g : Nat}
    (awake : Awake s) (looks : Looks limits s g next) : Awake next := by
  cases looks with
  | refused problem =>
      exact @Awake.of_update s _ g _ awake (.refl _) (fun marked => marked) rfl
        fun waiting => nomatch waiting
  | waits reason =>
      intro w first
      have same := congrArg Gate.busy (Pool.gate_pushBack s.pool g)
      rcases reason with other | dials
      · obtain ⟨front, isFront, distinct⟩ := (Option.any_eq_true ..).mp other
        obtain ⟨x, isFirst, rfl⟩ := Option.map_eq_some_iff.mp isFront
        -- the queue only grows at its end
        have kept : (s.pool.pushBack g).waiters.head? = some x := by
          unfold Pool.pushBack
          split_ifs
          · exact isFirst
          · rw [List.head?_append, isFirst]
            rfl
        obtain rfl := Option.some.inj (kept.symm.trans first)
        rcases awake x isFirst with dials | notified | asleep
        · exact .inl (same.trans dials)
        · exact .inr (.inl notified)
        · right; right
          intro waits
          rcases waits_update rfl waits with ⟨_, isCaller⟩ | ⟨waiting, _⟩
          · simp [isCaller] at distinct
          · exact asleep waiting
      · exact .inl (same.trans dials)
  | drops =>
      have same := (Pool.gate_leaveQueue (s.pool.remove
        (Lane.dead limits s.now)) g).trans (Pool.gate_remove _ _)
      exact @Awake.of_update s _ g _ awake
        ((Pool.rouses_remove _ _).trans (Pool.rouses_leaveQueue _ _))
        (congrArg Gate.busy same).trans rfl fun waiting => nomatch waiting
  | dials spare _ _ =>
      exact fun _ _ => .inl (congrArg Gate.busy (Pool.gate_leaveQueue _ g))
  | serves lane =>
      exact @Awake.of_update s _ g _ awake (.refl _) (fun marked => marked) rfl
        fun waiting => nomatch waiting

theorem head_dialFails {s : State} {g : Nat} {spare : Bool} {error : Text}
    {jitter : Nat} {w : Nat × Bool}
    (first : (s.dialFails g spare error jitter).pool.waiters.head? = some w) :
    w.2 = true := by
  unfold State.dialFails at first
  dsimp only at first
  split_ifs at first
  · exact Pool.head_notify first
  · exact Pool.head_notify first

theorem head_dialSucceeds {s : State} {g : Nat} {w : Nat × Bool}
    (first : (s.dialSucceeds g).pool.waiters.head? = some w) :
    w.2 = true := by
  unfold State.dialSucceeds at first
  dsimp only at first
  split_ifs at first
  · exact Pool.head_notify first
  · exact Pool.head_notify first

theorem awake_steps {limits : Limits} {s next : State} {action : Action}
    (awake : Awake s) (steps : Steps limits s action next) : Awake next := by
  cases steps with
  | time later _ => exact awake
  | caller g f quiet =>
      refine @Awake.of_update s _ g _ awake (.refl _) (fun marked => marked)
        rfl fun waiting => ?_
      rcases quiet with kept | ⟨_, outside⟩
      · exact kept.symm.trans waiting
      · exact absurd waiting outside
  | pool p gate rouses =>
      exact awake.of_rouses rouses (congrArg Gate.busy gate).trans fun _ waits =>
        waits
  | wakes g =>
      intro w first
      have received : (s.pool.received g).waiters.head? = some w := first
      unfold Pool.received at received
      rw [List.head?_map] at received
      obtain ⟨x, isFirst, same⟩ := Option.map_eq_some_iff.mp received
      have outside (k : Nat) (waits : ({ s with
          pool := s.pool.received g }.go g .top).Waits k) :
          s.Waits k ∧ k ≠ g := by
        rcases waits_update rfl waits with ⟨waiting, _⟩ | waiting
        · exact nomatch waiting
        · exact waiting
      by_cases isCaller : x.1 = g
      · rw [if_pos isCaller] at same
        subst same
        exact .inr (.inr fun waits => (outside g waits).2 rfl)
      · rw [if_neg isCaller] at same
        subst same
        rcases awake x isFirst with dials | notified | asleep
        · exact .inl dials
        · exact .inr (.inl notified)
        · exact .inr (.inr fun waits => asleep (outside x.1 waits).1)
  | returns g result =>
      exact @Awake.of_update s _ g _ awake (Pool.rouses_leaveQueue _ _)
        (congrArg Gate.busy (Pool.gate_leaveQueue s.pool g)).trans rfl
        fun waiting => nomatch waiting
  | looks g looks => exact awake_looks awake looks
  | dialFails g spare error jitter _ =>
      exact fun w first => .inr (.inl (head_dialFails first))
  | dialSucceeds g _ =>
      exact fun w first => .inr (.inl (head_dialSucceeds first))

/-! ## Lanes -/

theorem best_of_better {limits : Limits} {now : Nat} {list : List Lane}
    {best : Option Lane} :
    (∀ lane, list.foldl (better limits now) best = some lane →
      best = some lane ∨ lane ∈ list ∧ lane.usable limits now = true) ∧
    ((best.isSome ∨ ∃ lane ∈ list, lane.usable limits now = true) →
      (list.foldl (better limits now) best).isSome) := by
  induction list generalizing best with
  | nil =>
      constructor
      · exact fun lane same => .inl same
      · rintro (isSome | ⟨_, listed, _⟩)
        · exact isSome
        · exact nomatch listed
  | cons first rest ih =>
      rw [List.foldl_cons]
      have chosen : better limits now best first = best ∨
          better limits now best first = some first ∧
            first.usable limits now = true := by
        unfold better
        split_ifs with usable
        · cases best with
          | none => exact .inr ⟨rfl, usable⟩
          | some other =>
              dsimp only
              split_ifs
              · exact .inr ⟨rfl, usable⟩
              · exact .inl rfl
        · exact .inl rfl
      have kept : (best.isSome ∨ first.usable limits now = true) →
          (better limits now best first).isSome := by
        unfold better
        split_ifs with usable
        · intro _
          cases best with
          | none => rfl
          | some other =>
              dsimp only
              split_ifs <;> rfl
        · exact fun either => either.resolve_right usable
      obtain ⟨found, present⟩ := @ih (better limits now best first)
      constructor
      · intro lane same
        rcases found lane same with before | ⟨listed, usable⟩
        · rcases chosen with stays | ⟨isFirst, usable⟩
          · exact .inl (stays.symm.trans before)
          · obtain rfl := Option.some.inj (isFirst.symm.trans before)
            exact .inr ⟨List.mem_cons_self, usable⟩
        · exact .inr ⟨List.mem_cons_of_mem first listed, usable⟩
      · rintro (isSome | ⟨lane, listed, usable⟩)
        · exact present (.inl (kept (.inl isSome)))
        · rcases List.mem_cons.mp listed with rfl | later
          · exact present (.inl (kept (.inr usable)))
          · exact present (.inr ⟨lane, later, usable⟩)

/-- Where a lane can be used, the best one is such a lane. -/
theorem best_of_usable {limits : Limits} {now : Nat} {p : Pool} {lane : Lane}
    (listed : lane ∈ p.all) (usable : lane.usable limits now = true) :
    ∃ best ∈ p.all, best.usable limits now = true ∧
      p.best limits now = some best := by
  obtain ⟨found, present⟩ := @best_of_better limits now p.all none
  obtain ⟨best, same⟩ := Option.isSome_iff_exists.mp
    (present (.inr ⟨lane, listed, usable⟩))
  rcases found best same with before | ⟨member, works⟩
  · exact nomatch before
  · exact ⟨best, member, works, same⟩

theorem all_leaveQueue (p : Pool) (g : Nat) : (p.leaveQueue g).all = p.all := by
  unfold Pool.leaveQueue Pool.notify
  split_ifs
  · dsimp only
    split <;> rfl
  · rfl

theorem all_remove {p : Pool} {gone : Lane → Bool} (any : p.all.any gone = true) :
    (p.remove gone).all = p.all.filter fun lane => !gone lane := by
  unfold Pool.remove Pool.notify
  rw [if_pos any]
  dsimp only
  split <;> rfl

/-- What becomes of a caller at the front when dials are kept back and a lane
can be used: it is given one, or dead lanes go first and it looks again. -/
inductive Served (limits : Limits) (s : State) (g : Nat) (lane : Lane) :
    State → Prop where
  | served (best : Lane) (listed : best ∈ s.pool.all)
      (usable : best.usable limits s.now = true) :
      Served limits s g lane (s.serve g best)
  | again {next : State} (top : (next.callers g).phase = .top)
      (kept : lane ∈ next.pool.all) (now : next.now = s.now)
      (gate : next.pool.gate = s.pool.gate)
      (alive : next.pool.all.any (Lane.dead limits s.now) = false) :
      Served limits s g lane next

theorem served_look {limits : Limits} {s : State} {g : Nat} {lane : Lane}
    (serving : s.pool.closed = false)
    (turn : s.pool.front.any (· ≠ g) = false)
    (cold : s.pool.cooling s.now = true) (listed : lane ∈ s.pool.all)
    (usable : lane.usable limits s.now = true) :
    Served limits s g lane (s.look limits g) := by
  unfold State.look
  rw [if_neg (Bool.eq_false_iff.mp serving),
    if_neg (Bool.eq_false_iff.mp turn)]
  split_ifs with dead
  · have all : ((s.pool.remove (Lane.dead limits s.now)).leaveQueue g).all =
        s.pool.all.filter fun lane => !lane.dead limits s.now := by
      rw [all_leaveQueue, all_remove dead]
    have alive : lane.dead limits s.now = false := by
      unfold Lane.usable at usable
      simp only [Bool.and_eq_true, Bool.not_eq_true'] at usable
      exact usable.1.1
    apply Served.again
    · rw [State.callers_go, if_pos rfl]
    · show lane ∈ ((s.pool.remove _).leaveQueue g).all
      rw [all]
      exact List.mem_filter.mpr ⟨listed, by simp [alive]⟩
    · rfl
    · show ((s.pool.remove _).leaveQueue g).gate = _
      rw [Pool.gate_leaveQueue, Pool.gate_remove]
    · show ((s.pool.remove _).leaveQueue g).all.any _ = false
      rw [all]
      simp
  · obtain ⟨best, member, works, same⟩ := best_of_usable listed usable
    rw [same]
    dsimp only
    unfold State.settle
    simp only [cold, Option.isNone_some, Bool.and_false, Bool.not_true,
      Bool.false_and, Bool.false_eq_true, if_false]
    exact .served best member works

/-! ## Runs -/

structure Inv (s : State) : Prop where
  single : Single s
  keeps : Keeps low second s.now s.pool.gate s.history
  awake : Awake s

theorem now_steps {limits : Limits} {s next : State} {action : Action}
    (steps : Steps limits s action next) : s.now ≤ next.now := by
  cases steps with
  | time later ordered => exact ordered
  | caller | pool | wakes | returns => exact Nat.le_refl _
  | looks g looks => cases looks <;> exact Nat.le_refl _
  | dialFails =>
      unfold State.dialFails
      dsimp only
      split_ifs <;> exact Nat.le_refl _
  | dialSucceeds =>
      unfold State.dialSucceeds
      dsimp only
      split_ifs <;> exact Nat.le_refl _

theorem inv_reachable {limits : Limits} {s : State}
    (reached : (machine limits).Reachable s) : Inv s := by
  apply Machine.ReachableBy.invariant (P := Inv) _ _ reached
  · rintro s rfl
    constructor
    · exact single_of_none fun k ⟨_, dials⟩ => nomatch dials
    · exact Backoff.keeps_nil 0
    · intro w first
      exact nomatch first
  · intro s action next _ inv _ taken
    have steps := steps_step taken
    constructor
    · exact single_steps inv.single steps
    · apply Keeps.later _ (now_steps steps)
      rcases gated_of_steps inv.single.marked steps with ⟨gate, told⟩ | passes
      · rw [gate, told]
        exact inv.keeps
      · exact inv.keeps.passes passes
    · exact awake_steps inv.awake steps

/-- A dial that starts is told, and when. -/
theorem starts_told {limits : Limits} {s next : State} {action : Action}
    {g : Nat} (steps : Steps limits s action next)
    (before : ¬ s.Dials g) (dials : next.Dials g) :
    next.history = .start s.now :: s.history := by
  cases steps with
  | time | pool => exact absurd dials before
  | caller k f quiet =>
      rcases dials_update rfl dials with ⟨⟨spare, dialing⟩, rfl⟩ | ⟨dialing, _⟩
      · rcases quiet with kept | ⟨outside, _⟩
        · exact absurd ⟨spare, kept.symm.trans dialing⟩ before
        · exact absurd dialing (outside spare)
      · exact absurd dialing before
  | wakes k | returns k =>
      rcases dials_update rfl dials with ⟨⟨_, dialing⟩, _⟩ | ⟨dialing, _⟩
      · exact nomatch dialing
      · exact absurd dialing before
  | looks k looks =>
      cases looks with
      | dials => rfl
      | refused | waits | drops | serves =>
          rcases dials_update rfl dials with ⟨⟨_, dialing⟩, _⟩ | ⟨dialing, _⟩
          · exact nomatch dialing
          · exact absurd dialing before
  | dialFails k spare error jitter _ =>
      rcases dials_update (callers_dialFails ..) dials with
        ⟨⟨_, dialing⟩, _⟩ | ⟨dialing, _⟩
      · exact nomatch dialing
      · exact absurd dialing before
  | dialSucceeds k _ =>
      obtain ⟨result, same⟩ := callers_dialSucceeds s k
      rcases dials_update same dials with ⟨⟨_, dialing⟩, _⟩ | ⟨dialing, _⟩
      · exact nomatch dialing
      · exact absurd dialing before

/-- Only a dial that succeeds ends a row of failures. -/
theorem succeeds_of_shorter {limits : Limits} {s next : State}
    {action : Action} (steps : Steps limits s action next)
    (shorter : Backoff.streak next.history < Backoff.streak s.history) :
    ∃ g, action = .dialSucceeds g := by
  cases steps with
  | time | caller | pool | wakes | returns =>
      exact absurd shorter (Nat.lt_irrefl _)
  | looks g looks => cases looks <;> exact absurd shorter (Nat.lt_irrefl _)
  | dialFails g spare error jitter _ =>
      unfold State.dialFails at shorter
      dsimp only at shorter
      split_ifs at shorter
      · exact absurd shorter (Nat.not_lt.mpr (Nat.le_succ _))
      · exact absurd shorter (Nat.lt_irrefl _)
  | dialSucceeds g _ => exact ⟨g, rfl⟩

theorem history_dialFails {s : State} {g : Nat} (spare : Bool) (error : Text)
    (jitter : Nat) (alive : (s.callers g).cancelled = false)
    (serving : s.pool.closed = false) :
    (s.dialFails g spare error jitter).history =
      .failure s.now :: s.history := by
  have closed := Pool.closed_notify { s.pool with dialing := false }
  unfold State.dialFails
  dsimp only at closed ⊢
  rw [closed, if_pos ⟨alive, serving⟩]
  rfl

/-- A dial whose context has ended leaves the cooldown as it is. -/
theorem cooldown_dialFails {s : State} {g : Nat} (spare : Bool) (error : Text)
    (jitter : Nat) (cancelled : (s.callers g).cancelled = true) :
    let p := (s.dialFails g spare error jitter).pool
    p.dialError = s.pool.dialError ∧ p.retryAt = s.pool.retryAt ∧
      p.retryDelay = s.pool.retryDelay := by
  have ended : ¬ ((s.callers g).cancelled = false ∧
      (Pool.notify { s.pool with dialing := false }).closed = false) := by
    simp [cancelled]
  unfold State.dialFails
  dsimp only
  rw [if_neg ended]
  unfold State.go State.set Pool.notify
  dsimp only
  split <;> exact ⟨rfl, rfl, rfl⟩

/-- How a pool dials. -/
structure Disciplined (limits : Limits) (s : State) : Prop where
  single : ∀ g k, s.Dials g → s.Dials k → g = k
  /-- every dial that starts is in the history -/
  starts : ∀ action next g, step limits s action = some next → ¬ s.Dials g →
    next.Dials g → next.history = .start s.now :: s.history
  /-- and so is every failure whose caller still waits for it -/
  failures : ∀ g error jitter next,
    step limits s (.dialFails g error jitter) = some next →
    (s.callers g).cancelled = false → s.pool.closed = false →
    next.history = .failure s.now :: s.history
  spaced : ∀ later past failed started,
    s.history = later ++ .failure failed :: past →
    .start started ∈ later →
    failed + min (100 * millisecond * 2 ^ Backoff.streak past) second ≤ started
  reset : ∀ action next, step limits s action = some next →
    Backoff.streak next.history < Backoff.streak s.history →
    ∃ g, action = .dialSucceeds g
  cancelled : ∀ g error jitter next,
    step limits s (.dialFails g error jitter) = some next →
    (s.callers g).cancelled = true →
    next.pool.dialError = s.pool.dialError ∧
      next.pool.retryAt = s.pool.retryAt ∧
      next.pool.retryDelay = s.pool.retryDelay
  /-- while dials are kept back, the first in the queue does not sleep -/
  awake : s.pool.cooling s.now = true → s.pool.dialing = false ∧
    ∀ w, s.pool.waiters.head? = some w → w.2 = true ∨ ¬ s.Waits w.1
  served : ∀ g lane next, s.pool.closed = false →
    s.pool.cooling s.now = true → s.pool.front.any (· ≠ g) = false →
    lane ∈ s.pool.all → lane.usable limits s.now = true →
    step limits s (.looks g) = some next → Served limits s g lane next

/--
In every run of calls of `get` with a clock that does not go back one caller
dials at a time.  After a dial that fails, none starts for 100 ms, doubled with
every failure in a row up to a second; only a dial that succeeds ends the row,
and one whose context has ended changes nothing.  While dials are kept back a
caller whose turn it is gets a lane if there is one.
-/
theorem dials_spaced {limits : Limits} {s : State}
    (reached : (machine limits).Reachable s) : Disciplined limits s := by
  obtain ⟨single, keeps, awake⟩ := inv_reachable reached
  have failing {g : Nat} {error : Text} {jitter : Nat} {next : State}
      (taken : step limits s (.dialFails g error jitter) = some next) :
      ∃ spare, next = s.dialFails g spare error jitter := by
    simp only [step] at taken
    split at taken
    next spare _ =>
      split_ifs at taken
      obtain rfl := Option.some.inj taken
      exact ⟨spare, rfl⟩
    next => exact nomatch taken
  constructor
  · exact single.single
  · intro action next g taken before dials
    exact starts_told (steps_step taken) before dials
  · intro g error jitter next taken alive serving
    obtain ⟨spare, rfl⟩ := failing taken
    exact history_dialFails spare error jitter alive serving
  · intro later past failed started split listed
    have after := keeps.spaced later past failed started split listed
    rw [Backoff.wait_succ (by decide)] at after
    exact after
  · intro action next taken shorter
    exact succeeds_of_shorter (steps_step taken) shorter
  · intro g error jitter next taken ended
    obtain ⟨spare, rfl⟩ := failing taken
    exact cooldown_dialFails spare error jitter ended
  · intro cold
    have free : s.pool.dialing = false := by
      by_contra dials
      rw [Bool.not_eq_false] at dials
      exact keeps.calm dials ((Pool.cooling_iff s.pool s.now).mp cold)
    refine ⟨free, fun w first => ?_⟩
    rcases awake w first with dials | notified | asleep
    · simp [free] at dials
    · exact .inl notified
    · exact .inr asleep
  · intro g lane next serving cold turn listed usable taken
    simp only [step] at taken
    split at taken
    · obtain rfl := Option.some.inj taken
      exact served_look serving turn cold listed usable
    · exact nomatch taken

/-- A dial that fails after a second, and the time at which the next starts. -/
def twoDials : List Action :=
  [.calls 0, .checks 0, .looks 0, .passes second, .dialFails 0 [] 0,
    .calls 1, .passes (second + low), .checks 1, .looks 1]

def someLimits : Limits where
  maxConnections := 4
  maxIdle := 1
  poolTimeout := 60 * second
  handshakeTimeout := 10 * second

theorem dials_spaced_twoDials :
    ∃ s, (machine someLimits).run {} twoDials = some s ∧
      s.history = [.start (second + low), .failure second, .start 0] ∧
      Disciplined someLimits s := by
  have told : ((machine someLimits).run {} twoDials).any (fun s =>
      s.history = [.start (second + low), .failure second, .start 0]) = true := by
    decide +kernel
  obtain ⟨s, ends, same⟩ := (Option.any_eq_true ..).mp told
  exact ⟨s, ends, decide_eq_true_eq.mp same,
    dials_spaced (Machine.run_reachable (.start rfl) ends)⟩

end Veil.Core.Dialing

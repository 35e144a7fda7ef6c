import Veil.Core.Lanes
import Veil.Lib.Turnstile

/-!
# Turns

Callers that need a dial that is under way, or find others before them, wait in the order
they came.  The queue of a pool is a turnstile: its first is notified when the dial is
over, when a lane has room or is gone, when the pool is closed, and when it becomes the
first.  What follows for a turnstile follows for the pool.
-/

namespace Veil.Core.Dialing

open Lib
open Turnstile (Place)
open Lib.Backoff (Gate)

/-- Where a caller is for the queue. -/
def Phase.place : Phase → Place
  | .absent | .returned _ => .away
  | .waiting => .asleep
  | .top | .entering | .dialing _ | .failed _ _ | .leaving _ => .up

/-- The queue of a pool and its callers. -/
def State.turnstile (s : State) : Turnstile Nat where
  queue := s.pool.waiters
  place k := (s.callers k).phase.place
  busy := s.pool.dialing
  closed := s.pool.closed

/-! ## Operations on the queue -/

namespace Pool

theorem waiters_notify (p : Pool) : p.notify.waiters = Turnstile.rouse p.waiters := by
  unfold notify Turnstile.rouse
  split <;> simp_all

theorem waiters_leaveQueue (p : Pool) (g : Nat) :
    (p.leaveQueue g).waiters = Turnstile.leave p.waiters g := by
  unfold leaveQueue queues Turnstile.leave Turnstile.queues
  split_ifs
  · exact waiters_notify _
  · rfl

theorem waiters_pushBack (p : Pool) (g : Nat) :
    (p.pushBack g).waiters = Turnstile.join p.waiters g := by
  unfold pushBack queues Turnstile.join Turnstile.queues
  split_ifs <;> rfl

theorem waiters_remove (p : Pool) {gone : Lane → Bool} (any : p.all.any gone = true) :
    (p.remove gone).waiters = Turnstile.rouse p.waiters := by
  unfold remove
  rw [if_pos any]
  exact waiters_notify _

theorem remove_none (p : Pool) {gone : Lane → Bool} (none_ : ¬ p.all.any gone = true) :
    p.remove gone = p :=
  if_neg none_

@[simp]
theorem dialing_leaveQueue (p : Pool) (g : Nat) : (p.leaveQueue g).dialing = p.dialing :=
  congrArg Gate.busy (gate_leaveQueue p g)

@[simp]
theorem dialing_remove (p : Pool) (gone : Lane → Bool) :
    (p.remove gone).dialing = p.dialing :=
  congrArg Gate.busy (gate_remove p gone)

@[simp]
theorem closed_leaveQueue (p : Pool) (g : Nat) : (p.leaveQueue g).closed = p.closed := by
  unfold leaveQueue
  split_ifs
  · exact closed_notify _
  · rfl

@[simp]
theorem closed_remove (p : Pool) (gone : Lane → Bool) :
    (p.remove gone).closed = p.closed := by
  unfold remove
  split_ifs
  · exact closed_notify _
  · rfl

end Pool

theorem rouse_rouse (queue : List (Nat × Bool)) :
    Turnstile.rouse (Turnstile.rouse queue) = Turnstile.rouse queue := by
  cases queue <;> rfl

/-! ## A pool is a turnstile -/

variable {limits : Limits} {s next : State} {g : Nat}

/-- One caller has gone on. -/
theorem place_update {caller : Caller}
    (same : next.callers = Function.update s.callers g caller) :
    next.turnstile.place = Function.update s.turnstile.place g caller.phase.place := by
  funext k
  simp only [State.turnstile, same, Function.update_apply]
  split_ifs <;> rfl

/-- A caller that has gone on is where it was for the queue. -/
theorem place_same {caller : Caller}
    (same : next.callers = Function.update s.callers g caller)
    (stays : caller.phase.place = (s.callers g).phase.place) :
    next.turnstile.place = s.turnstile.place := by
  rw [place_update same, stays]
  exact Function.update_eq_self g _

/-- The turnstile stays as it is or makes a step. -/
def Turns (s next : State) : Prop :=
  next.turnstile = s.turnstile ∨
    ∃ action, Turnstile.step s.turnstile action = some next.turnstile

/-- A caller goes on without the queue. -/
theorem turns_still {caller : Caller} (pool : next.pool.waiters = s.pool.waiters)
    (busy : next.pool.dialing = s.pool.dialing) (closed : next.pool.closed = s.pool.closed)
    (same : next.callers = Function.update s.callers g caller)
    (stays : caller.phase.place = (s.callers g).phase.place) : Turns s next :=
  .inl (Turnstile.ext pool (place_same same stays) busy closed)

/-- The first is notified. -/
theorem turns_rouse (pool : next.pool.waiters = Turnstile.rouse s.pool.waiters)
    (busy : next.pool.dialing = s.pool.dialing) (closed : next.pool.closed = s.pool.closed)
    (same : next.callers = s.callers) : Turns s next := by
  refine .inr ⟨.rouse, congrArg some (Turnstile.ext pool.symm ?_ busy.symm closed.symm)⟩
  funext k
  exact congrArg (fun c : Caller => c.phase.place) (congrFun same.symm k)

theorem turns_remove (gone : Lane → Bool) (pool : next.pool = s.pool.remove gone)
    (same : next.callers = s.callers) : Turns s next := by
  by_cases any : s.pool.all.any gone = true
  · apply turns_rouse _ _ _ same
    · rw [pool, Pool.waiters_remove s.pool any]
    · rw [pool, Pool.dialing_remove]
    · rw [pool, Pool.closed_remove]
  · rw [Pool.remove_none s.pool any] at pool
    left
    unfold State.turnstile
    rw [pool, same]

theorem turns_wait (entering : (s.callers g).phase = .entering)
    (open_ : s.pool.closed = false)
    (reason : s.pool.front.any (· ≠ g) = true ∨ s.pool.dialing = true) :
    Turns s (s.wait limits g) := by
  have up : s.turnstile.place g = .up := congrArg Phase.place entering
  have may : s.turnstile.MaySleep g := by
    refine ⟨open_, reason.imp_left fun other => ?_⟩
    rw [Pool.front, Option.any_map] at other
    exact other
  refine .inr ⟨.sleep g, ?_⟩
  rw [Turnstile.step, if_pos ⟨up, may⟩]
  refine congrArg some (Turnstile.ext (Pool.waiters_pushBack _ _).symm ?_ ?_ ?_)
  · exact (@place_update s (s.wait limits g) g _ rfl).symm
  · exact (congrArg Gate.busy (Pool.gate_pushBack s.pool g)).symm
  · show s.pool.closed = (s.pool.pushBack g).closed
    unfold Pool.pushBack
    split_ifs <;> rfl

theorem turns_startDial (entering : (s.callers g).phase = .entering) (spare : Bool) :
    Turns s (s.startDial g spare) := by
  have up : s.turnstile.place g = .up := congrArg Phase.place entering
  let p : Pool :=
    { s.pool with
      total := s.pool.total + 1
      dialAttempts := s.pool.dialAttempts + 1
      dialing := true }
  refine .inr ⟨.begin g, ?_⟩
  rw [Turnstile.step, if_pos up]
  refine congrArg some (Turnstile.ext ?_ ?_ ?_ ?_)
  · exact (Pool.waiters_leaveQueue p g).symm
  · exact (@place_same s (s.startDial g spare) g _ rfl
      (congrArg Phase.place entering).symm).symm
  · exact (Pool.dialing_leaveQueue p g).symm
  · exact (Pool.closed_leaveQueue p g).symm

theorem turns_settle (entering : (s.callers g).phase = .entering)
    (open_ : s.pool.closed = false) (best : Option Lane) :
    Turns s (s.settle limits g best) := by
  have stays {phase : Phase} (up : phase.place = .up) : Turns s (s.go g phase) :=
    turns_still rfl rfl rfl rfl (up.trans (congrArg Phase.place entering).symm)
  unfold State.settle
  dsimp only
  split_ifs with cold starts queues
  · exact stays rfl
  · exact turns_startDial entering _
  · simp only [Bool.and_eq_true] at queues
    exact turns_wait entering open_ (.inr queues.1.2)
  · cases best with
    | none => exact stays rfl
    | some lane => exact turns_still rfl rfl rfl rfl (congrArg Phase.place entering).symm

theorem turns_look (entering : (s.callers g).phase = .entering) :
    Turns s (s.look limits g) := by
  have stays {phase : Phase} (up : phase.place = .up) : Turns s (s.go g phase) :=
    turns_still rfl rfl rfl rfl (up.trans (congrArg Phase.place entering).symm)
  unfold State.look
  split_ifs with closed other dead
  · exact stays rfl
  · exact turns_wait entering (Bool.eq_false_iff.mpr closed) (.inl other)
  · have up : s.turnstile.place g = .up := congrArg Phase.place entering
    refine .inr ⟨.quit g, ?_⟩
    rw [Turnstile.step, if_pos up]
    refine congrArg some (Turnstile.ext ?_ ?_ ?_ ?_)
    · show Turnstile.leave (Turnstile.rouse s.pool.waiters) g =
        ((s.pool.remove _).leaveQueue g).waiters
      rw [Pool.waiters_leaveQueue, Pool.waiters_remove s.pool dead]
    · exact (place_same rfl (congrArg Phase.place entering).symm).symm
    · show s.pool.dialing = ((s.pool.remove _).leaveQueue g).dialing
      simp
    · show s.pool.closed = ((s.pool.remove _).leaveQueue g).closed
      simp
  · split
    · exact stays rfl
    · exact turns_settle entering (Bool.eq_false_iff.mpr closed) _

/-- A dial is over. -/
theorem turns_over {caller : Caller} (pool : next.pool.waiters = Turnstile.rouse s.pool.waiters)
    (idle : next.pool.dialing = false) (closed : next.pool.closed = s.pool.closed)
    (same : next.callers = Function.update s.callers g caller)
    (stays : caller.phase.place = (s.callers g).phase.place) : Turns s next :=
  .inr ⟨.finish, congrArg some
    (Turnstile.ext pool.symm (place_same same stays).symm idle.symm closed.symm)⟩

theorem turns_dialFails {spare : Bool} (dials : (s.callers g).phase = .dialing spare)
    (error : Text) (jitter : Nat) : Turns s (s.dialFails g spare error jitter) := by
  have queue := Pool.waiters_notify { s.pool with dialing := false }
  have idle := Pool.dialing_notify { s.pool with dialing := false }
  have closed := Pool.closed_notify { s.pool with dialing := false }
  refine turns_over ?_ ?_ ?_ (callers_dialFails s g spare error jitter)
    (congrArg Phase.place dials).symm
  all_goals
    unfold State.dialFails
    dsimp only
    split_ifs <;> assumption

theorem turns_dialSucceeds {spare : Bool} (dials : (s.callers g).phase = .dialing spare) :
    Turns s (s.dialSucceeds g) := by
  have queue := Pool.waiters_notify { s.pool with dialing := false }
  have idle := Pool.dialing_notify { s.pool with dialing := false }
  have closed := Pool.closed_notify { s.pool with dialing := false }
  obtain ⟨result, same⟩ := callers_dialSucceeds s g
  refine turns_over ?_ ?_ ?_ same (congrArg Phase.place dials).symm
  all_goals
    unfold State.dialSucceeds
    dsimp only
    split_ifs <;> assumption

/-- Every step of a pool is one of its turnstile or leaves it as it is. -/
theorem turns_step {action : Action} (taken : step limits s action = some next) :
    Turns s next := by
  cases action with
  | passes later =>
      simp only [step] at taken
      split_ifs at taken
      obtain rfl := Option.some.inj taken
      exact .inl rfl
  | calls g =>
      simp only [step] at taken
      split at taken
      · next absent =>
          obtain rfl := Option.some.inj taken
          have away : s.turnstile.place g = .away := congrArg Phase.place absent
          refine .inr ⟨.arrive g, ?_⟩
          rw [Turnstile.step, if_pos away]
          exact congrArg some
            (Turnstile.ext rfl (@place_update s (s.go g .top) g _ rfl).symm rfl rfl)
      · cases taken
  | cancels g =>
      obtain rfl := Option.some.inj taken
      exact turns_still rfl rfl rfl rfl rfl
  | expires g =>
      simp only [step] at taken
      split_ifs at taken
      obtain rfl := Option.some.inj taken
      exact turns_still rfl rfl rfl rfl rfl
  | checks g =>
      simp only [step] at taken
      split at taken
      · next top =>
          have up := (congrArg Phase.place top).symm
          split_ifs at taken <;> obtain rfl := Option.some.inj taken
          · exact turns_still rfl rfl rfl rfl up
          · exact turns_still rfl rfl rfl rfl up
      · cases taken
  | looks g =>
      simp only [step] at taken
      split at taken
      · next entering =>
          obtain rfl := Option.some.inj taken
          exact turns_look entering
      · cases taken
  | wakes g =>
      simp only [step] at taken
      split at taken
      · next waiting =>
          split_ifs at taken with token
          obtain rfl := Option.some.inj taken
          have asleep : s.turnstile.place g = .asleep := congrArg Phase.place waiting
          have placed := @place_update s ({ s with pool := s.pool.received g }.go g .top) g
            { s.callers g with phase := .top } rfl
          refine .inr ⟨.wake g, ?_⟩
          rw [Turnstile.step, if_pos ⟨asleep, token⟩]
          exact congrArg some (Turnstile.ext rfl placed.symm rfl rfl)
      · cases taken
  | givesUp g =>
      simp only [step] at taken
      split at taken
      · next waiting =>
          split_ifs at taken
          obtain rfl := Option.some.inj taken
          have asleep : s.turnstile.place g = .asleep := congrArg Phase.place waiting
          refine .inr ⟨.rise g, ?_⟩
          rw [Turnstile.step, if_pos asleep]
          exact congrArg some (Turnstile.ext rfl
            (@place_update s (s.go g (.leaving (.error .cancelled))) g _ rfl).symm rfl rfl)
      · cases taken
  | dialFails g error jitter =>
      simp only [step] at taken
      split at taken
      · next spare dials =>
          split_ifs at taken
          obtain rfl := Option.some.inj taken
          exact turns_dialFails dials error jitter
      · cases taken
  | dialSucceeds g =>
      simp only [step] at taken
      split at taken
      · next spare dials =>
          obtain rfl := Option.some.inj taken
          exact turns_dialSucceeds dials
      · cases taken
  | resumes g =>
      simp only [step] at taken
      split at taken
      · next spare error failed =>
          have up := (congrArg Phase.place failed).symm
          split_ifs at taken <;> obtain rfl := Option.some.inj taken
          · exact turns_still rfl rfl rfl rfl up
          · exact turns_still rfl rfl rfl rfl up
      · cases taken
  | returns g =>
      simp only [step] at taken
      split at taken
      · next result leaving =>
          obtain rfl := Option.some.inj taken
          have up : s.turnstile.place g = .up := congrArg Phase.place leaving
          refine .inr ⟨.depart g, ?_⟩
          rw [Turnstile.step, if_pos up]
          refine congrArg some (Turnstile.ext ?_ ?_ ?_ ?_)
          · exact (Pool.waiters_leaveQueue s.pool g).symm
          · exact (@place_update s ({ s with pool := s.pool.leaveQueue g }.go g
              (.returned result)) g _ rfl).symm
          · exact (Pool.dialing_leaveQueue s.pool g).symm
          · exact (Pool.closed_leaveQueue s.pool g).symm
      · cases taken
  | puts id =>
      simp only [step] at taken
      split at taken
      · next lane _ =>
          split_ifs at taken
          obtain rfl := Option.some.inj taken
          unfold State.put
          dsimp only
          split_ifs
          · exact turns_remove (s := { s with pool := s.pool.change lane.id _ }) _ rfl rfl
          · exact turns_rouse (Pool.waiters_notify _) (Pool.dialing_notify _)
              (Pool.closed_notify _) rfl
      · cases taken
  | drains id =>
      obtain rfl := Option.some.inj taken
      exact turns_rouse (Pool.waiters_notify _) (Pool.dialing_notify _)
        (Pool.closed_notify _) rfl
  | sweeps =>
      obtain rfl := Option.some.inj taken
      exact turns_remove _ rfl rfl
  | closes =>
      obtain rfl := Option.some.inj taken
      let p : Pool := { s.pool with closed := true }
      refine .inr ⟨.close, congrArg some (Turnstile.ext ?_ rfl ?_ ?_)⟩
      · show Turnstile.rouse p.waiters = (p.notify.remove fun _ => true).waiters
        by_cases any : (p.notify.all.any fun _ => true) = true
        · rw [Pool.waiters_remove _ any, Pool.waiters_notify, rouse_rouse]
        · rw [Pool.remove_none _ any, Pool.waiters_notify]
      · show p.dialing = (p.notify.remove fun _ => true).dialing
        simp
      · show true = (p.notify.remove fun _ => true).closed
        simp [p]
  | changes id closed bulk =>
      obtain rfl := Option.some.inj taken
      exact .inl rfl
  | reorders all =>
      simp only [step] at taken
      split_ifs at taken
      obtain rfl := Option.some.inj taken
      exact .inl rfl

/-- The queue of a pool is in order. -/
theorem turnstile_reachable (reached : (machine limits).Reachable s) : s.turnstile.Sound := by
  apply Turnstile.sound_reachable
  apply reached.project State.turnstile
  · rintro s rfl
    rfl
  · intro s action next _ taken
    rcases turns_step taken with same | ⟨below, moved⟩
    · exact .inl same
    · exact .inr ⟨below, trivial, moved⟩

/-! ## A dial under way is somebody's -/

/-- Whoever dials goes on, and no dial is begun or over. -/
theorem busy_update {caller : Caller} (busy : s.pool.dialing = true → ∃ g, s.Dials g)
    (same : next.callers = Function.update s.callers g caller)
    (kept : next.pool.dialing = s.pool.dialing)
    (outside : ∀ spare, (s.callers g).phase ≠ .dialing spare ∨
      caller.phase = .dialing spare) :
    next.pool.dialing = true → ∃ g, next.Dials g := by
  intro dialing
  obtain ⟨k, spare, dials⟩ := busy (kept ▸ dialing)
  refine ⟨k, spare, ?_⟩
  rw [same, Function.update_apply]
  split_ifs with own
  · exact (outside spare).resolve_left (not_not.mpr (own ▸ dials))
  · exact dials

theorem busy_pool (busy : s.pool.dialing = true → ∃ g, s.Dials g)
    (same : next.callers = s.callers) (kept : next.pool.dialing = s.pool.dialing) :
    next.pool.dialing = true → ∃ g, next.Dials g := by
  intro dialing
  obtain ⟨k, spare, dials⟩ := busy (kept ▸ dialing)
  exact ⟨k, spare, same ▸ dials⟩

theorem busy_look (busy : s.pool.dialing = true → ∃ g, s.Dials g)
    (entering : (s.callers g).phase = .entering) :
    (s.look limits g).pool.dialing = true → ∃ k, (s.look limits g).Dials k := by
  have outside {caller : Caller} (spare : Bool) : (s.callers g).phase ≠ .dialing spare ∨
      caller.phase = .dialing spare :=
    .inl (by simp [entering])
  have looks := looks_look limits s g
  generalize s.look limits g = next at looks
  cases looks with
  | refused problem => exact busy_update busy rfl rfl outside
  | waits _ =>
      exact busy_update busy rfl (congrArg Gate.busy (Pool.gate_pushBack s.pool g)) outside
  | drops => exact busy_update busy rfl (by simp [State.go, State.set]) outside
  | dials spare => exact fun _ => ⟨g, spare, by simp [State.startDial, State.callers_go]⟩
  | serves lane => exact busy_update busy rfl rfl outside

theorem busy_step {action : Action} (busy : s.pool.dialing = true → ∃ g, s.Dials g)
    (taken : step limits s action = some next) :
    next.pool.dialing = true → ∃ g, next.Dials g := by
  cases action with
  | passes later =>
      simp only [step] at taken
      split_ifs at taken
      obtain rfl := Option.some.inj taken
      exact busy
  | calls g | checks g | givesUp g | resumes g | returns g =>
      simp only [step] at taken
      split at taken
      · next before =>
          first
          | split_ifs at taken <;> obtain rfl := Option.some.inj taken <;>
              exact busy_update busy rfl rfl fun _ => .inl (by simp [before])
          | obtain rfl := Option.some.inj taken
            exact busy_update busy rfl (by simp [State.go, State.set])
              fun _ => .inl (by simp [before])
      · cases taken
  | cancels g =>
      obtain rfl := Option.some.inj taken
      exact busy_update busy rfl rfl fun _ => or_iff_not_imp_left.mpr not_not.mp
  | expires g =>
      simp only [step] at taken
      split_ifs at taken
      obtain rfl := Option.some.inj taken
      exact busy_update busy rfl rfl fun _ => or_iff_not_imp_left.mpr not_not.mp
  | looks g =>
      simp only [step] at taken
      split at taken
      · next entering =>
          obtain rfl := Option.some.inj taken
          exact busy_look busy entering
      · cases taken
  | wakes g =>
      simp only [step] at taken
      split at taken
      · next waiting =>
          split_ifs at taken
          obtain rfl := Option.some.inj taken
          exact busy_update busy rfl rfl fun _ => .inl (by simp [waiting])
      · cases taken
  | dialFails g error jitter =>
      simp only [step] at taken
      split at taken
      · next spare dials =>
          split_ifs at taken
          obtain rfl := Option.some.inj taken
          intro dialing
          have idle := Pool.dialing_notify { s.pool with dialing := false }
          unfold State.dialFails at dialing
          dsimp only at dialing
          split_ifs at dialing <;> cases idle.symm.trans dialing
      · cases taken
  | dialSucceeds g =>
      simp only [step] at taken
      split at taken
      · obtain rfl := Option.some.inj taken
        intro dialing
        have idle := Pool.dialing_notify { s.pool with dialing := false }
        unfold State.dialSucceeds at dialing
        dsimp only at dialing
        split_ifs at dialing <;> cases idle.symm.trans dialing
      · cases taken
  | puts id =>
      simp only [step] at taken
      split at taken
      · next lane _ =>
        split_ifs at taken
        obtain rfl := Option.some.inj taken
        refine @busy_pool s (s.put limits lane) busy rfl ?_
        unfold State.put
        dsimp only
        split_ifs
        · exact Pool.dialing_remove _ _
        · exact Pool.dialing_notify _
      · cases taken
  | drains id =>
      obtain rfl := Option.some.inj taken
      exact busy_pool busy rfl (Pool.dialing_notify _)
  | sweeps =>
      obtain rfl := Option.some.inj taken
      exact busy_pool busy rfl (Pool.dialing_remove _ _)
  | closes =>
      obtain rfl := Option.some.inj taken
      exact busy_pool busy rfl (by simp [State.close])
  | changes id closed bulk =>
      obtain rfl := Option.some.inj taken
      exact busy_pool busy rfl rfl
  | reorders all =>
      simp only [step] at taken
      split_ifs at taken
      obtain rfl := Option.some.inj taken
      exact busy_pool busy rfl rfl

theorem busy_reachable (reached : (machine limits).Reachable s) :
    s.pool.dialing = true → ∃ g, s.Dials g := by
  apply Machine.ReachableBy.invariant
    (P := fun s : State => s.pool.dialing = true → ∃ g, s.Dials g) _ _ reached
  · rintro s rfl dialing
    cases dialing
  · exact fun _ _ _ _ busy _ taken => busy_step busy taken

/-! ## Nobody is stranded -/

/-- What a caller does next when nothing happens to it; one that waits is to be notified. -/
def State.own (s : State) (g : Nat) : Option Action :=
  match (s.callers g).phase with
  | .absent | .returned _ => none
  | .top => some (.checks g)
  | .entering => some (.looks g)
  | .waiting => some (.wakes g)
  | .dialing _ => some (.dialSucceeds g)
  | .failed _ _ => some (.resumes g)
  | .leaving _ => some (.returns g)

/-- A caller can go on. -/
def State.Goes (limits : Limits) (s : State) (g : Nat) : Prop :=
  ∃ action next, s.own g = some action ∧ step limits s action = some next

theorem goes_of_up (up : (s.callers g).phase.place = .up) : s.Goes limits g := by
  unfold State.Goes State.own
  cases phase : (s.callers g).phase with
  | absent | returned _ | waiting => simp [phase, Phase.place] at up
  | top =>
      refine ⟨_, if (s.callers g).cancelled then s.go g (.leaving (.error .cancelled))
        else s.go g .entering, rfl, ?_⟩
      simp only [step, phase]
      split_ifs <;> rfl
  | entering => exact ⟨_, s.look limits g, rfl, by simp only [step, phase]⟩
  | dialing spare => exact ⟨_, s.dialSucceeds g, rfl, by simp only [step, phase]⟩
  | failed spare error =>
      refine ⟨_, if spare ∧ (s.callers g).cancelled = false then
        s.set g ({ · with phase := .top, dialErr := some error })
        else s.go g (.leaving (.error (.dial error))), rfl, ?_⟩
      simp only [step, phase]
      split_ifs <;> rfl
  | leaving result => exact ⟨_, _, rfl, by simp only [step, phase]; rfl⟩

theorem goes_of_token (waits : s.Waits g) (token : (g, true) ∈ s.pool.waiters) :
    s.Goes limits g := by
  have waiting : (s.callers g).phase = .waiting := waits
  refine ⟨.wakes g, { s with pool := s.pool.received g }.go g .top, ?_, ?_⟩
  · simp only [State.own, waiting]
  · simp only [step, waiting, if_pos token]

/-- How callers wait. -/
structure Attended (limits : Limits) (s : State) : Prop where
  /-- a call is in the queue once, and only while it is not over -/
  distinct : (s.pool.waiters.map Prod.fst).Nodup
  present : ∀ w ∈ s.pool.waiters, (s.callers w.1).phase ≠ .absent ∧
    ∀ result, (s.callers w.1).phase ≠ .returned result
  queued : ∀ g, s.Waits g → ∃ notified, (g, notified) ∈ s.pool.waiters
  /-- only the first in the queue is notified -/
  single : ∀ w ∈ s.pool.waiters.tail, w.2 = false
  /-- the first sleeps only while another caller dials for an open pool -/
  blocked : ∀ g, s.pool.waiters.head? = some (g, false) → s.Waits g →
    s.pool.closed = false ∧ ∃ k, s.Dials k
  /-- while a caller waits, one can go on -/
  moves : ∀ g, s.Waits g → ∃ k, s.Goes limits k

/--
In every run of the pool no caller of `get` is forgotten in its queue.  The first that
waits has been notified unless the pool is open and another caller dials, so that as long
as anyone waits some caller can go on, after `close` as well as before.
-/
theorem waiters_attended (reached : (machine limits).Reachable s) : Attended limits s := by
  have sound := turnstile_reachable reached
  have busy := busy_reachable reached
  have blocked : ∀ g, s.pool.waiters.head? = some (g, false) → s.Waits g →
      s.pool.closed = false ∧ ∃ k, s.Dials k := by
    intro g first waits
    obtain ⟨dialing, open_⟩ := sound.awake g first (congrArg Phase.place waits)
    exact ⟨open_, busy dialing⟩
  refine ⟨sound.distinct, ?_, ?_, sound.single, blocked, ?_⟩
  · intro w member
    have there := sound.present w.1 (List.mem_map_of_mem member)
    constructor
    · exact fun absent => there (congrArg Phase.place absent)
    · exact fun result returned => there (congrArg Phase.place returned)
  · intro g waits
    obtain ⟨⟨k, notified⟩, member, rfl⟩ :=
      List.mem_map.mp (sound.queued g (congrArg Phase.place waits))
    exact ⟨notified, member⟩
  · intro g waits
    have member := sound.queued g (congrArg Phase.place waits)
    cases queue : s.pool.waiters with
    | nil =>
        rw [Turnstile.ids, show s.turnstile.queue = [] from queue] at member
        cases member
    | cons first rest =>
        obtain ⟨k, notified⟩ := first
        have listed : (k, notified) ∈ s.pool.waiters := queue ▸ List.mem_cons_self
        by_cases sleeps : s.Waits k
        · cases notified with
          | true => exact ⟨k, goes_of_token sleeps listed⟩
          | false =>
              have isFirst : s.pool.waiters.head? = some (k, false) := by
                rw [queue, List.head?_cons]
              obtain ⟨_, j, spare, dials⟩ := blocked k isFirst sleeps
              exact ⟨j, goes_of_up (congrArg Phase.place dials)⟩
        · refine ⟨k, goes_of_up ?_⟩
          have there := sound.present k (List.mem_map_of_mem listed)
          cases placed : (s.callers k).phase.place with
          | away => exact absurd placed there
          | up => rfl
          | asleep =>
              refine absurd ?_ sleeps
              unfold State.Waits
              cases phase : (s.callers k).phase <;> simp_all [Phase.place]

/-- Two callers wait for the dial of a third. -/
def twoWait : List Action :=
  [.calls 0, .checks 0, .looks 0, .calls 1, .checks 1, .looks 1, .calls 2, .checks 2, .looks 2]

theorem waiters_attended_twoWait : ∃ s, (machine someLimits).run {} twoWait = some s ∧
    s.pool.waiters = [(1, false), (2, false)] ∧ Attended someLimits s := by
  have ends : (machine someLimits).run {} twoWait = some _ := rfl
  exact ⟨_, ends, rfl, waiters_attended (Machine.run_reachable (.start rfl) ends)⟩

/-! ## First come, first served -/

/-- The runs of a pool from a state on. -/
def onward (limits : Limits) (s : State) : Machine State Action where
  start t := t = s
  step := step limits

end Veil.Core.Dialing

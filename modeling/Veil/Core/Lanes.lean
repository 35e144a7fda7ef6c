import Veil.Core.Cooldown
import Mathlib.Data.List.Nodup

/-!
# The lanes of a pool are counted

A lane in the pool and the dial under way are what `total` counts, and the limits
of the configuration bound it.  A caller is only given a lane that the pool has
and that has room, and a pool that is closed has none.
-/

namespace Veil.Core.Dialing

open Lib

namespace Pool

/-- What the pool counts is what it has; the next lane is given the number `lanes`. -/
structure Accounted (limits : Limits) (lanes : Nat) (p : Pool) : Prop where
  total : p.total = p.all.length + if p.dialing then 1 else 0
  bounded : p.total ≤ limits.maxConnections
  distinct : (p.all.map Lane.id).Nodup
  below : ∀ lane ∈ p.all, lane.id < lanes
  room : ∀ lane ∈ p.all, lane.active ≤ Mux.maxStreams
  spare : p.idle ≤ limits.maxIdle
  ended : p.closed = true → p.all = []

variable {limits : Limits} {lanes : Nat} {p q : Pool}

/-! ## Small changes -/

@[simp]
theorem all_notify (p : Pool) : p.notify.all = p.all := by
  unfold notify
  split <;> rfl

@[simp]
theorem total_notify (p : Pool) : p.notify.total = p.total := by
  unfold notify
  split <;> rfl

@[simp]
theorem dialing_notify (p : Pool) : p.notify.dialing = p.dialing := by
  unfold notify
  split <;> rfl

theorem Accounted.same (held : p.Accounted limits lanes) (all : q.all = p.all)
    (total : q.total = p.total) (dialing : q.dialing = p.dialing)
    (closed : q.closed = p.closed) : q.Accounted limits lanes where
  total := by rw [total, all, dialing, held.total]
  bounded := total ▸ held.bounded
  distinct := all ▸ held.distinct
  below := all ▸ held.below
  room := all ▸ held.room
  spare := by
    unfold idle
    rw [all]
    exact held.spare
  ended := by
    rw [all, closed]
    exact held.ended

theorem Accounted.notify (held : p.Accounted limits lanes) :
    p.notify.Accounted limits lanes :=
  held.same (all_notify p) (total_notify p) (dialing_notify p) (closed_notify p)

theorem Accounted.leaveQueue (held : p.Accounted limits lanes) (g : Nat) :
    (p.leaveQueue g).Accounted limits lanes := by
  unfold Pool.leaveQueue
  split_ifs
  · exact Accounted.notify (held.same rfl rfl rfl rfl)
  · exact held

theorem Accounted.pushBack (held : p.Accounted limits lanes) (g : Nat) :
    (p.pushBack g).Accounted limits lanes := by
  unfold Pool.pushBack
  split_ifs
  · exact held
  · exact held.same rfl rfl rfl rfl

theorem Accounted.perm (held : p.Accounted limits lanes) {all : List Lane}
    (same : all.Perm p.all) : Accounted limits lanes { p with all } where
  total := by
    rw [held.total, same.length_eq]
  bounded := held.bounded
  distinct := (same.map Lane.id).nodup_iff.mpr held.distinct
  below lane member := held.below lane (same.subset member)
  room lane member := held.room lane (same.subset member)
  spare := by
    unfold idle
    rw [(same.filter _).length_eq]
    exact held.spare
  ended closed := by
    rw [held.ended closed] at same
    exact same.eq_nil

/-! ## Removing lanes -/

theorem idle_filter (p : Pool) (kept : Lane → Bool) :
    idle { p with all := p.all.filter kept } ≤ p.idle :=
  ((List.filter_sublist (p := kept)).filter _).length_le

theorem Accounted.remove (held : p.Accounted limits lanes) (gone : Lane → Bool) :
    (p.remove gone).Accounted limits lanes := by
  unfold Pool.remove
  split_ifs
  · apply Accounted.notify
    have parts := List.length_eq_length_filter_add (l := p.all) gone
    have counted := held.total
    constructor
    · simp only
      omega
    · have bounded := held.bounded
      simp only
      omega
    · exact held.distinct.sublist ((List.filter_sublist).map _)
    · exact fun lane member => held.below lane (List.mem_of_mem_filter member)
    · exact fun lane member => held.room lane (List.mem_of_mem_filter member)
    · exact (idle_filter p _).trans held.spare
    · intro closed
      simp only [held.ended closed, List.filter_nil]
  · exact held

theorem all_removed (p : Pool) : (p.remove fun _ => true).all = [] := by
  cases lanes : p.all with
  | nil => simp [Pool.remove, lanes]
  | cons first rest => simp [Pool.remove, lanes]

/-! ## Changing lanes -/

/-- No lane becomes idle, so no more lanes are idle. -/
theorem idle_change {id : Nat} {f : Lane → Lane}
    (busy : ∀ lane ∈ p.all, lane.id = id → (f lane).active = 0 → lane.active = 0) :
    (p.change id f).idle ≤ p.idle := by
  simp only [idle, change, ← List.countP_eq_length_filter, List.countP_map]
  apply List.countP_mono_left
  intro lane member
  simp only [Function.comp_apply, decide_eq_true_eq]
  split_ifs with here
  · exact busy lane member here
  · exact fun none_ => none_

theorem Accounted.change (held : p.Accounted limits lanes) {id : Nat} {f : Lane → Lane}
    (same : ∀ lane, lane.id = id → (f lane).id = lane.id)
    (room : ∀ lane ∈ p.all, lane.id = id → (f lane).active ≤ Mux.maxStreams)
    (spare : (p.change id f).idle ≤ limits.maxIdle) :
    (p.change id f).Accounted limits lanes := by
  have ids : (p.change id f).all.map Lane.id = p.all.map Lane.id := by
    simp only [Pool.change, List.map_map]
    apply List.map_congr_left
    intro lane _
    simp only [Function.comp_apply]
    split_ifs with here
    · exact same lane here
    · rfl
  constructor
  · rw [Pool.change, List.length_map]
    exact held.total
  · exact held.bounded
  · exact ids ▸ held.distinct
  · intro lane member
    have named := List.mem_map_of_mem (f := Lane.id) member
    rw [ids] at named
    obtain ⟨old, listed, number⟩ := List.mem_map.mp named
    exact number ▸ held.below old listed
  · intro lane member
    obtain ⟨old, listed, rfl⟩ := List.mem_map.mp member
    split_ifs with here
    · exact room old listed here
    · exact held.room old listed
  · exact spare
  · intro closed
    simp only [Pool.change, held.ended closed, List.map_nil]

/-- What a snapshot shows of a lane is not counted, nor is whether it drains. -/
theorem Accounted.mark (held : p.Accounted limits lanes) (id : Nat) {f : Lane → Lane}
    (number : ∀ lane, (f lane).id = lane.id)
    (active : ∀ lane, (f lane).active = lane.active) :
    (p.change id f).Accounted limits lanes := by
  apply held.change fun lane _ => number lane
  · intro lane member _
    rw [active]
    exact held.room lane member
  · refine (idle_change fun lane _ _ none_ => ?_).trans held.spare
    rw [← active]
    exact none_

/-- A lane that goes may have been changed before. -/
theorem remove_change (p : Pool) {id : Nat} {f : Lane → Lane}
    (same : ∀ lane, lane.id = id → (f lane).id = lane.id) :
    (p.change id f).remove (fun lane => lane.id = id) =
      p.remove fun lane => lane.id = id := by
  have number (lane : Lane) : (if lane.id = id then f lane else lane).id = lane.id := by
    split_ifs with here
    · exact same lane here
    · rfl
  have kept : (p.change id f).all.filter (fun lane => !decide (lane.id = id)) =
      p.all.filter fun lane => !decide (lane.id = id) := by
    simp only [Pool.change, List.filter_map, Function.comp_def, number]
    conv_rhs => rw [← List.map_id (List.filter _ p.all)]
    apply List.map_congr_left
    intro lane member
    rw [List.mem_filter, Bool.not_eq_true', decide_eq_false_iff_not] at member
    exact if_neg member.2
  have count : ((p.change id f).all.filter fun lane => decide (lane.id = id)).length =
      (p.all.filter fun lane => decide (lane.id = id)).length := by
    simp only [Pool.change, List.filter_map, Function.comp_def, number, List.length_map]
  have any : ((p.change id f).all.any fun lane => decide (lane.id = id)) =
      p.all.any fun lane => decide (lane.id = id) := by
    simp only [Pool.change, List.any_map, Function.comp_def, number]
  unfold Pool.remove
  rw [any]
  split_ifs with some_
  · rw [kept, count]
    rfl
  · have away (lane : Lane) (member : lane ∈ p.all) : lane.id ≠ id := by
      intro here
      exact some_ (List.any_eq_true.mpr ⟨lane, member, decide_eq_true here⟩)
    have none_ : (p.change id f).all = p.all := by
      conv_rhs => rw [← List.map_id p.all]
      exact List.map_congr_left fun lane member => if_neg (away lane member)
    show { p with all := (p.change id f).all } = p
    rw [none_]

end Pool

/-! ## What a caller does -/

variable {limits : Limits} {s next : State} {g : Nat}

theorem accounted_startDial (held : s.pool.Accounted limits s.lanes)
    (room : s.pool.total < limits.maxConnections) (free : s.pool.dialing = false)
    (spare : Bool) : (s.startDial g spare).pool.Accounted limits s.lanes := by
  apply Pool.Accounted.leaveQueue
  have counted := held.total
  rw [free] at counted
  refine { held with total := ?_, bounded := room }
  simp only [if_true, counted, Bool.false_eq_true, if_false]
  omega

/-- A lane that has room is given to one more stream. -/
theorem accounted_serve (held : s.pool.Accounted limits s.lanes) {lane : Lane}
    (listed : lane ∈ s.pool.all) (usable : lane.usable limits s.now = true) :
    (s.serve g lane).pool.Accounted limits s.lanes := by
  have room : lane.active < Mux.maxStreams := by
    unfold Lane.usable at usable
    simp only [Bool.and_eq_true, decide_eq_true_eq] at usable
    exact usable.2
  refine held.change (fun _ _ => rfl) ?_ ((Pool.idle_change ?_).trans held.spare)
  · intro other member same
    obtain rfl := List.inj_on_of_nodup_map held.distinct member listed same
    exact room
  · exact fun _ _ _ none_ => (Nat.succ_ne_zero _ none_).elim

theorem accounted_settle (held : s.pool.Accounted limits s.lanes) {best : Option Lane}
    (chosen : ∀ lane, best = some lane →
      lane ∈ s.pool.all ∧ lane.usable limits s.now = true) :
    (s.settle limits g best).pool.Accounted limits s.lanes := by
  unfold State.settle
  dsimp only
  split_ifs with cold starts queues
  · exact held
  · simp only [Bool.and_eq_true, Bool.not_eq_true', decide_eq_true_eq] at starts
    exact accounted_startDial held starts.1.2 starts.2 _
  · exact held.pushBack g
  · cases best with
    | none => exact held
    | some lane =>
        obtain ⟨listed, usable⟩ := chosen lane rfl
        exact accounted_serve held listed usable

theorem best_chosen {lane : Lane} (best : s.pool.best limits s.now = some lane) :
    lane ∈ s.pool.all ∧ lane.usable limits s.now = true := by
  rcases best_of_better.1 lane best with before | chosen
  · cases before
  · exact chosen

theorem accounted_look (held : s.pool.Accounted limits s.lanes) :
    (s.look limits g).pool.Accounted limits s.lanes := by
  unfold State.look
  split_ifs
  · exact held
  · exact held.pushBack g
  · exact (held.remove _).leaveQueue g
  · split
    · exact held
    · exact accounted_settle held fun lane best => best_chosen best

theorem lanes_look (limits : Limits) (s : State) (g : Nat) :
    (s.look limits g).lanes = s.lanes := by
  have looks := looks_look limits s g
  generalize s.look limits g = next at looks
  cases looks <;> rfl

theorem accounted_dialFails (held : s.pool.Accounted limits s.lanes)
    (busy : s.pool.dialing = true) (spare : Bool) (error : Text) (jitter : Nat) :
    (s.dialFails g spare error jitter).pool.Accounted limits s.lanes := by
  have counted := held.total
  rw [if_pos busy] at counted
  have bounded := held.bounded
  have fewer : Pool.Accounted limits s.lanes
      { s.pool with dialing := false, total := s.pool.total - 1 } := by
    refine { held with total := ?_, bounded := ?_ }
    · simp only [Bool.false_eq_true, if_false]
      omega
    · simp only
      omega
  have kept : Pool.Accounted limits s.lanes
      { Pool.notify { s.pool with dialing := false } with
        total := (Pool.notify { s.pool with dialing := false }).total - 1 } :=
    fewer.same (Pool.all_notify _) (congrArg (· - 1) (Pool.total_notify _))
      (Pool.dialing_notify _) (Pool.closed_notify _)
  unfold State.dialFails
  dsimp only
  split_ifs
  · exact kept.same rfl rfl rfl rfl
  · exact kept

theorem accounted_dialSucceeds (held : s.pool.Accounted limits s.lanes)
    (busy : s.pool.dialing = true) :
    (s.dialSucceeds g).pool.Accounted limits (s.dialSucceeds g).lanes := by
  have counted := held.total
  rw [if_pos busy] at counted
  have bounded := held.bounded
  unfold State.dialSucceeds
  dsimp only
  split_ifs with closed
  · have fewer : Pool.Accounted limits s.lanes
        { s.pool with dialing := false, total := s.pool.total - 1 } := by
      refine { held with total := ?_, bounded := ?_ }
      · simp only [Bool.false_eq_true, if_false]
        omega
      · simp only
        omega
    exact fewer.same (Pool.all_notify _) (congrArg (· - 1) (Pool.total_notify _))
      (Pool.dialing_notify _) (Pool.closed_notify _)
  · rw [Pool.closed_notify] at closed
    have fresh : ∀ lane ∈ s.pool.all, lane.id ≠ s.lanes :=
      fun lane member => (held.below lane member).ne
    constructor
    · simp [State.go, State.set, counted]
    · simpa [State.go, State.set] using bounded
    · simp only [State.go, State.set, Pool.all_notify, List.map_append, List.map_cons,
        List.map_nil]
      refine List.nodup_append.mpr ⟨held.distinct, List.nodup_singleton _, ?_⟩
      rintro id member other last rfl
      obtain ⟨lane, listed, number⟩ := List.mem_map.mp member
      exact fresh lane listed (number.trans (List.mem_singleton.mp last))
    · intro lane member
      simp only [State.go, State.set, Pool.all_notify, List.mem_append,
        List.mem_singleton] at member ⊢
      rcases member with old | rfl
      · exact (held.below lane old).trans (Nat.lt_succ_self _)
      · exact Nat.lt_succ_self _
    · intro lane member
      simp only [State.go, State.set, Pool.all_notify, List.mem_append,
        List.mem_singleton] at member
      rcases member with old | rfl
      · exact held.room lane old
      · show 1 ≤ Mux.maxStreams
        decide
    · have spare := held.spare
      unfold Pool.idle at spare ⊢
      simpa [State.go, State.set, List.filter_append] using spare
    · intro ended
      exact absurd ended (by simpa [State.go, State.set] using closed)

/-! ## What else happens to the pool -/

theorem accounted_put (held : s.pool.Accounted limits s.lanes) {lane : Lane}
    (listed : lane ∈ s.pool.all) :
    (s.put limits lane).pool.Accounted limits s.lanes := by
  have same : ∀ other : Lane, other.id = lane.id →
      ({ lane with active := lane.active - 1, since := s.now } : Lane).id = other.id :=
    fun other here => here.symm
  unfold State.put
  dsimp only
  split_ifs with drop
  · rw [Pool.remove_change s.pool same]
    exact held.remove _
  · apply Pool.Accounted.notify
    apply held.change same
    · exact fun _ _ _ => (Nat.sub_le _ _).trans (held.room lane listed)
    · simp only [Bool.or_eq_true, Bool.and_eq_true, decide_eq_true_eq, not_or, not_and,
        not_lt] at drop
      by_cases idle : lane.active - 1 = 0
      · exact (drop.2 idle).2
      · exact (Pool.idle_change fun _ _ _ none_ => absurd none_ idle).trans held.spare

theorem accounted_close (held : s.pool.Accounted limits s.lanes) :
    s.close.pool.Accounted limits s.lanes := by
  have empty : s.close.pool.all = [] := Pool.all_removed _
  unfold State.close at empty ⊢
  dsimp only at empty ⊢
  -- the pool is closed before its lanes are removed
  have open_ : Pool.Accounted limits s.lanes (s.pool.notify.remove fun _ => true) :=
    held.notify.remove _
  have parts : (Pool.notify { s.pool with closed := true }).remove (fun _ => true) =
      { s.pool.notify.remove fun _ => true with closed := true } := by
    unfold Pool.remove Pool.notify
    split <;> simp only <;> split <;> simp_all
  rw [parts] at empty ⊢
  exact { open_ with ended := fun _ => empty }

/-- What a step leaves accounted for. -/
theorem accounted_step (held : s.pool.Accounted limits s.lanes)
    (marked : ∀ g, s.Dials g → s.pool.dialing = true) {action : Action}
    (taken : step limits s action = some next) :
    next.pool.Accounted limits next.lanes := by
  cases action with
  | passes later =>
      simp only [step] at taken
      split_ifs at taken
      obtain rfl := Option.some.inj taken
      exact held
  | calls g | checks g | givesUp g | resumes g =>
      simp only [step] at taken
      split at taken
      · first
        | split_ifs at taken <;> obtain rfl := Option.some.inj taken <;> exact held
        | obtain rfl := Option.some.inj taken
          exact held
      · cases taken
  | cancels g =>
      obtain rfl := Option.some.inj taken
      exact held
  | expires g =>
      simp only [step] at taken
      split_ifs at taken
      obtain rfl := Option.some.inj taken
      exact held
  | looks g =>
      simp only [step] at taken
      split at taken
      · obtain rfl := Option.some.inj taken
        rw [lanes_look]
        exact accounted_look held
      · cases taken
  | wakes g =>
      simp only [step] at taken
      split at taken
      · split_ifs at taken
        obtain rfl := Option.some.inj taken
        exact held.same rfl rfl rfl rfl
      · cases taken
  | dialFails g error jitter =>
      simp only [step] at taken
      split at taken
      · next spare dials =>
          split_ifs at taken
          obtain rfl := Option.some.inj taken
          have counted := accounted_dialFails (g := g) held (marked g ⟨spare, dials⟩) spare
            error jitter
          unfold State.dialFails at counted ⊢
          dsimp only at counted ⊢
          split_ifs at counted ⊢ <;> exact counted
      · cases taken
  | dialSucceeds g =>
      simp only [step] at taken
      split at taken
      · next spare dials =>
          obtain rfl := Option.some.inj taken
          exact accounted_dialSucceeds held (marked g ⟨spare, dials⟩)
      · cases taken
  | returns g =>
      simp only [step] at taken
      split at taken
      · obtain rfl := Option.some.inj taken
        exact held.leaveQueue g
      · cases taken
  | puts id =>
      simp only [step] at taken
      split at taken
      · next lane found =>
          split_ifs at taken
          obtain rfl := Option.some.inj taken
          exact accounted_put held (List.mem_of_find?_eq_some found)
      · cases taken
  | drains id =>
      obtain rfl := Option.some.inj taken
      apply Pool.Accounted.notify
      exact held.mark id (fun _ => rfl) fun _ => rfl
  | sweeps =>
      obtain rfl := Option.some.inj taken
      exact held.remove _
  | closes =>
      obtain rfl := Option.some.inj taken
      exact accounted_close held
  | changes id closed bulk =>
      obtain rfl := Option.some.inj taken
      exact held.mark id (fun _ => rfl) fun _ => rfl
  | reorders all =>
      simp only [step] at taken
      split_ifs at taken with same
      obtain rfl := Option.some.inj taken
      exact held.perm (List.isPerm_iff.mp same)

/-! ## Runs -/

/-- A caller that is given a lane finds it in the pool, with room. -/
theorem given_look {id : Nat}
    (given : ((s.look limits g).callers g).phase = .leaving (.ok id)) :
    ∃ lane ∈ s.pool.all, lane.id = id ∧ lane.usable limits s.now = true ∧
      s.look limits g = s.serve g lane := by
  unfold State.look at given ⊢
  split_ifs at given ⊢
  · simp [State.callers_go] at given
  · simp [State.wait, State.set] at given
  · simp [State.callers_go] at given
  cases chosen : s.pool.best limits s.now with
  | none =>
      rw [chosen] at given
      split at given
      · simp [State.callers_go] at given
      · unfold State.settle at given
        dsimp only at given
        split_ifs at given <;>
          simp [State.callers_go, State.startDial, State.wait, State.set] at given
  | some lane =>
      obtain ⟨listed, usable⟩ := best_chosen chosen
      rw [chosen] at given
      simp only at given ⊢
      unfold State.settle at given ⊢
      dsimp only at given ⊢
      split_ifs at given ⊢
      · simp [State.callers_go] at given
      · simp [State.callers_go, State.startDial] at given
      · simp [State.wait, State.set] at given
      · refine ⟨lane, listed, ?_, usable, rfl⟩
        simpa [State.serve, State.callers_go] using given

/-- A lane that was dialed enters a pool that is not closed. -/
theorem dialSucceeds_cases (s : State) (g : Nat) :
    (s.pool.closed = true ∧ (s.dialSucceeds g).pool.closed = true ∧
      (s.dialSucceeds g).pool.all = s.pool.all ∧
      ((s.dialSucceeds g).callers g).phase = .leaving (.error .closed)) ∨
    ∃ lane : Lane, (s.dialSucceeds g).pool.all = s.pool.all ++ [lane] ∧ lane.active = 1 ∧
      ((s.dialSucceeds g).callers g).phase = .leaving (.ok lane.id) := by
  have all := Pool.all_notify { s.pool with dialing := false }
  have same := Pool.closed_notify { s.pool with dialing := false }
  unfold State.dialSucceeds
  dsimp only at all same ⊢
  generalize Pool.notify { s.pool with dialing := false } = p at all same ⊢
  split_ifs with closed
  · exact .inl ⟨same.symm.trans closed, closed, all, by simp [State.callers_go]⟩
  · refine .inr ⟨{ id := s.lanes, active := 1 }, ?_, rfl, by simp [State.callers_go]⟩
    exact congrArg (· ++ [_]) all

/-- How a pool counts. -/
structure Counted (limits : Limits) (s : State) : Prop where
  accounted : s.pool.Accounted limits s.lanes
  /-- a lane is given to a caller only when it can be used, and the stream is counted -/
  given : ∀ g id next, step limits s (.looks g) = some next →
    (next.callers g).phase = .leaving (.ok id) →
    ∃ lane ∈ s.pool.all, lane.id = id ∧ lane.usable limits s.now = true ∧
      next.pool.all = s.pool.all.map fun other =>
        if other.id = id then { other with active := other.active + 1 } else other
  /-- the place of a dial is given back or taken by the lane that was dialed -/
  dialed : ∀ g next, step limits s (.dialSucceeds g) = some next →
    (next.pool.closed = true ∧ next.pool.all = [] ∧
      (next.callers g).phase = .leaving (.error .closed)) ∨
    ∃ lane, next.pool.all = s.pool.all ++ [lane] ∧ lane.active = 1 ∧
      (next.callers g).phase = .leaving (.ok lane.id)

theorem accounted_reachable (sane : 0 ≤ limits.maxConnections)
    (reached : (machine limits).Reachable s) : s.pool.Accounted limits s.lanes := by
  apply Machine.ReachableBy.invariant
    (P := fun s : State => s.pool.Accounted limits s.lanes) _ _ reached
  · rintro s rfl
    exact ⟨rfl, sane, List.nodup_nil, by simp, by simp, Nat.zero_le _, fun _ => rfl⟩
  · intro s action next before held _ taken
    exact accounted_step held (inv_reachable before).single.marked taken

/--
In every run of calls of `get`, `put`, `drain`, `expire` and `close` the pool counts
its lanes and the dial under way, and stays within `MaxConnections`, `MaxIdle` and
`MaxStreams`.  A caller is only given a lane that is open, does not drain and has
room; once the pool is closed it has no lane and gets none.
-/
theorem pool_counted (sane : 0 ≤ limits.maxConnections)
    (reached : (machine limits).Reachable s) : Counted limits s := by
  have held := accounted_reachable sane reached
  refine ⟨held, ?_, ?_⟩
  · intro g id next taken given
    simp only [step] at taken
    split at taken
    · obtain rfl := Option.some.inj taken
      obtain ⟨lane, listed, rfl, usable, same⟩ := given_look given
      refine ⟨lane, listed, rfl, usable, ?_⟩
      rw [same]
      rfl
    · cases taken
  · intro g next taken
    simp only [step] at taken
    split at taken
    · next spare dials =>
        obtain rfl := Option.some.inj taken
        rcases dialSucceeds_cases s g with ⟨ended, closed, all, refused⟩ | enters
        · exact .inl ⟨closed, all.trans (held.ended ended), refused⟩
        · exact .inr enters
    · cases taken

/-- A lane that was dialed is given to a second caller. -/
def twoStreams : List Action :=
  [.calls 0, .checks 0, .looks 0, .dialSucceeds 0, .returns 0, .calls 1, .checks 1, .looks 1]

theorem pool_counted_twoStreams : ∃ s, (machine someLimits).run {} twoStreams = some s ∧
    s.pool.total = 1 ∧ s.pool.all.map Lane.active = [2] ∧ Counted someLimits s := by
  have ends : (machine someLimits).run {} twoStreams = some _ := rfl
  exact ⟨_, ends, rfl, rfl,
    pool_counted (by decide) (Machine.run_reachable (.start rfl) ends)⟩

end Veil.Core.Dialing

import Mathlib.Data.List.Nodup
import Mathlib.Logic.Function.Basic
import Veil.Lib.Machine

/-!
# Queues that wake their first

Clients that cannot go on join a queue and fall asleep.  Only the first in the queue is
notified, by a token that it takes when it wakes, and whenever another one becomes the
first it is notified too.  A client goes to sleep only behind another one or while
something is under way whose end notifies the first, so nobody sleeps without a reason.
The order of the queue never changes, and no one is let in ahead of anyone.
-/

namespace Veil.Lib

/-- Where a client is. -/
inductive Turnstile.Place where
  | away
  | up
  | asleep
  deriving DecidableEq

/-- The queue with its tokens, the clients, and whether something is under way. -/
@[ext]
structure Turnstile (ι : Type*) where
  queue : List (ι × Bool) := []
  place : ι → Turnstile.Place := fun _ => .away
  busy : Bool := false
  closed : Bool := false

namespace Turnstile

variable {ι : Type*}

/-! ## Operations on the queue -/

/-- The first is notified. -/
def rouse : List (ι × Bool) → List (ι × Bool)
  | [] => []
  | (first, _) :: rest => (first, true) :: rest

/-- The clients in the queue. -/
def ids (queue : List (ι × Bool)) : List ι :=
  queue.map Prod.fst

/-- The first that is not notified was the first before, and not notified. -/
def Stays (before after : List (ι × Bool)) : Prop :=
  ∀ k, after.head? = some (k, false) → before.head? = some (k, false)

/-- Only the first holds a token. -/
def Single (queue : List (ι × Bool)) : Prop :=
  ∀ w ∈ queue.tail, w.2 = false

section Rouse

variable {queue : List (ι × Bool)}

@[simp]
theorem ids_rouse : ids (rouse queue) = ids queue := by
  cases queue <;> rfl

theorem Stays.refl (queue : List (ι × Bool)) : Stays queue queue :=
  fun _ first => first

theorem stays_rouse (before : List (ι × Bool)) : Stays before (rouse queue) := by
  intro k first
  cases queue with
  | nil => cases first
  | cons w rest => simp [rouse] at first

theorem single_rouse (single : Single queue) : Single (rouse queue) := by
  cases queue with
  | nil => exact single
  | cons w rest => exact single

theorem single_filter (single : Single queue) (keep : ι × Bool → Bool) :
    Single (queue.filter keep) := by
  cases queue with
  | nil => exact single
  | cons w rest =>
      intro v member
      rw [List.filter_cons] at member
      split_ifs at member
      · exact single v (List.mem_of_mem_filter member)
      · exact single v (List.mem_of_mem_filter (List.mem_of_mem_tail member))

end Rouse

variable [DecidableEq ι]

def queues (queue : List (ι × Bool)) (k : ι) : Bool :=
  queue.any fun w => w.1 = k

def leave (queue : List (ι × Bool)) (k : ι) : List (ι × Bool) :=
  if queues queue k then rouse (queue.filter fun w => w.1 ≠ k) else queue

def join (queue : List (ι × Bool)) (k : ι) : List (ι × Bool) :=
  if queues queue k then queue else queue ++ [(k, false)]

/-- A client takes its token. -/
def receive (queue : List (ι × Bool)) (k : ι) : List (ι × Bool) :=
  queue.map fun w => if w.1 = k then (k, false) else w

/-- The clients in the queue ahead of one of them. -/
def ahead (queue : List (ι × Bool)) (k : ι) : List ι :=
  (ids queue).takeWhile (· ≠ k)

section Queue

variable {queue : List (ι × Bool)} {j k : ι}

theorem queues_iff : queues queue k = true ↔ k ∈ ids queue := by
  simp [queues, ids]

@[simp]
theorem ids_receive : ids (receive queue k) = ids queue := by
  simp only [ids, receive, List.map_map]
  apply List.map_congr_left
  intro w _
  simp only [Function.comp_apply]
  split_ifs with here
  · exact here.symm
  · rfl

theorem ids_leave : ids (leave queue k) = (ids queue).filter (· ≠ k) := by
  unfold leave
  split_ifs with queued
  · rw [ids_rouse]
    simp only [ids, List.filter_map, Function.comp_def]
  · rw [queues_iff] at queued
    exact (List.filter_eq_self.mpr fun j member => by
      simpa using fun same : j = k => queued (same ▸ member)).symm

theorem ids_join :
    ids (join queue k) = if k ∈ ids queue then ids queue else ids queue ++ [k] := by
  unfold join
  by_cases queued : k ∈ ids queue
  · rw [if_pos (queues_iff.mpr queued), if_pos queued]
  · rw [if_neg (mt queues_iff.mp queued), if_neg queued]
    simp [ids]

theorem stays_leave : Stays queue (leave queue k) := by
  unfold leave
  split_ifs
  · exact stays_rouse queue
  · exact .refl queue

theorem single_leave (single : Single queue) : Single (leave queue k) := by
  unfold leave
  split_ifs
  · exact single_rouse (single_filter single _)
  · exact single

theorem single_join (single : Single queue) : Single (join queue k) := by
  unfold join
  split_ifs
  · exact single
  · cases queue with
    | nil => simp [Single]
    | cons w rest =>
        intro v member
        rw [List.cons_append, List.tail_cons, List.mem_append, List.mem_singleton] at member
        rcases member with old | rfl
        · exact single v old
        · rfl

theorem single_receive (single : Single queue) : Single (receive queue k) := by
  cases queue with
  | nil => exact single
  | cons w rest =>
      intro v member
      rw [receive, List.map_cons, List.tail_cons] at member
      obtain ⟨u, listed, rfl⟩ := List.mem_map.mp member
      split_ifs
      · rfl
      · exact single u listed

/-! ## Who is ahead -/

end Queue

/-! ## The machine -/

inductive Action (ι : Type*) where
  /-- the first is notified for another reason -/
  | rouse
  | arrive (k : ι)
  | sleep (k : ι)
  /-- a client takes its token -/
  | wake (k : ι)
  /-- a client wakes without one -/
  | rise (k : ι)
  /-- the first is notified, and a client leaves the queue and goes on -/
  | quit (k : ι)
  | depart (k : ι)
  /-- a client leaves the queue and begins what others wait for -/
  | begin (k : ι)
  /-- what was under way is over -/
  | finish
  | close

/-- A client goes to another place. -/
def move (t : Turnstile ι) (k : ι) (place : Place) : Turnstile ι :=
  { t with place := Function.update t.place k place }

/-- A client may sleep behind another one, and while something is under way. -/
def MaySleep (t : Turnstile ι) (k : ι) : Prop :=
  t.closed = false ∧ (t.queue.head?.any (fun w => w.1 ≠ k) = true ∨ t.busy = true)

instance (t : Turnstile ι) (k : ι) : Decidable (t.MaySleep k) :=
  inferInstanceAs (Decidable (_ ∧ _))

def step (t : Turnstile ι) : Action ι → Option (Turnstile ι)
  | .rouse => some { t with queue := rouse t.queue }
  | .arrive k => if t.place k = .away then some (t.move k .up) else none
  | .sleep k =>
      if t.place k = .up ∧ t.MaySleep k then
        some ({ t with queue := join t.queue k }.move k .asleep)
      else none
  | .wake k =>
      if t.place k = .asleep ∧ (k, true) ∈ t.queue then
        some ({ t with queue := receive t.queue k }.move k .up)
      else none
  | .rise k => if t.place k = .asleep then some (t.move k .up) else none
  | .quit k =>
      if t.place k = .up then some { t with queue := leave (rouse t.queue) k } else none
  | .depart k =>
      if t.place k = .up then some ({ t with queue := leave t.queue k }.move k .away)
      else none
  | .begin k =>
      if t.place k = .up then some { t with queue := leave t.queue k, busy := true }
      else none
  | .finish => some { t with queue := rouse t.queue, busy := false }
  | .close => some { t with queue := rouse t.queue, closed := true }

def machine : Machine (Turnstile ι) (Action ι) where
  start t := t = {}
  step := step

/-! ## Nobody sleeps without a reason -/

structure Sound (t : Turnstile ι) : Prop where
  distinct : (ids t.queue).Nodup
  present : ∀ k ∈ ids t.queue, t.place k ≠ .away
  queued : ∀ k, t.place k = .asleep → k ∈ ids t.queue
  single : Single t.queue
  /-- the first sleeps without a token only while something is under way -/
  awake : ∀ k, t.queue.head? = some (k, false) → t.place k = .asleep →
    t.busy = true ∧ t.closed = false

namespace Sound

variable {t t' : Turnstile ι} {k : ι}

omit [DecidableEq ι] in
/-- The queue keeps its clients, and no other one sleeps. -/
theorem keep (sound : t.Sound) (same : ids t'.queue = ids t.queue)
    (place : t'.place = t.place) (single : Single t'.queue)
    (awake : ∀ k, t'.queue.head? = some (k, false) → t'.place k = .asleep →
      t'.busy = true ∧ t'.closed = false) : t'.Sound where
  distinct := same ▸ sound.distinct
  present := by
    rw [same, place]
    exact sound.present
  queued := by
    rw [same, place]
    exact sound.queued
  single := single
  awake := awake

omit [DecidableEq ι] in
theorem roused (sound : t.Sound) : Sound { t with queue := rouse t.queue } :=
  sound.keep ids_rouse rfl (single_rouse sound.single)
    fun k first sleeps => sound.awake k (stays_rouse _ k first) sleeps

theorem leave (sound : t.Sound) (up : t.place k ≠ .asleep)
    (busy : t.busy = true → t'.busy = true) (closed : t'.closed = t.closed)
    (queue : t'.queue = Turnstile.leave t.queue k) (place : ∀ j ≠ k, t'.place j = t.place j)
    (own : t'.place k ≠ .asleep) : t'.Sound := by
  have others : ∀ j ∈ ids t'.queue, j ∈ ids t.queue ∧ j ≠ k := by
    intro j member
    rw [queue, ids_leave, List.mem_filter] at member
    simpa using member
  constructor
  · rw [queue, ids_leave]
    exact sound.distinct.filter _
  · intro j member
    rw [place j (others j member).2]
    exact sound.present j (others j member).1
  · intro j sleeps
    have other : j ≠ k := by
      rintro rfl
      exact own sleeps
    rw [place j other] at sleeps
    rw [queue, ids_leave, List.mem_filter]
    exact ⟨sound.queued j sleeps, by simpa using other⟩
  · rw [queue]
    exact single_leave sound.single
  · intro j first sleeps
    have other : j ≠ k := by
      rintro rfl
      exact own sleeps
    rw [place j other] at sleeps
    rw [queue] at first
    obtain ⟨active, open_⟩ := sound.awake j (stays_leave j first) sleeps
    exact ⟨busy active, closed.trans open_⟩

/-- A client that gets up stays where it is in the queue. -/
theorem getUp (sound : t.Sound) (same : ids t'.queue = ids t.queue)
    (single : Single t'.queue) (place : t'.place = Function.update t.place k .up)
    (busy : t'.busy = t.busy) (closed : t'.closed = t.closed)
    (first : ∀ j ≠ k, t'.queue.head? = some (j, false) → t.queue.head? = some (j, false)) :
    t'.Sound := by
  constructor
  · rw [same]
    exact sound.distinct
  · intro j member
    rw [same] at member
    rw [place, Function.update_apply]
    split_ifs
    · simp
    · exact sound.present j member
  · intro j sleeps
    rw [place, Function.update_apply] at sleeps
    rw [same]
    split_ifs at sleeps
    exact sound.queued j sleeps
  · exact single
  · intro j isFirst sleeps
    rw [place, Function.update_apply] at sleeps
    rw [busy, closed]
    split_ifs at sleeps with own
    exact sound.awake j (first j own isFirst) sleeps

theorem step {action : Action ι} (sound : t.Sound) (taken : t.step action = some t') :
    t'.Sound := by
  cases action with
  | rouse =>
      obtain rfl := Option.some.inj taken
      exact sound.roused
  | arrive k =>
      simp only [Turnstile.step] at taken
      split_ifs at taken with away
      obtain rfl := Option.some.inj taken
      have outside : k ∉ ids t.queue := fun member => sound.present k member away
      constructor
      · exact sound.distinct
      · intro j member
        have other : j ≠ k := fun same => outside (same ▸ member)
        simpa [move, other] using sound.present j member
      · intro j sleeps
        simp only [move, Function.update_apply] at sleeps
        split_ifs at sleeps
        exact sound.queued j sleeps
      · exact sound.single
      · intro j first sleeps
        simp only [move, Function.update_apply] at sleeps
        split_ifs at sleeps
        exact sound.awake j first sleeps
  | sleep k =>
      simp only [Turnstile.step] at taken
      split_ifs at taken with may
      obtain ⟨up, open_, reason⟩ := may
      obtain rfl := Option.some.inj taken
      have listed : ∀ j, j ∈ ids (join t.queue k) ↔ j ∈ ids t.queue ∨ j = k := by
        intro j
        rw [ids_join]
        split_ifs with queued
        · exact ⟨.inl, fun either => either.elim id fun same => same ▸ queued⟩
        · simp
      constructor
      · show (ids (join t.queue k)).Nodup
        rw [ids_join]
        split_ifs with queued
        · exact sound.distinct
        · exact List.nodup_append.mpr ⟨sound.distinct, List.nodup_singleton k, by
            rintro i member _ isLast rfl
            exact queued (List.mem_singleton.mp isLast ▸ member)⟩
      · intro j member
        simp only [move, Function.update_apply]
        split_ifs with own
        · simp
        · exact sound.present j (((listed j).mp member).resolve_right own)
      · intro j sleeps
        simp only [move, Function.update_apply] at sleeps
        refine (listed j).mpr ?_
        split_ifs at sleeps with own
        · exact .inr own
        · exact .inl (sound.queued j sleeps)
      · exact single_join sound.single
      · intro j first sleeps
        rcases reason with other | busy
        · -- the queue only grows at its end
          obtain ⟨w, isFirst, distinct⟩ := (Option.any_eq_true ..).mp other
          have kept : (join t.queue k).head? = some w := by
            unfold join
            split_ifs
            · exact isFirst
            · rw [List.head?_append, isFirst]
              rfl
          obtain rfl := Option.some.inj (kept.symm.trans first)
          have own : j ≠ k := by simpa using distinct
          simp only [move, Function.update_of_ne own] at sleeps
          exact ⟨(sound.awake j isFirst sleeps).1, open_⟩
        · exact ⟨busy, open_⟩
  | wake k =>
      simp only [Turnstile.step] at taken
      split_ifs at taken
      obtain rfl := Option.some.inj taken
      refine sound.getUp ids_receive (single_receive sound.single) rfl rfl rfl ?_
      intro j other first
      simp only [move, receive, List.head?_map, Option.map_eq_some_iff] at first
      obtain ⟨w, isFirst, same⟩ := first
      split_ifs at same with own
      · exact absurd (congrArg Prod.fst same).symm other
      · rw [isFirst, same]
  | rise k =>
      simp only [Turnstile.step] at taken
      split_ifs at taken
      obtain rfl := Option.some.inj taken
      exact sound.getUp rfl sound.single rfl rfl rfl fun _ _ first => first
  | quit k =>
      simp only [Turnstile.step] at taken
      split_ifs at taken with up
      obtain rfl := Option.some.inj taken
      have awake : t.place k ≠ .asleep := by simp [up]
      exact sound.roused.leave awake (fun busy => busy) rfl rfl (fun _ _ => rfl) awake
  | depart k =>
      simp only [Turnstile.step] at taken
      split_ifs at taken with up
      obtain rfl := Option.some.inj taken
      have awake : t.place k ≠ .asleep := by simp [up]
      exact sound.leave awake (fun busy => busy) rfl rfl
        (fun j other => Function.update_of_ne other _ _) (by simp [move])
  | begin k =>
      simp only [Turnstile.step] at taken
      split_ifs at taken with up
      obtain rfl := Option.some.inj taken
      have awake : t.place k ≠ .asleep := by simp [up]
      exact sound.leave awake (fun _ => rfl) rfl rfl (fun _ _ => rfl) awake
  | finish | close =>
      obtain rfl := Option.some.inj taken
      refine sound.keep ids_rouse rfl (single_rouse sound.single) fun k first _ => ?_
      exact absurd first fun again => by
        have before := stays_rouse [] k again
        cases before

end Sound

theorem sound_reachable {t : Turnstile ι} (reached : machine.Reachable t) : t.Sound := by
  apply Machine.ReachableBy.invariant (P := Sound) _ _ reached
  · rintro t rfl
    exact ⟨List.nodup_nil, by simp [ids], by simp, by simp [Single], by simp⟩
  · exact fun _ _ _ _ sound _ taken => sound.step taken

/-! ## The order of the queue -/

end Turnstile

end Veil.Lib

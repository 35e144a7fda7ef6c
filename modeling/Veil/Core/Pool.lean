import Mathlib.Logic.Function.Basic
import Veil.Lib.Json
import Veil.Lib.Machine
import Veil.Lib.Backoff
import Veil.Mux.Frame

/-!
# The pool of tunnels

`core/pool.go`.  A caller of `pool.get` is given a lane of the pool or dials a
new one.  What is done under the lock is one step.  Between such steps a caller
looks at its context, waits in the queue or dials, and anything else can happen
to the pool: other callers, lanes that die or come back, the passing of time.

Times and durations are in nanoseconds.  The map of lanes is a list in the
order in which it is gone through; the order may change at any time.
-/

namespace Veil.Core.Dialing

open Lib
open Lib.Backoff (Event)

/-! ## The state -/

def millisecond : Nat :=
  1000000

def second : Nat :=
  1000 * millisecond

/-- What the pool uses of `ClientConfig`. -/
structure Limits where
  maxConnections : Int
  maxIdle : Nat
  poolTimeout : Nat
  handshakeTimeout : Nat

/-- `session`; `closed` and `bulk` are what a snapshot of its tunnel shows. -/
structure Lane where
  id : Nat
  active : Nat := 0
  since : Nat := 0
  draining : Bool := false
  closed : Bool := false
  bulk : Bool := false
  deriving DecidableEq

/-- `pool`; a waiter is the caller that waits and whether it was notified. -/
structure Pool where
  all : List Lane := []
  total : Int := 0
  closed : Bool := false
  dialing : Bool := false
  waiters : List (Nat × Bool) := []
  dialError : Option Text := none
  retryAt : Nat := 0
  retryDelay : Nat := 0
  dialAttempts : Nat := 0
  deriving DecidableEq

inductive Problem where
  /-- the error of the context -/
  | cancelled
  /-- `net.ErrClosed` -/
  | closed
  /-- an error of `dial` -/
  | dial (error : Text)
  /-- `veil: connection pool limit` -/
  | limit
  deriving DecidableEq

/-- Where a caller is in `get`. -/
inductive Phase where
  | absent
  /-- at the top of the loop -/
  | top
  /-- past the look at its context, before the lock -/
  | entering
  /-- in the select of `waitLocked` -/
  | waiting
  /-- in `dial`; `spare` tells that there is a lane without it -/
  | dialing (spare : Bool)
  /-- after the lock that follows a failed `dial` -/
  | failed (spare : Bool) (error : Text)
  /-- before the deferred function -/
  | leaving (result : Except Problem Nat)
  | returned (result : Except Problem Nat)

/-- The local variables of a caller. -/
structure Caller where
  phase : Phase := .absent
  /-- its context has an error -/
  cancelled : Bool := false
  /-- the deadline of the context that queueing gives it -/
  deadline : Option Nat := none
  dialErr : Option Text := none

/-- The pool and its callers; `lanes` numbers lanes and `history` is what has
happened to dials. -/
structure State where
  now : Nat := 0
  pool : Pool := {}
  callers : Nat → Caller := fun _ => {}
  lanes : Nat := 0
  history : List Event := []

/-! ## The pool -/

namespace Pool

/-- `notifyLocked` -/
def notify (p : Pool) : Pool :=
  match p.waiters with
  | [] => p
  | (first, _) :: rest => { p with waiters := (first, true) :: rest }

/-- The caller at the front of the queue. -/
def front (p : Pool) : Option Nat :=
  p.waiters.head?.map (·.1)

/-- A caller waits in the queue. -/
def queues (p : Pool) (g : Nat) : Bool :=
  p.waiters.any fun w => w.1 = g

/-- `leaveQueueLocked` -/
def leaveQueue (p : Pool) (g : Nat) : Pool :=
  if p.queues g then
    let p : Pool := { p with waiters := p.waiters.filter fun w => w.1 ≠ g }
    p.notify
  else p

/-- The start of `waitLocked`. -/
def pushBack (p : Pool) (g : Nat) : Pool :=
  if p.queues g then p else { p with waiters := p.waiters ++ [(g, false)] }

/-- The notification of a caller is received. -/
def received (p : Pool) (g : Nat) : Pool :=
  { p with waiters := p.waiters.map fun w =>
      if w.1 = g then (g, false) else w }

/-- `removeLocked` for each lane of a kind. -/
def remove (p : Pool) (gone : Lane → Bool) : Pool :=
  if p.all.any gone then
    let p : Pool :=
      { p with
        all := p.all.filter fun lane => !gone lane
        total := p.total - (p.all.filter gone).length }
    p.notify
  else p

/-- Change the lanes with a number. -/
def change (p : Pool) (id : Nat) (f : Lane → Lane) : Pool :=
  { p with all := p.all.map fun lane => if lane.id = id then f lane else lane }

/-- `idleLocked` -/
def idle (p : Pool) : Nat :=
  (p.all.filter fun lane => lane.active = 0).length

/-- No dial is started for the time being. -/
def cooling (p : Pool) (now : Nat) : Bool :=
  p.dialError.isSome && now < p.retryAt

end Pool

/-- A lane that is to be removed. -/
def Lane.dead (limits : Limits) (now : Nat) (lane : Lane) : Bool :=
  lane.closed || (lane.active = 0 &&
    (lane.draining || lane.since + limits.poolTimeout ≤ now))

/-- A lane that another stream can be opened on. -/
def Lane.usable (limits : Limits) (now : Nat) (lane : Lane) : Bool :=
  !lane.dead limits now && !lane.draining && lane.active < Mux.maxStreams

/-- One round of the loop over the lanes. -/
def better (limits : Limits) (now : Nat) (best : Option Lane) (lane : Lane) :
    Option Lane :=
  if lane.usable limits now then
    match best with
    | none => some lane
    | some other =>
        if (other.bulk && !lane.bulk) ||
            (other.bulk = lane.bulk && lane.active < other.active) then
          some lane
        else some other
  else best

/-- The lane that a new stream is best opened on. -/
def Pool.best (limits : Limits) (now : Nat) (p : Pool) : Option Lane :=
  p.all.foldl (better limits now) none

/-! ## Callers -/

namespace State

/-- Change a caller. -/
def set (s : State) (g : Nat) (f : Caller → Caller) : State :=
  { s with callers := Function.update s.callers g (f (s.callers g)) }

/-- A caller goes on to another place. -/
def go (s : State) (g : Nat) (phase : Phase) : State :=
  s.set g ({ · with phase })

/-- `waitLocked` up to its select. -/
def wait (limits : Limits) (s : State) (g : Nat) : State :=
  { s with pool := s.pool.pushBack g }.set g fun caller =>
    { caller with
      phase := .waiting
      deadline := some (caller.deadline.getD (s.now + limits.handshakeTimeout)) }

/-- A caller is given a lane. -/
def serve (s : State) (g : Nat) (lane : Lane) : State :=
  { s with pool := s.pool.change lane.id fun lane =>
      { lane with active := lane.active + 1 } }.go g (.leaving (.ok lane.id))

/-- A caller starts to dial. -/
def startDial (s : State) (g : Nat) (spare : Bool) : State :=
  let p : Pool :=
    { s.pool with
      total := s.pool.total + 1
      dialAttempts := s.pool.dialAttempts + 1
      dialing := true }
  { s with
    pool := p.leaveQueue g
    history := .start s.now :: s.history }.go g (.dialing spare)

/-- Whether a caller wants a new lane. -/
def wantsNew (limits : Limits) (s : State) (g : Nat) : Option Lane → Bool
  | none => true
  | some best =>
      (s.callers g).dialErr.isNone &&
        decide (s.pool.total < min 2 limits.maxConnections) &&
        (best.bulk || 4 ≤ best.active)

/-- `get` once the lanes are looked through and none was to be removed. -/
def settle (limits : Limits) (s : State) (g : Nat) (best : Option Lane) :
    State :=
  let wantNew := s.wantsNew limits g best
  if wantNew && s.pool.cooling s.now && best.isNone then
    s.go g (.leaving (.error (.dial (s.pool.dialError.getD []))))
  else
    let wantNew := wantNew && !s.pool.cooling s.now
    if wantNew && decide (s.pool.total < limits.maxConnections) &&
        !s.pool.dialing then
      s.startDial g best.isSome
    else if wantNew && s.pool.dialing && best.isNone then s.wait limits g
    else
      match best with
      | some lane => s.serve g lane
      | none => s.go g (.leaving (.error .limit))

/-- What a caller does under the lock at the top of the loop. -/
def look (limits : Limits) (s : State) (g : Nat) : State :=
  if s.pool.closed then s.go g (.leaving (.error .closed))
  else if s.pool.front.any (· ≠ g) then s.wait limits g
  else if s.pool.all.any (Lane.dead limits s.now) then
    { s with
      pool := (s.pool.remove (Lane.dead limits s.now)).leaveQueue g }.go g .top
  else
    match s.pool.best limits s.now, (s.callers g).dialErr with
    | none, some error => s.go g (.leaving (.error (.dial error)))
    | best, _ => s.settle limits g best

/-- What a caller does under the lock once it has failed to dial. -/
def dialFails (s : State) (g : Nat) (spare : Bool) (error : Text)
    (jitter : Nat) : State :=
  let p : Pool := { s.pool with dialing := false }
  let p := { p.notify with total := p.notify.total - 1 }
  if (s.callers g).cancelled = false ∧ p.closed = false then
    let delay := min (max (2 * p.retryDelay) (100 * millisecond)) second
    { s with
      pool := { p with
        retryDelay := delay
        retryAt := s.now + (delay + jitter)
        dialError := some error }
      history := .failure s.now :: s.history }.go g (.failed spare error)
  else
    { s with pool := p, history := .abandoned s.now :: s.history }.go g
      (.failed spare error)

/-- What a caller does under the lock once it has dialed. -/
def dialSucceeds (s : State) (g : Nat) : State :=
  let p : Pool := { s.pool with dialing := false }
  let p := p.notify
  if p.closed then
    { s with
      pool := { p with total := p.total - 1 }
      history := .abandoned s.now :: s.history }.go g
        (.leaving (.error .closed))
  else
    { s with
      pool := { p with
        dialError := none, retryAt := 0, retryDelay := 0
        all := p.all ++ [({ id := s.lanes, active := 1 } : Lane)] }
      lanes := s.lanes + 1
      history := .success s.now :: s.history }.go g (.leaving (.ok s.lanes))

/-- `pool.put` on a lane of the pool. -/
def put (limits : Limits) (s : State) (lane : Lane) : State :=
  let lane : Lane := { lane with active := lane.active - 1, since := s.now }
  let p : Pool := s.pool.change lane.id fun _ => lane
  let drop := lane.closed || p.closed || (lane.active = 0 &&
    (lane.draining || limits.maxIdle < p.idle))
  { s with pool := if drop then p.remove (·.id = lane.id) else p.notify }

/-- `pool.close` -/
def close (s : State) : State :=
  let p : Pool := { s.pool with closed := true }
  { s with pool := p.notify.remove fun _ => true }

end State

/-! ## What can happen -/

inductive Action where
  | passes (later : Nat)
  | calls (g : Nat)
  /-- the context of a caller ends -/
  | cancels (g : Nat)
  /-- the deadline that queueing gave is over -/
  | expires (g : Nat)
  | checks (g : Nat)
  | looks (g : Nat)
  | wakes (g : Nat)
  | givesUp (g : Nat)
  | dialFails (g : Nat) (error : Text) (jitter : Nat)
  | dialSucceeds (g : Nat)
  | resumes (g : Nat)
  | returns (g : Nat)
  | puts (id : Nat)
  | drains (id : Nat)
  | sweeps
  | closes
  /-- the snapshot of a lane changes -/
  | changes (id : Nat) (closed bulk : Bool)
  | reorders (all : List Lane)

def step (limits : Limits) (s : State) : Action → Option State
  | .passes later => if s.now ≤ later then some { s with now := later } else none
  | .calls g =>
      match (s.callers g).phase with
      | .absent => some (s.go g .top)
      | _ => none
  | .cancels g => some (s.set g ({ · with cancelled := true }))
  | .expires g =>
      if (s.callers g).deadline.any (· ≤ s.now) then
        some (s.set g ({ · with cancelled := true }))
      else none
  | .checks g =>
      match (s.callers g).phase with
      | .top =>
          if (s.callers g).cancelled then
            some (s.go g (.leaving (.error .cancelled)))
          else some (s.go g .entering)
      | _ => none
  | .looks g =>
      match (s.callers g).phase with
      | .entering => some (s.look limits g)
      | _ => none
  | .wakes g =>
      match (s.callers g).phase with
      | .waiting =>
          if (g, true) ∈ s.pool.waiters then
            some ({ s with pool := s.pool.received g }.go g .top)
          else none
      | _ => none
  | .givesUp g =>
      match (s.callers g).phase with
      | .waiting =>
          if (s.callers g).cancelled then
            some (s.go g (.leaving (.error .cancelled)))
          else none
      | _ => none
  | .dialFails g error jitter =>
      match (s.callers g).phase with
      | .dialing spare =>
          -- `rand.N` of the new delay
          if jitter < min (max (2 * s.pool.retryDelay) (100 * millisecond))
              second then
            some (s.dialFails g spare error jitter)
          else none
      | _ => none
  | .dialSucceeds g =>
      match (s.callers g).phase with
      | .dialing _ => some (s.dialSucceeds g)
      | _ => none
  | .resumes g =>
      match (s.callers g).phase with
      | .failed spare error =>
          if spare ∧ (s.callers g).cancelled = false then
            some (s.set g ({ · with phase := .top, dialErr := some error }))
          else some (s.go g (.leaving (.error (.dial error))))
      | _ => none
  | .returns g =>
      match (s.callers g).phase with
      | .leaving result =>
          some ({ s with pool := s.pool.leaveQueue g }.go g (.returned result))
      | _ => none
  | .puts id =>
      match s.pool.all.find? (·.id = id) with
      | some lane => if 0 < lane.active then some (s.put limits lane) else none
      | none => none
  | .drains id =>
      some { s with pool :=
        (s.pool.change id ({ · with draining := true })).notify }
  | .sweeps =>
      some { s with pool := s.pool.remove (Lane.dead limits s.now) }
  | .closes => some s.close
  | .changes id closed bulk =>
      some { s with pool := s.pool.change id ({ · with closed, bulk }) }
  | .reorders all =>
      if all.isPerm s.pool.all then some { s with pool := { s.pool with all } }
      else none

/-- An empty pool of any limits, under any calls. -/
def machine (limits : Limits) : Machine State Action where
  start s := s = {}
  step := step limits

end Veil.Core.Dialing

import Veil.Rust.Session
import Mathlib.Data.List.MinMax
import Mathlib.Data.Prod.Lex

/-!
# The pool of sessions of the Rust client

`Client::open` of `veil-rust/src/proxy.rs`.  A call holds the lock on `sessions`
until it has reserved a stream, while it dials as well; it is cut where it takes
the lock of a session.  The sessions run on between these pieces, so what the
calls of `snapshot` and `bulk` returned during the choice is part of that step,
with no relation to the state it is taken in.

The client holds the only handle on a session.  A session that leaves the pool
is failed by `Lease::drop`; its task and its streams go on using the state.
-/

namespace Veil.Rust

open Veil.Lib

/-- What `snapshot` and `bulk` returned to `open` while it chose a session. -/
structure Readings where
  /-- `s.snapshot().0` in the filter. -/
  load : Nat → Nat
  /-- `s.bulk()` and `s.snapshot().0` in the key. -/
  bulk : Nat → Bool
  active : Nat → Nat
  /-- `sessions[i].bulk()` and `sessions[i].snapshot().0` in `want_new`. -/
  bestBulk : Bool
  bestActive : Nat

/-- How far the call of `open` is that holds the lock on `sessions`. -/
inductive Stage where
  /-- The first `retain`, with the sessions it has not looked at. -/
  | prune (todo : List Nat)
  /-- The first `retain` drops this session. -/
  | pruned (k : Nat) (todo : List Nat)
  /-- The second `retain`, with its count of idle sessions. -/
  | trim (todo : List Nat) (idle : Nat)
  | trimmed (k : Nat) (todo : List Nat) (idle : Nat)
  | choose
  | reuse (k : Nat)
  | dial
  /-- A session has been started, and is not in the pool yet. -/
  | fresh (k : Nat)

/-- A client, with every session it has ever started. -/
structure Client where
  maxIdle : Nat
  maxConnections : Nat
  traffic : Traffic
  sessions : Nat → Option Session
  started : Nat
  /-- `sessions` of the source. -/
  pool : List Nat
  stage : Option Stage
  /-- Streams, by session and identifier, that calls of `open` have not returned yet. -/
  waiting : List (Nat × Nat)
  /-- Sessions that a call of `open` will fail, since it dropped a stream without RESET. -/
  closing : List Nat

/-- The stream whose handle a call is on. -/
def Session.Action.handle : Session.Action → Option Nat
  | .accept k | .reject k _ | .finish k | .drop k | .pollRead k _ | .pollWrite k _
  | .pollShutdown k => some k
  | _ => none

namespace Client

/-- `Client::new`. -/
def new (maxIdle maxConnections : Nat) (traffic : Traffic) : Client where
  maxIdle := maxIdle
  maxConnections := maxConnections
  traffic := traffic
  sessions := fun _ => none
  started := 0
  pool := []
  stage := none
  waiting := []
  closing := []

def set (c : Client) (k : Nat) (s : Session) : Client :=
  { c with sessions := fun i => if i = k then some s else c.sessions i }

/-- The call that holds the lock goes on. -/
def go (c : Client) (stage : Stage) : Client := { c with stage := some stage }

/-- The call releases the lock. -/
def leave (c : Client) : Client := { c with stage := none }

/-- A stream has been reserved, and the call waits for it outside the lock. -/
def await (c : Client) (k id : Nat) : Client := { c with waiting := c.waiting ++ [(k, id)] }

/-- A call of `open` takes the lock. -/
def enter (c : Client) : Option Client :=
  match c.stage with
  | none => some (c.go (.prune c.pool))
  | some _ => none

/-- The closures of the two `retain`: one call of `snapshot`, or the end of the list. -/
def look (c : Client) : Option Client :=
  match c.stage with
  | some (.prune []) => some (c.go (.trim c.pool 0))
  | some (.prune (k :: todo)) => (c.sessions k).map fun s =>
      if s.snapshot.2 then c.go (.pruned k todo) else c.go (.prune todo)
  | some (.trim [] _) => some (c.go .choose)
  | some (.trim (k :: todo) idle) => (c.sessions k).map fun s =>
      if s.snapshot.1 ≠ 0 then c.go (.trim todo idle)
      else if idle + 1 ≤ c.maxIdle then c.go (.trim todo (idle + 1))
      else c.go (.trimmed k todo (idle + 1))
  | _ => none

/-- A session leaves the pool, and `Lease::drop` fails it. -/
def discard (c : Client) (k : Nat) : Option Client :=
  (c.sessions k).map fun s =>
    { c.set k (s.fail .connectionAborted) with pool := c.pool.filter (· ≠ k) }

/-- A `retain` drops the session its closure has refused. -/
def release (c : Client) : Option Client :=
  match c.stage with
  | some (.pruned k todo) => (c.discard k).map (·.go (.prune todo))
  | some (.trimmed k todo idle) => (c.discard k).map (·.go (.trim todo idle))
  | _ => none

/-- `best`: the first session with the least key among those with room. -/
def best (c : Client) (r : Readings) : Option Nat :=
  (c.pool.filter fun k => r.load k < 8).argmin fun k => toLex (r.bulk k, r.active k)

/-- `want_new`. -/
def wantNew (c : Client) (r : Readings) : Bool :=
  match c.best r with
  | none => true
  | some _ => decide (c.pool.length < min 2 c.maxConnections) &&
      (r.bestBulk || decide (4 ≤ r.bestActive))

/-- The choice between reusing a session, dialling, and an error at the limit. -/
def choose (c : Client) (r : Readings) : Option Client :=
  match c.stage with
  | some .choose =>
      let full := decide (c.maxConnections ≤ c.pool.length)
      if !c.wantNew r || full && (c.best r).isSome then
        (c.best r).map fun k => c.go (.reuse k)
      else if full then some c.leave
      else some (c.go .dial)
  | _ => none

/--
`connect` returns an error, or a transport with the `prefix` for the first batch
and the draws for the ranges.  The receiver of `incoming` is dropped at once.
-/
def dial (c : Client) (outcome : Option ((Nat → Nat) × Nat)) : Option Client :=
  match c.stage with
  | some .dial =>
      match outcome with
      | none => some c.leave
      | some (draws, preamble) =>
          if c.traffic.validate then
            let s := Session.start false (c.traffic.narrowed draws) preamble
            some ({ c.set c.started { s with hungUp := true } with
              started := c.started + 1 }.go (.fresh c.started))
          else some c.leave
  | _ => none

/--
`reserve` on the chosen session or on the new one, which enters the pool when it
succeeds and is dropped when it does not.  A target that cannot be encoded is an
error of `reserve`.
-/
def reserve (c : Client) (target : Option Target) (draw : Nat) : Option Client :=
  match c.stage with
  | some (.reuse k) => (c.sessions k).map fun s =>
      match target.map (s.reserve · draw) with
      | some (s', none) => (c.set k s').leave.await k s'.high
      | some (s', some _) => (c.set k s').leave
      | none => c.leave
  | some (.fresh k) => (c.sessions k).map fun s =>
      match target.map (s.reserve · draw) with
      | some (s', none) => { (c.set k s').leave.await k s'.high with pool := c.pool ++ [k] }
      | some (s', some _) => (c.set k (s'.fail .connectionAborted)).leave
      | none => (c.set k (s.fail .connectionAborted)).leave
  | _ => none

/-- `ready` returns, and `open` returns the stream. -/
def ready (c : Client) (k id : Nat) : Option Client :=
  if (k, id) ∈ c.waiting ∧
      ((c.sessions k).bind (·.slots id)).any (fun st => st.check.isNone && st.opened) = true then
    some { c with waiting := c.waiting.erase (k, id) }
  else none

/-- `ready` returns an error or takes too long, and `open` drops its stream. -/
def abandon (c : Client) (k id : Nat) : Option Client :=
  if (k, id) ∈ c.waiting then
    match c.sessions k with
    | none => none
    | some s => (s.drop id).map fun s' =>
        { c.set k s' with
          waiting := c.waiting.erase (k, id)
          closing := if s.failing.length < s'.failing.length then c.closing ++ [k]
            else c.closing }
  else none

/-- The call that dropped a stream without RESET fails the session. -/
def close (c : Client) (k : Nat) : Option Client :=
  if k ∈ c.closing then
    match c.sessions k with
    | none => none
    | some s => (s.step (.fail 0)).map fun s' =>
        { c.set k s' with closing := c.closing.erase k }
  else none

/--
The steps that are not those of a call of `open`: the task of a session, and the
callers of `open` with the streams they were given.
-/
def foreign (c : Client) (k : Nat) (s : Session) : Session.Action → Bool
  | .reserve _ _ | .close | .hangUp => false
  | .fail _ => decide (c.closing.count k < s.failing.length)
  | action => action.handle.all fun id => (k, id) ∉ c.waiting

/-- A session takes a step of its own. -/
def session (c : Client) (k : Nat) (action : Session.Action) : Option Client :=
  match c.sessions k with
  | none => none
  | some s => if c.foreign k s action then (s.step action).map (c.set k ·) else none

inductive Action where
  | session (k : Nat) (action : Session.Action)
  | enter
  | look
  | release
  | choose (r : Readings)
  | dial (outcome : Option ((Nat → Nat) × Nat))
  | reserve (target : Option Target) (draw : Nat)
  | ready (k id : Nat)
  | abandon (k id : Nat)
  | close (k : Nat)

/-- One step of a client and of its sessions. -/
def step (c : Client) : Action → Option Client
  | .session k action => c.session k action
  | .enter => c.enter
  | .look => c.look
  | .release => c.release
  | .choose r => c.choose r
  | .dial outcome => c.dial outcome
  | .reserve target draw => c.reserve target draw
  | .ready k id => c.ready k id
  | .abandon k id => c.abandon k id
  | .close k => c.close k

/-- A client with any configuration that `validate` accepts. -/
def machine : Machine Client Action where
  start c := ∃ maxIdle maxConnections traffic, 0 < maxConnections ∧ maxConnections ≤ 4096 ∧
    maxIdle ≤ maxConnections ∧ traffic.validate = true ∧ c = new maxIdle maxConnections traffic
  step := step

end Client

end Veil.Rust

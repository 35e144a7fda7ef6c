import Veil.Control.Manager

/-!
# The revisions of a manager are true

The invariant `Accurate` ties the saved revision to the file and the active
revision to the instance that serves.  Every request and every spontaneous end
of an instance keeps it, and the status read off such a manager is truthful.
-/

namespace Veil.Control

open Lib

/-- The revision of the configuration in a file, none for no file. -/
def fileRevision (file : Option Text) : Text :=
  match file with
  | none => []
  | some b =>
      match parse (fun _ => none) b false with
      | .error _ => []
      | .ok p => p.revision

namespace Manager

/-- What a status has to say of a manager. -/
structure Truthful (m : Manager) (s : Status) : Prop where
  active : s.activeRevision ≠ [] ↔ m.runtime.active = true
  revision : ∀ x, m.runtime.run = some x → x.done = false →
    s.activeRevision = x.config.revision
  saved : s.savedRevision = fileRevision m.file
  restart : s.restartRequired = true ↔
    ∃ x, m.runtime.run = some x ∧ x.done = false ∧
      x.config.revision ≠ fileRevision m.file

/-- The saved configuration of a manager. -/
structure Saves (m : Manager) (c : Config) : Prop where
  filled : c.defaults = .ok c
  revision : m.saved = c.revision

/-- The invariant: the revisions are those of the file, of the saved
configuration and of the instance that serves. -/
structure Accurate (m : Manager) : Prop where
  file : m.saved = fileRevision m.file
  saves : ∀ c, m.cfg = some c → m.Saves c
  serves : ∀ x, m.runtime.run = some x → x.done = false →
    m.active = x.config.revision

/-! ## The status -/

theorem active_iff (r : Runtime) :
    r.active = true ↔ ∃ x, r.run = some x ∧ x.done = false := by
  unfold Runtime.active
  cases r.run with
  | none => simp
  | some x => simp

theorem snapshot_running (r : Runtime) :
    r.snapshot.state = .running ↔ r.active = true := by
  unfold Runtime.snapshot Runtime.active
  cases r.run with
  | none => simp
  | some x => cases x.done <;> simp

/-- The status of an accurate manager is truthful. -/
theorem status_of_accurate {m : Manager} (accurate : m.Accurate) :
    Truthful m m.status := by
  have running := snapshot_running m.runtime
  have serving := active_iff m.runtime
  constructor
  · constructor
    · intro shown
      apply running.mp
      by_contra idle
      simp [status, idle] at shown
    · intro active
      obtain ⟨x, present, going⟩ := serving.mp active
      simp only [status, running.mpr active, ne_eq, not_true_eq_false,
        if_false, accurate.serves x present going]
      exact Config.revision_ne_nil x.config
  · intro x present going
    have state : m.runtime.snapshot.state = .running :=
      running.mpr (serving.mpr ⟨x, present, going⟩)
    simp only [status, state, ne_eq, not_true_eq_false, if_false,
      accurate.serves x present going]
  · exact accurate.file
  · constructor
    · intro required
      simp only [status, Bool.and_eq_true, decide_eq_true_eq] at required
      obtain ⟨state, differs⟩ := required
      obtain ⟨x, present, going⟩ := serving.mp (running.mp state)
      simp only [state, ne_eq, not_true_eq_false, if_false] at differs
      exact ⟨x, present, going, by
        rw [← accurate.file, ← accurate.serves x present going]
        exact differs⟩
    · rintro ⟨x, present, going, differs⟩
      have state : m.runtime.snapshot.state = .running :=
        running.mpr (serving.mpr ⟨x, present, going⟩)
      rw [← accurate.file, ← accurate.serves x present going] at differs
      simp [status, state, differs]

/-! ## Steps keep the revisions accurate -/

/-- An instance that still serves after another one ended is that one. -/
theorem run_ended {r : Runtime} {err : Option Problem} {x : Running}
    (present : (r.ended err).run = some x) : x.done = true := by
  simp only [Runtime.ended, Option.map_eq_some_iff] at present
  obtain ⟨y, _, rfl⟩ := present
  split_ifs with finished
  · exact finished
  · rfl

theorem accurate_ended {m : Manager} (accurate : m.Accurate)
    (err : Option Problem) : (m.ended err).Accurate where
  file := accurate.file
  saves c present := ⟨(accurate.saves c present).filled,
    (accurate.saves c present).revision⟩
  serves x present going := by
    have finished := run_ended present
    simp [finished] at going

/-- An answer shows the status of the manager after it. -/
theorem answer_status {w : Surroundings} {m : Manager} {r : Response} :
    (answer w m r).2.status = some (answer w m r).1.status := by
  rfl

theorem accurate_answer {w : Surroundings} {m : Manager} {r : Response}
    (accurate : m.Accurate) : (answer w m r).1.Accurate := by
  simp only [answer]
  cases w.ends with
  | none => exact accurate
  | some err => exact accurate_ended accurate err

/-- A change that leaves file, configuration and revisions alone. -/
theorem Accurate.of_same {m n : Manager} (accurate : m.Accurate)
    (file : n.file = m.file) (cfg : n.cfg = m.cfg) (saved : n.saved = m.saved)
    (serves : ∀ x, n.runtime.run = some x → x.done = false →
      n.active = x.config.revision) : n.Accurate where
  file := by rw [saved, file, accurate.file]
  saves c present := by
    have before := accurate.saves c (cfg ▸ present)
    exact ⟨before.filled, saved.trans before.revision⟩
  serves := serves

/-- A start that does not fail serves the configuration it was given. -/
theorem serve_run {w : Surroundings} {r after : Runtime} {c : Config}
    (served : r.serve w c = (after, none)) {x : Running}
    (present : after.run = some x) : x.config = c := by
  unfold Runtime.serve at served
  split at served
  next => simp at served
  next listen _ =>
    obtain ⟨rfl, _⟩ := Prod.mk.inj served
    obtain rfl := Option.some.inj present
    rfl

/-- A start that fails leaves the runtime as it is. -/
theorem serve_failed {w : Surroundings} {r after : Runtime} {c : Config}
    {problem : Problem} (served : r.serve w c = (after, some problem)) :
    after = r := by
  unfold Runtime.serve at served
  split at served
  next => exact (Prod.mk.inj served).1.symm
  next => simp at served

theorem new_eq {build : Config → Option Problem} {c d : Config}
    (filled : c.defaults = .ok c) (made : c.new build = .ok d) : d = c := by
  simp only [Config.new, filled, bind, Except.bind] at made
  split at made
  next => simp at made
  next => exact (Except.ok.inj made).symm

/-- What a runtime does when it is asked to serve a configuration: it serves
that one, or it reports a failure and goes on with what it served or nothing. -/
inductive Outcome (r : Runtime) (c : Config) :
    Runtime × Option Problem → Prop where
  | serves {after : Runtime}
      (new : ∀ x, after.run = some x → x.config = c) :
      Outcome r c (after, none)
  | failed {after : Runtime} {problem : Problem}
      (kept : ∀ x, after.run = some x → x.done = false → r.run = some x) :
      Outcome r c (after, some problem)

theorem serve_outcome (w : Surroundings) {r before : Runtime} (c : Config)
    (kept : ∀ x, before.run = some x → x.done = false → r.run = some x) :
    Outcome r c (before.serve w c) := by
  rcases outcome : before.serve w c with ⟨after, _ | problem⟩
  · exact .serves fun x present => serve_run outcome present
  · rw [serve_failed outcome]
    exact .failed kept

theorem start_outcome (w : Surroundings) {r : Runtime} {c : Config}
    (filled : c.defaults = .ok c) (idle : r.active = false) :
    Outcome r c (r.start w c) := by
  unfold Runtime.start
  rw [idle, if_neg Bool.false_ne_true]
  split_ifs with closed
  · exact .failed fun x present _ => present
  · split
    next => exact .failed fun x present _ => present
    next d made =>
      obtain rfl := new_eq filled made
      exact serve_outcome w d fun x present _ => present

theorem restart_outcome (w : Surroundings) (r : Runtime) {c : Config}
    (filled : c.defaults = .ok c) : Outcome r c (r.restart w c) := by
  unfold Runtime.restart
  split_ifs with closed
  · exact .failed fun x present _ => present
  · split
    next => exact .failed fun x present _ => present
    next d made =>
      obtain rfl := new_eq filled made
      apply serve_outcome
      intro x present going
      simp [run_ended present] at going

/-- A start or a restart keeps the revisions accurate. -/
theorem accurate_launched {w : Surroundings} {m : Manager}
    (accurate : m.Accurate) {c : Config} (present : m.cfg = some c)
    {outcome : Runtime × Option Problem} (kind : Outcome m.runtime c outcome) :
    (launched w m outcome).1.Accurate := by
  cases kind with
  | serves new =>
      apply accurate_answer
      exact accurate.of_same rfl rfl rfl fun x served _ => by
        rw [new x served]
        exact (accurate.saves c present).revision
  | failed kept =>
      apply accurate_answer
      exact accurate.of_same rfl rfl rfl fun x served going =>
        accurate.serves x (kept x served going) going

/-- A save keeps the revisions accurate, whether the file was replaced or not. -/
theorem accurate_save {w : Surroundings} {m : Manager}
    (accurate : m.Accurate) {build : Config → Option Problem} {b : Text}
    {p : Parsed} (parsed : parse build b true = .ok p) :
    (save w m p).1.Accurate := by
  have after : ∀ n : Manager,
      n.runtime = m.runtime → n.active = m.active →
      n.saved = fileRevision n.file → (∀ c, n.cfg = some c → n.Saves c) →
      n.Accurate := by
    intro n runtime active file saves
    exact ⟨file, saves, fun x present going => by
      rw [active]
      exact accurate.serves x (runtime ▸ present) going⟩
  obtain ⟨filled, _, _, revision⟩ := parse_spec parsed
  unfold save
  rcases writeConfig_cases w.fault m.file p.bytes with
    ⟨committed, file⟩ | ⟨uncommitted, file, _⟩
  · have stored : p.revision = fileRevision (some p.bytes) := by
      simp only [fileRevision, parse_bytes parsed]
    simp only [committed, if_true, file]
    split <;> apply accurate_answer <;> apply after
    all_goals first
      | rfl
      | exact stored
      | intro c present
        obtain rfl := Option.some.inj present
        exact ⟨filled, revision⟩
  · simp only [uncommitted, Bool.false_eq_true, if_false, file]
    split <;> apply accurate_answer <;>
      exact after _ rfl rfl accurate.file fun c present =>
        ⟨(accurate.saves c present).filled,
          (accurate.saves c present).revision⟩

theorem accurate_perform {w : Surroundings} {m : Manager} (q : Request)
    (accurate : m.Accurate) : (perform w m q).1.Accurate := by
  unfold perform
  cases q.action with
  | none => exact accurate
  | some verb =>
      cases verb with
      | status => exact accurate_answer accurate
      | config => exact accurate_answer accurate
      | validate =>
          dsimp only
          split
          next => exact accurate
          next => exact accurate_answer accurate
      | save =>
          dsimp only
          split
          next => exact accurate
          next p parsed => exact accurate_save accurate parsed
      | start =>
          dsimp only
          split
          next => exact accurate
          next c present =>
            split_ifs with running
            · exact accurate_answer accurate
            · rw [snapshot_running, Bool.not_eq_true] at running
              exact accurate_launched accurate present (start_outcome w
                (accurate.saves c present).filled running)
      | restart =>
          dsimp only
          split
          next => exact accurate
          next c present =>
            exact accurate_launched accurate present (restart_outcome w _
              (accurate.saves c present).filled)
      | stop =>
          apply accurate_answer
          exact accurate.of_same rfl rfl rfl fun x present going => by
            simp [run_ended present] at going

theorem accurate_handle {w : Surroundings} {m : Manager} (q : Request)
    (accurate : m.Accurate) : (handle w m q).1.Accurate := by
  unfold handle
  split_ifs
  · exact accurate
  · exact accurate
  · exact accurate
  · exact accurate
  · exact accurate_perform q accurate

theorem accurate_opened {file : Option Text} {m : Manager}
    (isOpen : opened file = .ok m) : m.Accurate := by
  unfold opened at isOpen
  cases file with
  | none =>
      obtain rfl := Except.ok.inj isOpen
      exact ⟨rfl, by simp, by simp⟩
  | some b =>
      obtain ⟨p, parsed, made⟩ := bind_eq_ok.mp isOpen
      obtain rfl := Except.ok.inj made
      obtain ⟨filled, _, _, revision⟩ := parse_spec parsed
      constructor
      · simp only [fileRevision, parsed]
      · intro c present
        obtain rfl := Option.some.inj present
        exact ⟨filled, revision⟩
      · simp

theorem accurate_reachable {m : Manager} (reached : machine.Reachable m) :
    m.Accurate := by
  apply Machine.ReachableBy.invariant (P := Accurate) _ _ reached
  · rintro m ⟨file, isOpen⟩
    exact accurate_opened isOpen
  · intro m action next _ accurate _ taken
    cases action with
    | request w q =>
        obtain rfl := Option.some.inj taken
        exact accurate_handle q accurate
    | ends err =>
        obtain rfl := Option.some.inj taken
        exact accurate_ended accurate err
    | close stopped =>
        obtain rfl := Option.some.inj taken
        exact accurate.of_same rfl rfl rfl fun x present going => by
          simp [run_ended present] at going

/-! ## The result -/

/-! ### Responses show the status of the manager after them -/

theorem launched_status {w : Surroundings} {m : Manager}
    {outcome : Runtime × Option Problem} {s : Status}
    (shown : (launched w m outcome).2.status = some s) :
    s = (launched w m outcome).1.status := by
  unfold launched at shown ⊢
  split at shown <;> exact (Option.some.inj shown).symm

theorem save_status {w : Surroundings} {m : Manager} {p : Parsed}
    {s : Status} (shown : (save w m p).2.status = some s) :
    s = (save w m p).1.status := by
  unfold save at shown ⊢
  dsimp only at shown ⊢
  split at shown <;> exact (Option.some.inj shown).symm

theorem perform_status {w : Surroundings} {m : Manager} {q : Request}
    {s : Status} (shown : (perform w m q).2.status = some s) :
    s = (perform w m q).1.status := by
  unfold perform at shown ⊢
  cases action : q.action with
  | none => simp [action, Response.failed] at shown
  | some verb =>
      rw [action] at shown
      cases verb with
      | status | config | stop => exact (Option.some.inj shown).symm
      | validate =>
          dsimp only at shown ⊢
          split at shown
          next => simp [Response.failed] at shown
          next => exact (Option.some.inj shown).symm
      | save =>
          dsimp only at shown ⊢
          split at shown
          next => simp [Response.failed] at shown
          next => exact save_status shown
      | start =>
          dsimp only at shown ⊢
          split at shown
          next => simp [Response.failed] at shown
          next =>
            split_ifs at shown ⊢
            · exact (Option.some.inj shown).symm
            · exact launched_status shown
      | restart =>
          dsimp only at shown ⊢
          split at shown
          next => simp [Response.failed] at shown
          next => exact launched_status shown

theorem handle_status {w : Surroundings} {m : Manager} {q : Request}
    {s : Status} (shown : (handle w m q).2.status = some s) :
    s = (handle w m q).1.status := by
  unfold handle at shown ⊢
  split_ifs at shown ⊢
  · simp [Response.failed] at shown
  · simp [Response.failed] at shown
  · simp [Response.failed] at shown
  · simp [Response.failed] at shown
  · exact perform_status shown

/--
In every state that requests, failures and spontaneous ends lead to, the
status and every status that a response carries are truthful.
-/
theorem status_truthful {m : Manager} (reached : machine.Reachable m) :
    Truthful m m.status ∧
      ∀ w q s, (handle w m q).2.status = some s →
        Truthful (handle w m q).1 s := by
  have accurate := accurate_reachable reached
  constructor
  · exact status_of_accurate accurate
  · intro w q s shown
    rw [handle_status shown]
    exact status_of_accurate (accurate_handle q accurate)

/-- Surroundings in which nothing fails. -/
def calm : Surroundings :=
  { build := fun _ => none, bind := .ok, fault := none, stopped := none
    ends := none }

def sample : Config :=
  { role := "client".toList
    server := "192.0.2.1:443".toList
    secret := List.replicate 43 'A'
    tls := { mode := "tls".toList, serverName := "example.org".toList } }

/-- A first save and a start. -/
def firstStart : List Action :=
  [.request calm { action := some .save
                   config := Json.print .compact 0 sample.json },
    .request calm { action := some .start }]

theorem status_truthful_started :
    ∃ m : Manager, m.runtime.active = true ∧ Truthful m m.status := by
  have runs : ((machine.run { file := none } firstStart).any fun m =>
      m.runtime.active) = true := by
    decide +kernel
  obtain ⟨m, ran, active⟩ := (Option.any_eq_true ..).mp runs
  have reached : machine.Reachable m :=
    Machine.run_reachable (.start ⟨none, rfl⟩) ran
  exact ⟨m, active, (status_truthful reached).1⟩

end Manager

end Veil.Control

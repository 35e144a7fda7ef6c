import Veil.Lib.Json
import Veil.Lib.Program
import Mathlib.Data.Fintype.Pi

/-!
# The system proxy controller

The controller keeps the desktop's proxy settings from before it changed them,
and what it changed them to, in memory and in a journal file.  Its operations
are programs that read and write the desktop's settings and replace the
journal, so that a run of them may fail or end at any of these steps.

A desktop has a text for each of the keys its backend manages; a missing key
cannot be represented, and a snapshot that was never taken is refused by a
write.
-/

namespace Veil.Proxy

open Lib

/-- The settings a backend manages, in the order of their names. -/
class Keys (κ : Type) where
  keys : List κ
  label : κ → Text
  listed : ∀ key, key ∈ keys
  distinct : Function.Injective label

abbrev Snapshot (κ : Type) := κ → Text

structure Backend (κ : Type) where
  name : Text
  manual : Snapshot κ → Text → Snapshot κ
  direct : Snapshot κ → Snapshot κ

inductive Mode where
  | keep
  | auto
  deriving DecidableEq

namespace Mode

def text : Mode → Text
  | keep => "keep".toList
  | auto => "auto".toList

def ofText (text : Text) : Option Mode :=
  if text = "keep".toList then some keep
  else if text = "auto".toList then some auto
  else none

@[simp]
theorem ofText_text (mode : Mode) : ofText mode.text = some mode := by
  cases mode <;> simp [ofText, text]

end Mode

inductive Failure where
  | changed
  | unsupported
  | invalidMode
  | tooLarge
  | malformed
  /-- What the desktop or the file system answered. -/
  | system
  deriving DecidableEq

/-- The journal's content. -/
structure Record (κ : Type) where
  mode : Mode := .keep
  connection : Text := []
  backend : Text := []
  before : Option (Snapshot κ) := none
  applied : Option (Snapshot κ) := none

structure Controller (κ : Type) where
  state : Record κ
  lastError : Option Failure := none

variable {κ : Type} [Keys κ]

/-! ## The journal's text -/

def Snapshot.json (settings : Snapshot κ) : Json :=
  .obj (Keys.keys.map fun key => (Keys.label key, .str (settings key)))

def Snapshot.member (name : Text) : Option (Snapshot κ) → List (Text × Json)
  | none => []
  | some settings => [(name, settings.json)]

/-- An empty text is left out. -/
def textMember (name value : Text) : List (Text × Json) :=
  if value = [] then [] else [(name, .str value)]

namespace Record

def members (state : Record κ) : List (Text × Json) :=
  ("mode".toList, .str state.mode.text) ::
    (textMember "connection".toList state.connection ++
      textMember "backend".toList state.backend ++
      Snapshot.member "before".toList state.before ++
      Snapshot.member "applied".toList state.applied)

def encode (state : Record κ) : Text :=
  Json.print .compact 0 (.obj state.members)

end Record

/-- A text field; an absent or null one keeps the value it has. -/
def readText (members : List (Text × Json)) (name value : Text) :
    Option Text :=
  match Json.last members name with
  | none | some .null => some value
  | some (.str text) => some text
  | some _ => none

def readSnapshot (members : List (Text × Json)) (name : Text) :
    Option (Option (Snapshot κ)) :=
  match Json.last members name with
  | none | some .null => some none
  | some (.obj entries) =>
      if Keys.keys.all fun key : κ =>
          (readText entries (Keys.label key) []).isSome then
        some (some fun key => (readText entries (Keys.label key) []).getD [])
      else none
  | some _ => none

namespace Record

/-- Read a journal over the record of a fresh controller. -/
def decode (content : Text) : Except Failure (Record κ) :=
  match Json.parse content with
  | some (.obj members) =>
      let fields : Option (Text × Record κ) := do
        let mode ← readText members "mode".toList Mode.keep.text
        let connection ← readText members "connection".toList []
        let backend ← readText members "backend".toList []
        let before ← readSnapshot members "before".toList
        let applied ← readSnapshot members "applied".toList
        some (mode, .mk .keep connection backend before applied)
      match fields with
      | none => .error .malformed
      | some (mode, state) =>
          match Mode.ofText mode with
          | none => .error .invalidMode
          | some mode => .ok { state with mode := mode }
  | _ => .error .malformed

end Record

/-! ## Reading the journal back -/

@[simp]
theorem last_textMember (name value key : Text) :
    Json.last (textMember name value) key =
      if name = key ∧ value ≠ [] then some (.str value) else none := by
  unfold textMember
  split_ifs <;> simp_all

@[simp]
theorem last_snapshotMember (name key : Text)
    (settings : Option (Snapshot κ)) :
    Json.last (Snapshot.member name settings) key =
      if name = key then settings.map Snapshot.json else none := by
  cases settings <;> simp [Snapshot.member]

theorem readText_snapshot (settings : Snapshot κ) (key : κ) :
    readText (Keys.keys.map fun key => (Keys.label key, .str (settings key)))
      (Keys.label key) [] = some (settings key) := by
  have found := Json.last_map Keys.distinct
    (fun key => Json.str (settings key)) (Keys.listed key)
  simp [readText, found]

/-- A snapshot is read back from the member that holds it. -/
theorem readSnapshot_member (members : List (Text × Json)) (name : Text)
    (settings : Option (Snapshot κ))
    (found : Json.last members name = settings.map Snapshot.json) :
    readSnapshot members name = some settings := by
  cases settings with
  | none => simp [readSnapshot, found]
  | some settings =>
      simp [readSnapshot, found, Snapshot.json, readText_snapshot]

namespace Record

theorem readText_members (state : Record κ) :
    readText state.members "mode".toList Mode.keep.text =
        some state.mode.text ∧
      readText state.members "connection".toList [] = some state.connection ∧
      readText state.members "backend".toList [] = some state.backend := by
  have absent (value : Text) :
      (match (if value = [] then none else some (Json.str value)) with
        | none | some .null => some []
        | some (.str text) => some text
        | some _ => none) = some value := by
    by_cases empty : value = []
    · simp [empty]
    · simp [empty]
  refine ⟨by simp [readText, members], ?_, ?_⟩
  · simpa [readText, members] using absent state.connection
  · simpa [readText, members] using absent state.backend

theorem readSnapshot_members (state : Record κ) :
    readSnapshot state.members "before".toList = some state.before ∧
      readSnapshot state.members "applied".toList = some state.applied := by
  constructor
  · apply readSnapshot_member
    simp [members]
  · apply readSnapshot_member
    simp [members]

/-- `Open` reads the record that was saved. -/
@[simp]
theorem decode_encode (state : Record κ) :
    decode state.encode = .ok state := by
  have parsed : Json.parse state.encode = some (.obj state.members) := by
    have read := Json.parse_print .compact 0 (.obj state.members) []
      (by simp [Json.skip])
    rwa [List.append_nil] at read
  obtain ⟨mode, connection, backend⟩ := readText_members state
  obtain ⟨before, applied⟩ := readSnapshot_members state
  simp only [decode, parsed, mode, connection, backend, before, applied,
    Option.bind_eq_bind, Option.bind_some, Mode.ofText_text]

end Record

/-! ## Steps -/

/-- What a write of settings is for. -/
inductive Purpose where
  | apply
  | restore
  | clear
  | rollback
  deriving DecidableEq

inductive Effect (κ : Type) where
  | load
  | read
  | write (purpose : Purpose) (settings : Snapshot κ)
  | save (content : Text)

/-- The answer to a step: what was read, or whether the step succeeded. -/
abbrev Effect.Answer : Effect κ → Type
  | .load => Option (Option Text)
  | .read => Option (Snapshot κ)
  | .write _ _ => Bool
  | .save _ => Bool

abbrev Action (κ : Type) (α : Type) :=
  Program (Effect κ) Effect.Answer α

/-- `os.ReadFile` of the journal: `some none` where there is no file. -/
abbrev load : Action κ (Option (Option Text)) :=
  Program.perform Effect.load

abbrev read : Action κ (Option (Snapshot κ)) :=
  Program.perform Effect.read

abbrev write (purpose : Purpose) (settings : Snapshot κ) : Action κ Bool :=
  Program.perform (Effect.write purpose settings)

/-- Replace the journal. -/
abbrev save (state : Record κ) : Action κ Bool :=
  Program.perform (Effect.save state.encode)

/-! ## Operations -/

/-- What an operation leaves in memory and its error. -/
abbrev Outcome (κ : Type) := Controller κ × Option Failure

variable [Fintype κ] (native : Option (Backend κ))

namespace Controller

def selectConnection (c : Controller κ) (id : Text) : Action κ (Outcome κ) := do
  let state := { c.state with connection := id }
  if ← save state then pure ({ c with state := state }, none)
  else pure (c, some .system)

/-- Drop the recovery record, in memory whatever becomes of the journal. -/
def forget (c : Controller κ) (failure : Option Failure) :
    Action κ (Outcome κ) := do
  let state := { c.state with before := none, applied := none }
  if ← save state then pure ({ c with state := state }, failure)
  else pure ({ c with state := state }, some .system)

/-- Put the original settings back, unless someone changed them since. -/
def putBack (c : Controller κ) : Action κ (Outcome κ) := do
  match ← read with
  | none => pure (c, some .system)
  | some current =>
      if c.state.applied = some current then
        match c.state.before with
        | none => pure (c, some .system)
        | some before =>
            if ← write .restore before then c.forget none
            else pure (c, some .system)
      else c.forget (some .changed)

/-- `restore`: what `Restore`, `SetMode` and `Open` share. -/
def restore (c : Controller κ) : Action κ (Outcome κ) :=
  if c.state.applied = none then pure (c, none)
  else
    match native with
    | none => pure (c, some .unsupported)
    | some backend =>
        if backend.name ≠ c.state.backend then pure (c, some .unsupported)
        else c.putBack

/-- `Restore` -/
def restoreNow (c : Controller κ) : Action κ (Outcome κ) := do
  let (c, failure) ← c.restore native
  pure ({ c with lastError := failure }, failure)

/--
Point the desktop at an endpoint.  The journal is replaced before the settings
are; a write that failed is rolled back, and the journal with it.
-/
def manage (c : Controller κ) (backend : Backend κ) (endpoint : Text)
    (current : Snapshot κ) : Action κ (Outcome κ) := do
  let next := backend.manual current endpoint
  let before := if c.state.applied = none then some current else c.state.before
  let state : Record κ :=
    { c.state with before := before, applied := some next,
                   backend := backend.name }
  if ← save state then
    if ← write .apply next then pure (⟨state, none⟩, none)
    else if ← write .rollback current then
      -- the error of this save joins the write's
      let _ ← save c.state
      pure (c, some .system)
    else pure ({ c with state := state }, some .system)
  else pure (c, some .system)

/-- `apply`: what `Apply` and `SetMode` share. -/
def apply (c : Controller κ) (endpoint : Text) : Action κ (Outcome κ) :=
  match native with
  | none => pure (c, some .unsupported)
  | some backend => do
      match ← read with
      | none => pure (c, some .system)
      | some current =>
          if c.state.applied ≠ none ∧ c.state.applied ≠ some current then do
            let state := { c.state with before := none, applied := none }
            if ← save state then
              pure (⟨state, some .changed⟩, some .changed)
            else pure ({ c with state := state }, some .system)
          else c.manage backend endpoint current

/-- `Apply` -/
def applyNow (c : Controller κ) (endpoint : Text) : Action κ (Outcome κ) :=
  if c.state.mode = .auto then c.apply native endpoint else pure (c, none)

/-- The second half of `SetMode`: record the mode and apply an endpoint. -/
def record (c : Controller κ) (mode : Mode) (endpoint : Text) :
    Action κ (Outcome κ) := do
  let state := { c.state with mode := mode }
  if ← save state then
    let c : Controller κ := ⟨state, none⟩
    if mode = .auto ∧ endpoint ≠ [] then c.apply native endpoint
    else pure (c, none)
  else pure (c, some .system)

def setMode (c : Controller κ) (mode endpoint : Text) :
    Action κ (Outcome κ) :=
  match Mode.ofText mode with
  | none => pure (c, some .invalidMode)
  | some .auto =>
      if native.isNone then pure (c, some .unsupported)
      else c.record native .auto endpoint
  | some .keep => do
      let (c, failure) ← c.restore native
      if failure = none ∨ failure = some .changed then
        c.record native .keep endpoint
      else pure (c, failure)

/-- `Clear` -/
def clear (c : Controller κ) : Action κ (Outcome κ) :=
  match native with
  | none => pure (c, some .unsupported)
  | some backend => do
      match ← read with
      | none => pure (c, some .system)
      | some current =>
          if ← write .clear (backend.direct current) then
            let state : Record κ := { connection := c.state.connection }
            if ← save state then pure (⟨state, none⟩, none)
            else
              let _ ← write .rollback current
              pure (c, some .system)
          else
            let _ ← write .rollback current
            pure (c, some .system)

end Controller

/-- The largest journal `Open` reads. -/
def maxJournal : Nat := 65536

/-- `Open`: recover a previous run's settings if they match the journal. -/
def openController : Action κ (Except Failure (Controller κ)) := do
  match ← load with
  | none => pure (.error .system)
  | some none => pure (.ok ⟨{}, none⟩)
  | some (some content) =>
      if maxJournal < content.bytes then pure (.error .tooLarge)
      else
        match Record.decode content with
        | .error failure => pure (.error failure)
        | .ok state => do
            let fresh : Controller κ := ⟨state, none⟩
            let (c, failure) ← fresh.restore native
            pure (.ok { c with lastError := failure })

end Veil.Proxy

import Veil.Control.Encode
import Veil.Lib.Sha256

/-!
# Stored configurations

How a configuration is read from bytes, how it is written, and how a file is
replaced: what was written is read back as it was, with the same revision.
-/

namespace Veil.Control

open Lib

/-- `service.MaxConfigSize` -/
def maxConfigSize : Nat :=
  1048576

/-! ## Reading bytes -/

/-- `unicode.IsSpace` -/
def isWhite (char : Char) : Bool :=
  let code := char.toNat
  (9 ≤ code && code ≤ 13) || code = 32 || code = 0x85 || code = 0xA0 ||
    code = 0x1680 || (0x2000 ≤ code && code ≤ 0x200A) || code = 0x2028 ||
    code = 0x2029 || code = 0x202F || code = 0x205F || code = 0x3000

/-- `bytes.TrimSpace` -/
def trimSpace (text : Text) : Text :=
  ((text.dropWhile isWhite).reverse.dropWhile isWhite).reverse

/-- What the decoder reports for a text it cannot decode. -/
def decodeProblem : Problem :=
  .library "json".toList

/-- Decode the one value of a text; `extra` is said of a text with more. -/
def decodeOne {α : Type} (extra : String) (read : Json → Option α)
    (text : Text) : Result α :=
  match Json.value (text.length + 1) text with
  | none => .error decodeProblem
  | some (json, rest) =>
      match read json with
      | none => .error decodeProblem
      | some value => if Json.skip rest = [] then .ok value else fail extra

theorem decodeOne_parse {α : Type} {extra : String} {read : Json → Option α}
    {text : Text} {json : Json} {value : α}
    (parsed : Json.parse text = some json) (isRead : read json = some value) :
    decodeOne extra read text = .ok value := by
  unfold Json.parse at parsed
  unfold decodeOne
  split at parsed
  next first rest found =>
    split_ifs at parsed with blank
    obtain rfl := Option.some.inj parsed
    simp only [found, isRead, blank, if_true]
  next => simp at parsed

/-- A text that `print` wrote is decoded, whatever space follows it. -/
theorem decodeOne_print {α : Type} {extra : String} {read : Json → Option α}
    {json : Json} {value : α} (layout : Json.Layout) {space : Text}
    (blank : Json.skip space = []) (isRead : read json = some value) :
    decodeOne extra read (Json.print layout 0 json ++ space) = .ok value :=
  decodeOne_parse (Json.parse_print layout 0 json space blank) isRead

/-- `service.Parse` -/
def Config.parse (b : Text) : Result Config :=
  if maxConfigSize < b.bytes then fail "configuration exceeds 1 MiB"
  else if (trimSpace b).head? ≠ some '{' then
    fail "configuration must be a JSON object of at most 1 MiB"
  else do
    let c ← decodeOne "configuration must contain one JSON object"
      (Config.read · {}) (trimSpace b)
    c.defaults

/-! ## Revisions -/

/-- The bytes of a configuration in its file. -/
def Config.marshal (c : Config) : Text :=
  Json.print .indent 0 c.json ++ ['\n']

/-- What `parse` returns: a configuration, its bytes and their digest. -/
structure Parsed where
  config : Config
  bytes : Text
  revision : Text
  deriving DecidableEq

def Config.normalized (c : Config) : Result Parsed :=
  if maxConfigSize < c.marshal.bytes then
    fail "normalized configuration exceeds 1 MiB"
  else .ok ⟨c, c.marshal, Sha256.sum c.marshal⟩

def Config.validateIf (build : Config → Option Problem) (validate : Bool)
    (c : Config) : Result Unit :=
  if validate then c.validate build else .ok ()

/-- `parse` -/
def parse (build : Config → Option Problem) (b : Text) (validate : Bool) :
    Result Parsed := do
  let config ← Config.parse b
  config.validateIf build validate
  config.normalized

/-- The revision of a configuration. -/
def Config.revision (c : Config) : Text :=
  Sha256.sum c.marshal

theorem Config.revision_ne_nil (c : Config) : c.revision ≠ [] :=
  Sha256.sum_ne_nil c.marshal

theorem trimSpace_print (c : Config) :
    trimSpace c.marshal = Json.print .indent 0 c.json := by
  obtain ⟨body, same⟩ := Json.print_object .indent 0 (match c.json with
    | .obj members => members
    | _ => [])
  have braces : Json.print .indent 0 c.json = '{' :: (body ++ ['}']) := same
  have first : isWhite '{' = false := by decide
  have last : isWhite '}' = false := by decide
  have space : isWhite '\n' = true := by decide
  rw [Config.marshal, braces]
  simp [trimSpace, first, last, space]

theorem bind_eq_ok {α β : Type} {first : Result α} {next : α → Result β}
    {value : β} :
    (first >>= next) = .ok value ↔
      ∃ middle, first = .ok middle ∧ next middle = .ok value := by
  cases first with
  | error problem => simp [bind, Except.bind]
  | ok middle => simp [bind, Except.bind]

/-- A configuration with its defaults is read back from its bytes. -/
theorem Config.parse_marshal {c : Config} (filled : c.defaults = .ok c)
    (small : c.marshal.bytes ≤ maxConfigSize) :
    Config.parse c.marshal = .ok c := by
  have read : Config.read c.json {} = some c :=
    Config.read_json (Config.readable_of_defaults filled)
  have decoded : decodeOne "configuration must contain one JSON object"
      (Config.read · {}) (Json.print .indent 0 c.json) = .ok c := by
    simpa using @decodeOne_print _ _ _ _ _ .indent [] rfl read
  have brace : (Json.print .indent 0 c.json).head? = some '{' := rfl
  unfold Config.parse
  rw [if_neg (Nat.not_lt.mpr small), trimSpace_print, brace, decoded]
  simpa [bind, Except.bind] using filled

/-- What `Parse` returns has its defaults. -/
theorem Config.defaults_of_parse {b : Text} {c : Config}
    (parsed : Config.parse b = .ok c) : c.defaults = .ok c := by
  unfold Config.parse at parsed
  split_ifs at parsed
  · simp [fail] at parsed
  · simp [fail] at parsed
  · obtain ⟨raw, _, filled⟩ := bind_eq_ok.mp parsed
    exact Config.defaults_defaults filled

/-- What `parse` returns: the configuration has its defaults, its bytes fit
and the revision is that of the configuration. -/
theorem parse_spec {build : Config → Option Problem} {b : Text}
    {validate : Bool} {p : Parsed} (parsed : parse build b validate = .ok p) :
    p.config.defaults = .ok p.config ∧
      p.config.marshal.bytes ≤ maxConfigSize ∧
      p.bytes = p.config.marshal ∧ p.revision = p.config.revision := by
  unfold parse at parsed
  obtain ⟨config, read, checked⟩ := bind_eq_ok.mp parsed
  obtain ⟨_, _, written⟩ := bind_eq_ok.mp checked
  unfold Config.normalized at written
  split_ifs at written with large
  · simp [fail] at written
  · obtain rfl := Except.ok.inj written
    exact ⟨Config.defaults_of_parse read, Nat.not_lt.mp large, rfl, rfl⟩

/-- What was written is read back with its revision. -/
theorem parse_bytes {build other : Config → Option Problem} {b : Text}
    {validate : Bool} {p : Parsed} (parsed : parse build b validate = .ok p) :
    parse other p.bytes false = .ok p := by
  obtain ⟨filled, small, bytes, revision⟩ := parse_spec parsed
  have read := Config.parse_marshal filled small
  obtain ⟨config, written, digest⟩ := p
  obtain rfl : written = config.marshal := bytes
  obtain rfl : digest = config.revision := revision
  simp only at read small
  simp only [parse, read, bind, Except.bind, Config.validateIf,
    Bool.false_eq_true, if_false, Config.normalized, if_neg (Nat.not_lt.mpr small), Config.revision]

/-! ## Replacing a file -/

/-- The steps of replacing a file, any of which can fail. -/
inductive WriteStep where
  | create | write | sync | close | rename | openDirectory | syncDirectory
  deriving DecidableEq

/-- What became of a file: what it holds, whether the rename took effect and
which error was returned. -/
structure Written where
  file : Option Text
  committed : Bool
  error : Option Problem
  deriving DecidableEq

def writeProblem (step : WriteStep) : Problem :=
  .library (match step with
    | .create => "create".toList
    | .write => "write".toList
    | .sync => "sync".toList
    | .close => "close".toList
    | .rename => "rename".toList
    | .openDirectory => "open directory".toList
    | .syncDirectory => "sync directory".toList)

/-- `replaceConfig`: once renamed, the file is visible even when the directory
cannot be synced. -/
def replaceConfig (fault : Option WriteStep) (file : Option Text)
    (b : Text) : Written :=
  match fault with
  | none => ⟨some b, true, none⟩
  | some .rename => ⟨file, false, some (writeProblem .rename)⟩
  | some step => ⟨some b, true, some (writeProblem step)⟩

/-- `writeConfig` -/
def writeConfig (fault : Option WriteStep) (file : Option Text)
    (b : Text) : Written :=
  match fault with
  | some .create => ⟨file, false, some (writeProblem .create)⟩
  | some .write => ⟨file, false, some (writeProblem .write)⟩
  | some .sync => ⟨file, false, some (writeProblem .sync)⟩
  | some .close => ⟨file, false, some (writeProblem .close)⟩
  | _ => replaceConfig fault file b

/-- The file is replaced or left as it is, which is then an error. -/
theorem writeConfig_cases (fault : Option WriteStep) (file : Option Text)
    (b : Text) :
    ((writeConfig fault file b).committed = true ∧
        (writeConfig fault file b).file = some b) ∨
      ((writeConfig fault file b).committed = false ∧
        (writeConfig fault file b).file = file ∧
        (writeConfig fault file b).error ≠ none) := by
  cases fault with
  | none => exact .inl ⟨rfl, rfl⟩
  | some step =>
      cases step with
      | create | write | sync | close | rename =>
          exact .inr ⟨rfl, rfl, Option.some_ne_none _⟩
      | openDirectory | syncDirectory => exact .inl ⟨rfl, rfl⟩

end Veil.Control

import Veil.Control.Store

/-!
# Connection profiles

A profile is a client configuration with its listeners, or a relay that
connections go through.  Profiles are stored and digested as JSON and are read
back as they were.
-/

namespace Veil.Control

open Lib

/-- `service.Inlet` -/
structure Inlet where
  protocol : Text := []
  listen : Text := []
  deriving DecidableEq

structure Profile where
  id : Text := []
  name : Text := []
  kind : Text := []
  enabled : Bool := false
  relayID : Text := []
  config : Config := {}
  inlets : Option (List Inlet) := none
  deriving DecidableEq

/-- The listeners of a profile; no list is an empty one. -/
def Profile.listeners (p : Profile) : List Inlet :=
  p.inlets.getD []

def connectionKind : Text :=
  "connection".toList

def relayKind : Text :=
  "relay".toList

/-! ## Profiles as JSON -/

inductive InletField where
  | protocol | listen
  deriving DecidableEq

namespace InletField

def name : InletField → Text
  | protocol => "protocol".toList
  | listen => "listen".toList

def ofName : Text → Option InletField :=
  Json.named [protocol, listen] name

theorem ofName_name (field : InletField) :
    ofName field.name = some field := by
  cases field <;> decide +kernel

end InletField

namespace Inlet

def json (a : Inlet) : Json :=
  .obj [(InletField.protocol.name, .str a.protocol),
    (InletField.listen.name, .str a.listen)]

def set (field : InletField) (json : Json) (a : Inlet) : Option Inlet :=
  match field with
  | .protocol => (Json.readText json a.protocol).map ({ a with protocol := · })
  | .listen => (Json.readText json a.listen).map ({ a with listen := · })

def read : Json → Inlet → Option Inlet :=
  Json.readStruct InletField.ofName set

theorem read_json (a : Inlet) : read a.json {} = some a := by
  have member := InletField.ofName_name
  simp only [read, json, Json.readStruct]
  rw [Json.readMembers_cons (member .protocol) rfl,
    Json.readMembers_cons (member .listen) rfl, Json.readMembers]

end Inlet

inductive ProfileField where
  | id | name | kind | enabled | relayID | config | inlets
  deriving DecidableEq

namespace ProfileField

def label : ProfileField → Text
  | id => "id".toList
  | name => "name".toList
  | kind => "kind".toList
  | enabled => "enabled".toList
  | relayID => "relay_id".toList
  | config => "config".toList
  | inlets => "inlets".toList

def ofName : Text → Option ProfileField :=
  Json.named [id, name, kind, enabled, relayID, config, inlets] label

theorem ofName_label (field : ProfileField) :
    ofName field.label = some field := by
  cases field <;> decide +kernel

end ProfileField

namespace Profile

def json (p : Profile) : Json :=
  .obj ((ProfileField.id.label, .str p.id) ::
    (ProfileField.name.label, .str p.name) ::
    (ProfileField.kind.label, .str p.kind) ::
    (ProfileField.enabled.label, .bool p.enabled) ::
    (Json.optional ProfileField.relayID.label (textOrNone p.relayID) ++
      [(ProfileField.config.label, p.config.json),
        (ProfileField.inlets.label, Json.listJson Inlet.json p.inlets)]))

def set (field : ProfileField) (json : Json) (p : Profile) :
    Option Profile :=
  match field with
  | .id => (Json.readText json p.id).map ({ p with id := · })
  | .name => (Json.readText json p.name).map ({ p with name := · })
  | .kind => (Json.readText json p.kind).map ({ p with kind := · })
  | .enabled => (Json.readBool json p.enabled).map ({ p with enabled := · })
  | .relayID => (Json.readText json p.relayID).map ({ p with relayID := · })
  | .config => (Config.read json p.config).map ({ p with config := · })
  | .inlets =>
      (Json.readList Inlet.read {} json p.inlets).map ({ p with inlets := · })

def read : Json → Profile → Option Profile :=
  Json.readStruct ProfileField.ofName set

theorem set_config (p : Profile) {c : Config} (readable : c.Readable)
    (unset : p.config = {}) :
    set .config c.json p = some { p with config := c } := by
  simp [set, unset, Config.read_json readable]

theorem set_inlets (p : Profile) (inlets : Option (List Inlet)) :
    set .inlets (Json.listJson Inlet.json inlets) p =
      some { p with inlets } := by
  have items : Json.readList Inlet.read {} (Json.listJson Inlet.json inlets)
      p.inlets = some inlets :=
    Json.readList_listJson fun _ _ a _ => Inlet.read_json a
  simp [set, items]

/-- Profiles are read back. -/
theorem read_json {p : Profile} (readable : p.config.Readable) :
    read p.json {} = some p := by
  have member := ProfileField.ofName_label
  simp only [read, json, Json.readStruct]
  rw [Json.readMembers_cons (member .id) rfl,
    Json.readMembers_cons (member .name) rfl,
    Json.readMembers_cons (member .kind) rfl,
    Json.readMembers_cons (member .enabled) rfl,
    readMembers_text (fun text p => { p with relayID := text })
      (member .relayID) (fun _ => rfl) rfl,
    Json.readMembers_cons (member .config) (set_config _ readable rfl),
    Json.readMembers_cons (member .inlets) (set_inlets _ _),
    Json.readMembers]

/-- `revision` -/
def revision (p : Profile) : Text :=
  Sha256.sum (Json.print .compact 0 p.json)

end Profile

/-- `catalogFile` -/
structure CatalogFile where
  version : Int := 0
  profiles : Option (List Profile) := none
  deriving DecidableEq

inductive CatalogField where
  | version | profiles
  deriving DecidableEq

namespace CatalogField

def name : CatalogField → Text
  | version => "version".toList
  | profiles => "profiles".toList

def ofName : Text → Option CatalogField :=
  Json.named [version, profiles] name

theorem ofName_name (field : CatalogField) :
    ofName field.name = some field := by
  cases field <;> decide +kernel

end CatalogField

namespace CatalogFile

def json (f : CatalogFile) : Json :=
  .obj [(CatalogField.version.name, .num f.version),
    (CatalogField.profiles.name, Json.listJson Profile.json f.profiles)]

def set (field : CatalogField) (json : Json) (f : CatalogFile) :
    Option CatalogFile :=
  match field with
  | .version => (Json.readInt json f.version).map ({ f with version := · })
  | .profiles =>
      (Json.readList Profile.read {} json f.profiles).map
        ({ f with profiles := · })

def read : Json → CatalogFile → Option CatalogFile :=
  Json.readStruct CatalogField.ofName set

/-- The file of a list of profiles. -/
def ofList (list : List Profile) : CatalogFile :=
  { version := 1, profiles := some list }

/-- A stored list of profiles is read back. -/
theorem read_ofList {list : List Profile}
    (readable : ∀ p ∈ list, p.config.Readable) :
    read (ofList list).json {} = some (ofList list) := by
  have member := CatalogField.ofName_name
  have items (old : Option (List Profile)) :
      Json.readList Profile.read {} (Json.listJson Profile.json (some list))
        old = some (some list) := by
    apply Json.readList_listJson
    intro present same p stored
    obtain rfl := Option.mem_some_iff.mp same
    exact Profile.read_json (readable p stored)
  simp only [read, json, ofList, Json.readStruct]
  rw [Json.readMembers_cons (member .version) rfl]
  simp only [Json.readMembers, member, set, Option.bind_eq_bind,
    Option.bind_some, items, Option.map_some]

end CatalogFile

end Veil.Control

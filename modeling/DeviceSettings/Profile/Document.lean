import DeviceSettings.Profile
import DeviceSettings.Yaml.Source

/-!
# Profiles as documents

The form of a profile in a document: a section for each part of the device.  Sections and tables that are left
out have their standard content, and nodes that a device lacks are left out.
-/

namespace DeviceSettings

open Document (Reader Field Read Content)

variable {σ : Type}

def pathReader : Reader σ Path := fun c t => Path.mk <$> Document.textOf "path string" c t

/-! ## reading -/

/-- A field for what a section may lack. -/
def Document.Field.lacking {ρ α : Type} (name : String) (r : Reader σ α) (set : ρ → Option α → ρ) :
    Field σ ρ :=
  .defaulted name (Document.optional r) set

def Gate.reader : Reader σ Gate :=
  Document.record "DependencyBinding"
    [.needed "node" pathReader fun g v => { g with node := v },
     .needed "required" Document.text fun g v => { g with required := v }]
    default

def Buttons.reader : Reader σ Buttons :=
  Document.record "ButtonsSection"
    [.defaulted "boolean_nodes" (Document.table pathReader) fun b v => { b with switches := v },
     .defaulted "string_nodes" (Document.table pathReader) fun b v => { b with texts := v },
     .defaulted "dependencies" (Document.table Gate.reader) fun b v => { b with gates := v },
     .defaulted "presence_nodes" (Document.list pathReader) fun b v => { b with presence := v }]
    .standard

def PocketKeys.reader : Reader σ PocketKeys :=
  Document.record "PocketSection"
    [.needed "wakeup_key" Document.text fun p v => { p with wakeup := v },
     .needed "pocket_mode_key" Document.text fun p v => { p with pocketMode := v },
     .needed "package" Document.text fun p v => { p with package := v },
     .lacking "wakeup_node" pathReader fun p v => { p with wakeupNode := v }]
    .standard

def SearchTable.reader : Reader σ SearchTable :=
  Document.record "SearchSection"
    [.defaulted "node_gated_keys" (Document.list Document.text) fun s v => { s with gatedKeys := v },
     .needed "packages_list" pathReader fun s v => { s with packagesList := v }]
    .standard

namespace VirtualKeys

def sourceNames : List String := ["key_disabler", "preference"]

/-- The setting's key, given as a text. -/
def keyOf : Content → Read Key
  | .scalar (.text s) => pure s
  | c => Document.fail (.wrongType c.found "a string")

/-- Is an entry's name that of the field `key`?  A field may also be named by its number. -/
def isKeyField : Content → Read Bool
  | .scalar (.text s) => pure (s == "key")
  | .scalar (.integer n) =>
    if 0 ≤ n then pure (n == 0) else Document.fail (.wrongType (.integer n) "field identifier")
  | c => Document.fail (.wrongType c.found "field identifier")

def settingOf : Content → Read Key
  | .map entries => do
    let found ← entries.foldlM (fun (found : Option Key) (name, value) => do
      if ← isKeyField name then
        if found.isSome then Document.fail (.duplicateField "key")
        some <$> keyOf value
      else pure found) none
    match found with
    | some key => pure key
    | none => Document.fail (.missingField "key")
  | .list [] =>
    Document.fail (.wrongLength 0 "struct variant VirtualKeySource::Preference with 1 element")
  | .list (value :: rest) => do
    let key ← keyOf value
    if !rest.isEmpty then Document.fail (.wrongLength (rest.length + 1) "1 element in sequence")
    pure key
  | .scalar f => Document.fail (.wrongType f "struct variant VirtualKeySource::Preference")

def reader : Reader σ VirtualKeys := fun c t => do
  let (source, content) ← Document.tagged "VirtualKeySource" "source" sourceNames c t
  if source = "preference" then VirtualKeys.setting <$> settingOf content
  else match content with
  | .list (v :: rest) =>
    Document.fail (.wrongLength (v :: rest).length "0 elements in sequence")
  | _ => pure .disablerNode

end VirtualKeys

/-- the codes that key events carry -/
def scanCodeLimit : Nat := Nat.pow 2 16

def KeyTable.reader : Reader σ KeyTable :=
  Document.record "KeysSection"
    [.lacking "fp_home_node" pathReader fun k v => { k with fingerprintNode := v },
     .lacking "key_disabler_node" pathReader fun k v => { k with disablerNode := v },
     .lacking "key_swapper_node" pathReader fun k v => { k with swapperNode := v },
     .defaulted "fp_home_scan_code" (Document.natural "u16" scanCodeLimit)
       fun k v => { k with fingerprintCode := v },
     .defaulted "mechanical_home_scan_code" (Document.natural "u16" scanCodeLimit)
       fun k v => { k with mechanicalCode := v },
     .defaulted "virtual_keys" VirtualKeys.reader fun k v => { k with virtualKeys := v }]
    .standard

def DozeKeys.reader : Reader σ DozeKeys :=
  Document.record "DozeSection"
    [.needed "enabled_key" Document.text fun d v => { d with enabled := v },
     .needed "always_on_key" Document.text fun d v => { d with alwaysOn := v },
     .needed "pick_up_key" Document.text fun d v => { d with pickUp := v },
     .needed "hand_wave_key" Document.text fun d v => { d with handWave := v },
     .needed "pocket_key" Document.text fun d v => { d with pocket := v },
     .defaulted "always_on_available" Document.boolean fun d v => { d with alwaysOnAvailable := v },
     .defaulted "proximity_check_before_pulse" Document.boolean
       fun d v => { d with proximityCheck := v }]
    .standard

namespace Profile

def versionLimit : Nat := Nat.pow 2 32

/-- A profile in which nothing is said. -/
def blank : Profile :=
  ⟨0, "", .standard, .standard, .standard, .standard, .standard, .empty⟩

def reader : Reader σ Profile :=
  Document.record "DeviceProfile"
    [.needed "version" (Document.natural "u32" versionLimit) fun p v => { p with version := v },
     .needed "device" Document.text fun p v => { p with device := v },
     .defaulted "buttons" Buttons.reader fun p v => { p with buttons := v },
     .defaulted "pocket" PocketKeys.reader fun p v => { p with pocket := v },
     .defaulted "search" SearchTable.reader fun p v => { p with search := v },
     .defaulted "keys" KeyTable.reader fun p v => { p with keys := v },
     .defaulted "doze" DozeKeys.reader fun p v => { p with doze := v },
     .defaulted "defaults" (Document.table Value.reader) fun p v => { p with defaults := v }]
    blank

/-- The profile that a YAML text holds. -/
def parse (s : String) : Except Document.Problem Profile := Yaml.read reader s

end Profile

/-! ## writing -/

open Yaml.Value (text natural boolean list map)

def Path.yaml (p : Path) : Yaml.Value := Yaml.Value.text p.text

def Path.tableYaml (t : Table Key Path) : Yaml.Value := map (t.entries.map fun (k, p) => (k, p.yaml))

/-- An entry that is left out when there is nothing to write. -/
def lackingEntry (name : String) (p : Option Path) : List (String × Yaml.Value) :=
  p.toList.map fun p => (name, p.yaml)

def Gate.yaml (g : Gate) : Yaml.Value := map [("node", g.node.yaml), ("required", text g.required)]

def Buttons.yaml (b : Buttons) : Yaml.Value :=
  map [("boolean_nodes", Path.tableYaml b.switches), ("string_nodes", Path.tableYaml b.texts),
    ("dependencies", map (b.gates.entries.map fun (k, g) => (k, g.yaml))),
    ("presence_nodes", list (b.presence.map Path.yaml))]

def PocketKeys.yaml (p : PocketKeys) : Yaml.Value :=
  map ([("wakeup_key", text p.wakeup), ("pocket_mode_key", text p.pocketMode),
    ("package", text p.package)] ++ lackingEntry "wakeup_node" p.wakeupNode)

def SearchTable.yaml (s : SearchTable) : Yaml.Value :=
  map [("node_gated_keys", list (s.gatedKeys.map text)), ("packages_list", s.packagesList.yaml)]

def VirtualKeys.yaml : VirtualKeys → Yaml.Value
  | disablerNode => map [("source", text "key_disabler")]
  | setting key => map [("source", text "preference"), ("key", text key)]

def KeyTable.yaml (k : KeyTable) : Yaml.Value :=
  map (lackingEntry "fp_home_node" k.fingerprintNode ++ lackingEntry "key_disabler_node" k.disablerNode
    ++ lackingEntry "key_swapper_node" k.swapperNode
    ++ [("fp_home_scan_code", natural k.fingerprintCode),
      ("mechanical_home_scan_code", natural k.mechanicalCode), ("virtual_keys", k.virtualKeys.yaml)])

def DozeKeys.yaml (d : DozeKeys) : Yaml.Value :=
  map [("enabled_key", text d.enabled), ("always_on_key", text d.alwaysOn),
    ("pick_up_key", text d.pickUp), ("hand_wave_key", text d.handWave), ("pocket_key", text d.pocket),
    ("always_on_available", boolean d.alwaysOnAvailable),
    ("proximity_check_before_pulse", boolean d.proximityCheck)]

namespace Profile

/-- The entries of a profile's document. -/
def entries (p : Profile) : List (String × Yaml.Value) :=
  [("version", natural p.version), ("device", text p.device), ("buttons", p.buttons.yaml),
    ("pocket", p.pocket.yaml), ("search", p.search.yaml), ("keys", p.keys.yaml),
    ("doze", p.doze.yaml), ("defaults", map (p.defaults.entries.map fun (k, v) => (k, v.yaml)))]

/-- A profile as a YAML text. -/
def print (p : Profile) : String := Yaml.Value.print p.entries

end Profile

end DeviceSettings

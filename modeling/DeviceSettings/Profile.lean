import DeviceSettings.Path
import DeviceSettings.Table
import DeviceSettings.Value

/-!
# Device profiles

The fixed tables of one device: which settings are mirrored to which control nodes, which are gated on a
node, and what the services beside the button panel look at.  `Profile.fault?` finds tables that contradict
each other.
-/

namespace DeviceSettings

/-- A control is usable while another node holds a certain text. -/
structure Gate where
  node : Path
  required : String
deriving DecidableEq, Repr, Inhabited

/-- The button panel. -/
structure Buttons where
  /-- switches, mirrored as `1` and `0` -/
  switches : Table Key Path
  /-- list settings, mirrored as they are -/
  texts : Table Key Path
  gates : Table Key Gate
  /-- without any of these nodes the device has no button panel -/
  presence : List Path
deriving DecidableEq, Inhabited

structure PocketKeys where
  wakeup : Key
  pocketMode : Key
  package : String
  wakeupNode : Option Path
deriving DecidableEq, Repr, Inhabited

structure SearchTable where
  /-- the keys that are hidden without a button panel -/
  gatedKeys : List Key
  packagesList : Path
deriving DecidableEq, Repr, Inhabited

/-- Where to look whether the virtual keys are on. -/
inductive VirtualKeys
  | disablerNode
  | setting (key : Key)
deriving DecidableEq, Repr, Inhabited

structure KeyTable where
  fingerprintNode : Option Path
  disablerNode : Option Path
  swapperNode : Option Path
  fingerprintCode : Nat
  mechanicalCode : Nat
  virtualKeys : VirtualKeys
deriving DecidableEq, Repr, Inhabited

structure DozeKeys where
  enabled : Key
  alwaysOn : Key
  pickUp : Key
  handWave : Key
  pocket : Key
  alwaysOnAvailable : Bool
  proximityCheck : Bool
deriving DecidableEq, Repr, Inhabited

structure Profile where
  version : Nat
  device : String
  buttons : Buttons
  pocket : PocketKeys
  search : SearchTable
  keys : KeyTable
  doze : DozeKeys
  /-- values of settings that were never stored -/
  defaults : Table Key Value
deriving DecidableEq, Inhabited

/-! ## defaults of the sections -/

def Buttons.standard : Buttons := ⟨.empty, .empty, .empty, []⟩

def PocketKeys.standard : PocketKeys := ⟨"fp_wakeup", "fp_pocketmode", "org.lineageos.pocketmode", none⟩

def SearchTable.standard : SearchTable := ⟨[], ⟨"/data/system/packages.list"⟩⟩

def KeyTable.standard : KeyTable := ⟨none, none, none, 96, 102, .disablerNode⟩

def DozeKeys.standard : DozeKeys :=
  ⟨"doze_enable", "always_on_display", "gesture_pick_up", "gesture_hand_wave", "gesture_pocket", true,
    true⟩

namespace Profile

/-- the version of the tables -/
def currentVersion : Nat := 1

/-- The profile of the msm8996 family, with its fingerprint sensor and touch keys. -/
def builtin : Profile :=
  let sensor := "/sys/devices/soc/soc:fpc_fpc1020"
  let home : Path := ⟨sensor ++ "/enable_key_events"⟩
  let wakeup : Path := ⟨sensor ++ "/enable_wakeup"⟩
  let swap : Path := ⟨"/proc/touchpanel/reversed_keys_enable"⟩
  { version := currentVersion
    device := "msm8996"
    buttons :=
      { switches := .ofList [("fp_home", home), ("fp_wakeup", wakeup), ("button_swap", swap)]
        texts := .empty
        gates := .ofList [("fp_pocketmode", ⟨wakeup, "1"⟩)]
        presence := [home, wakeup] }
    pocket := { PocketKeys.standard with wakeupNode := some wakeup }
    search := { SearchTable.standard with gatedKeys := ["fp_home", "fp_wakeup"] }
    keys :=
      { KeyTable.standard with
        fingerprintNode := some home
        disablerNode := some ⟨"/proc/touchpanel/capacitive_keys_enable"⟩
        swapperNode := some swap }
    doze := .standard
    defaults := .ofList
      (["fp_home", "fp_wakeup", "fp_pocketmode", "button_swap"].map fun k => (k, Value.switch false)) }

/-! ## looking up -/

inductive NodeKind
  | switch
  | text
deriving DecidableEq, Repr, Inhabited

/-- The node that mirrors a setting, and how. -/
def boundNode? (p : Profile) (key : Key) : Option (Path × NodeKind) :=
  match p.buttons.switches.get? key with
  | some node => some (node, .switch)
  | none => (p.buttons.texts.get? key).map fun node => (node, .text)

/-- The settings that are gated on a node, in key order. -/
def gatedOn (p : Profile) (node : Path) : List Key :=
  (p.buttons.gates.entries.filter fun (_, gate) => decide (gate.node.Same node)).map (·.1)

/-- The default of a switch is off unless the profile says otherwise. -/
def defaultSwitch (p : Profile) (key : Key) : Bool :=
  ((p.defaults.get? key).bind Value.switch?).getD false

def defaultText? (p : Profile) (key : Key) : Option String := (p.defaults.get? key).bind Value.text?

/-! ## validity -/

/-- How the tables of a profile contradict each other. -/
inductive Fault
  | version (n : Nat)
  | boundTwice (key : Key)
  | gatedText (key : Key)
  | wrongDefault (key : Key)
deriving DecidableEq, Repr

def Fault.message : Fault → String
  | version n =>
    "unsupported profile version " ++ toString n ++ " (expected " ++ toString currentVersion ++ ")"
  | boundTwice key => "key '" ++ key ++ "' is bound as both a boolean and a string node"
  | gatedText key => "dependency key '" ++ key ++ "' must be a switch, not a string node"
  | wrongDefault key => "default for '" ++ key ++ "' does not match its node kind"

/-- Does a value have the kind of the node that mirrors the setting? -/
def suits (p : Profile) (key : Key) (v : Value) : Bool :=
  match p.boundNode? key with
  | some (_, .switch) => v.switch?.isSome
  | some (_, .text) => v.text?.isSome
  | none => true

/-- The first contradiction in a profile. -/
def fault? (p : Profile) : Option Fault :=
  if p.version ≠ currentVersion then some (.version p.version)
  else match p.buttons.texts.keys.find? p.buttons.switches.contains with
  | some key => some (.boundTwice key)
  | none =>
    match p.buttons.gates.keys.find? p.buttons.texts.contains with
    | some key => some (.gatedText key)
    | none => (p.defaults.entries.find? fun (k, v) => !p.suits k v).map fun e => .wrongDefault e.1

def IsValid (p : Profile) : Prop := p.fault? = none

instance (p : Profile) : Decidable p.IsValid := inferInstanceAs (Decidable (_ = none))

end Profile

end DeviceSettings

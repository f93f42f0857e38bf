import DeviceSettings.Node
import DeviceSettings.Preferences

/-!
# Key events

What happens to an event of a HOME key, and the two nodes of the touch keys.
-/

namespace DeviceSettings

structure KeyEvent where
  keyCode : Nat
  scanCode : Nat
deriving DecidableEq, Repr, Inhabited

/-- What an event is judged by besides itself. -/
structure KeyContext where
  setupComplete : Bool
  screenOn : Bool
  virtualKeys : Bool
  fingerprint : Bool
deriving DecidableEq, Repr, Inhabited

/-- What becomes of an event. -/
inductive Disposition
  | consumed
  | passThrough
deriving DecidableEq, Repr, Inhabited

def Disposition.name : Disposition → String
  | consumed => "consumed"
  | passThrough => "pass-through"

/-! ## the disabler of the touch keys -/

namespace KeyDisabler

/-- Are the keys disabled?  The node holds `0` while they are. -/
def isEnabled (disk : Disk) (node : Path) : Bool :=
  Node.token? disk node == some (Value.switchToken false)

def set (node : Path) (enabled : Bool) (d : Device) : Except DeviceError Unit × Device :=
  Node.write node (Value.switchToken !enabled) d

end KeyDisabler

/-! ## the swapper of the back and recents keys -/

namespace KeySwapper

def isSupported (disk : Disk) (node : Path) : Bool := Node.exists_ disk node

def isEnabled (disk : Disk) (node : Path) : Bool := isSupported disk node && Node.isSet disk node

/-- Swaps the keys or not; answers whether the device can. -/
def set (node : Path) (enabled : Bool) (d : Device) : Except DeviceError Bool × Device :=
  if !isSupported d.disk node then (.ok false, d)
  else match Node.write node (Value.switchToken enabled) d with
  | (.ok _, d) => (.ok true, d)
  | (.error e, d) => (.error e, d)

end KeySwapper

/-! ## events -/

namespace KeyTable

/-- the key code of HOME keys -/
def homeCode : Nat := 3

/-- Are the virtual keys on? -/
def virtualKeysOn (k : KeyTable) (s : Preferences) (disk : Disk) : Bool :=
  match k.virtualKeys with
  | .disablerNode => k.disablerNode.any (KeyDisabler.isEnabled disk)
  | .setting key => s.getSwitch key false

/-- What an event is judged by now. -/
def context (k : KeyTable) (setupComplete screenOn : Bool) (s : Preferences) (disk : Disk) :
    KeyContext :=
  ⟨setupComplete, screenOn, k.virtualKeysOn s disk, k.fingerprintNode.any (Node.isSet disk)⟩

/-- The fingerprint key is consumed while the virtual keys are on; the mechanical key also while the
fingerprint key works, but only with the screen on. -/
def consumes (k : KeyTable) (e : KeyEvent) (c : KeyContext) : Bool :=
  if e.scanCode = k.fingerprintCode then c.virtualKeys
  else if e.scanCode = k.mechanicalCode then c.screenOn && (c.virtualKeys || c.fingerprint)
  else false

def handle (k : KeyTable) (e : KeyEvent) (c : KeyContext) : Disposition :=
  if c.setupComplete && e.keyCode = homeCode && k.consumes e c then .consumed else .passThrough

end KeyTable

end DeviceSettings

import DeviceSettings.Components
import DeviceSettings.Node
import DeviceSettings.Pocket
import DeviceSettings.Search

/-!
# Booting

What happens once after the device has booted.  Without a button panel its entry point is hidden and that is
all; with one, every stored value is written to its node and pocket mode is decided.
-/

namespace DeviceSettings.Boot

/-- A value that was to be written to its node. -/
structure Restored where
  key : Key
  node : Path
  value : Value
  written : Bool
deriving DecidableEq, Repr, Inhabited

structure Report where
  hasButtons : Bool
  entryPointEnabled : Bool
  restored : List Restored
  request : Option Request
deriving Inhabited

def Report.failed (r : Report) : List Key := (r.restored.filter (!·.written)).map (·.key)

/-- The values to restore, with their nodes: switches first.  A list setting without a value is left out. -/
def values (p : Profile) (s : Preferences) : List (Key × Path × Value) :=
  (p.buttons.switches.entries.map fun (key, node) => (key, node, .switch (s.switchOrDefault p key)))
    ++ p.buttons.texts.entries.filterMap fun (key, node) =>
      (s.textOrDefault? p key).map fun text => (key, node, .text text)

/-- Writes values to their nodes, each whether or not the others could be written. -/
def restore : List (Key × Path × Value) → Device → List Restored × Device
  | [], d => ([], d)
  | (key, node, value) :: rest, d =>
    let (r, d) := Node.write node value.token d
    let (done, d) := restore rest d
    (⟨key, node, value, r.toBool⟩ :: done, d)

/-- Shows or hides the entry point of the button panel. -/
def showEntryPoint (shown : Bool) (c : Components) (d : Device) : Components × Device :=
  (c.set Components.buttonSettings shown d).2

/-- The boot sequence. -/
def run (p : Profile) (s : Preferences) (c : Components) (d : Device) :
    Report × Components × Device :=
  if p.hasButtons d.disk then
    let (c, d) :=
      if c.isEnabled Components.buttonSettings then (c, d) else showEntryPoint true c d
    let (restored, d) := restore (values p s) d
    (⟨true, c.isEnabled Components.buttonSettings, restored, some (p.pocket.request s)⟩, c, d)
  else
    let (c, d) := showEntryPoint false c d
    (⟨false, c.isEnabled Components.buttonSettings, [], none⟩, c, d)

end DeviceSettings.Boot

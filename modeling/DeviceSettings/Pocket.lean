import DeviceSettings.Preferences
import DeviceSettings.Service

/-!
# Pocket mode

The pocket mode service is to run exactly while waking by fingerprint and pocket mode are both on.
-/

namespace DeviceSettings.PocketKeys

/-- Does a change of the setting call for a new decision? -/
def watches (p : PocketKeys) (key : Key) : Bool := key == p.wakeup || key == p.pocketMode

/-- Should the service run? -/
def decide (p : PocketKeys) (s : Preferences) : Bool :=
  s.getSwitch p.wakeup false && s.getSwitch p.pocketMode false

def request (p : PocketKeys) (s : Preferences) : Request := ⟨.pocketMode, p.decide s⟩

end DeviceSettings.PocketKeys

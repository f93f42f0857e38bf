import DeviceSettings.Path

/-!
# The home directory

Where the program keeps its documents below a home directory.
-/

namespace DeviceSettings.Home

def root (home : Path) : Path := home.join ".parts"

def profile (home : Path) : Path := (root home).join "profile.yaml"

def preferences (home : Path) : Path := (root home).join "prefs.json"

def components (home : Path) : Path := (root home).join "components.json"

/-- The pending choices of a session are kept below the directory of its preferences. -/
def pendingBeside (preferences : Path) : Path :=
  ((preferences.parent?.getD ⟨"."⟩).join "run").join "pending.json"

def pending (home : Path) : Path := pendingBeside (preferences home)

def run (home : Path) : Path := (root home).join "run"

def socket (home : Path) : Path := (run home).join "parts.sock"

end DeviceSettings.Home

/-!
# Services

The services that run beside the settings, and the requests made to them.
-/

namespace DeviceSettings

inductive Service
  /-- keeps the fingerprint sensor from waking the device in a pocket -/
  | pocketMode
  /-- the gesture sensors of the ambient display -/
  | doze
deriving DecidableEq, Repr, Inhabited

namespace Service

def name : Service → String
  | pocketMode => "pocket_mode"
  | doze => "doze"

/-- The service of a name; pocket mode may be written as one word. -/
def ofName? (s : String) : Option Service :=
  if s = "pocket_mode" || s = "pocketmode" then some pocketMode
  else if s = "doze" then some doze
  else none

def unknownMessage (s : String) : String :=
  "unknown service '" ++ s ++ "'; expected: pocket_mode, doze"

theorem ofName?_name (s : Service) : ofName? s.name = some s := by cases s <;> decide

end Service

/-- A request that a service run or not. -/
structure Request where
  service : Service
  start : Bool
deriving DecidableEq, Repr, Inhabited

end DeviceSettings

import DeviceSettings.Disk
import DeviceSettings.Document.Problem

/-!
# Errors of the profile and the preferences

Why a profile or a preference document could not be loaded or saved, and how that is worded.
-/

namespace DeviceSettings

inductive StoreError
  | io (cause : OsError)
  /-- a profile that could not be written as a document -/
  | unwritten (why : Document.Problem)
  | malformedProfile (path : Path) (why : Document.Problem)
  | json (why : Document.Problem)
  | malformedPreferences (path : Path) (why : Document.Problem)
  | noHome
  | noProfile (path : Path)
  | invalidProfile (why : String)
deriving DecidableEq, Repr, Inhabited

def StoreError.message : StoreError → String
  | io cause => "I/O error: " ++ cause.message
  | unwritten why => "YAML serialization error: " ++ why.message
  | malformedProfile path why =>
    "failed to parse profile at " ++ path.text ++ ": " ++ why.message
  | json why => "JSON error: " ++ why.message
  | malformedPreferences path why =>
    "failed to parse preferences at " ++ path.text ++ ": " ++ why.message
  | noHome => "cannot determine home directory; set $HOME or equivalent"
  | noProfile path =>
    "device profile not found at " ++ path.text ++ "; run \x60parts init\x60 first"
  | invalidProfile why => "invalid device profile: " ++ why

end DeviceSettings

import DeviceSettings.StoreError

/-!
# Errors of nodes and services

Why a node could not be read or written, a store beside it could not be used, or a request to a service was not
delivered.
-/

namespace DeviceSettings

inductive DeviceError
  | nodeMissing (path : Path)
  | nodeUnreadable (path : Path)
  | nodeUnwritable (path : Path)
  /-- the node was opened, but did not take its text -/
  | writeFailed (path : Path) (cause : OsError)
  | io (path : Path) (cause : OsError)
  | store (error : StoreError)
  /-- a document of components or pending choices is malformed -/
  | json (why : Document.Problem)
  | service (why : String)
deriving DecidableEq, Repr, Inhabited

def DeviceError.message : DeviceError → String
  | nodeMissing path => "node missing: " ++ path.text
  | nodeUnreadable path => "node unreadable: " ++ path.text
  | nodeUnwritable path => "node unwritable: " ++ path.text
  | writeFailed path cause => "write to " ++ path.text ++ " failed: " ++ cause.message
  | io path cause => "I/O error at " ++ path.text ++ ": " ++ cause.message
  | store error => "config error: " ++ error.message
  | json why => "component store JSON error: " ++ why.message
  | service why => "service control error: " ++ why

end DeviceSettings

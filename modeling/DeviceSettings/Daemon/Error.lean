import DeviceSettings.DeviceError

/-!
# Errors of the daemon

Why the daemon ended or a client got no answer, and how that is worded.
-/

namespace DeviceSettings

inductive DaemonError
  | io (path : Path) (cause : OsError)
  | store (error : StoreError)
  | device (error : DeviceError)
  | json (why : Document.Problem)
  | protocol (why : String)
  | notRunning (socket : Path)
deriving DecidableEq, Repr, Inhabited

def DaemonError.message : DaemonError → String
  | io path cause => "I/O error at " ++ path.text ++ ": " ++ cause.message
  | store error => "config error: " ++ error.message
  | device error => "sync error: " ++ error.message
  | json why => "JSON error: " ++ why.message
  | protocol why => "daemon protocol error: " ++ why
  | notRunning socket => "daemon is not running (socket missing: " ++ socket.text ++ ")"

end DeviceSettings

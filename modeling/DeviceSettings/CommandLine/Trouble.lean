import DeviceSettings.Daemon.Error
import DeviceSettings.Text.Blank

/-!
# Troubles

What the command line says when a command fails: a message and the causes behind it, each of which explains
the one before.
-/

namespace DeviceSettings

/-! ## what is behind an error -/

def StoreError.causes : StoreError → List String
  | io cause => [cause.message]
  | unwritten why | malformedProfile _ why | json why | malformedPreferences _ why => [why.message]
  | noHome | noProfile _ | invalidProfile _ => []

def DeviceError.causes : DeviceError → List String
  | writeFailed _ cause | io _ cause => [cause.message]
  | store error => error.message :: error.causes
  | json why => [why.message]
  | nodeMissing _ | nodeUnreadable _ | nodeUnwritable _ | service _ => []

def DaemonError.causes : DaemonError → List String
  | io _ cause => [cause.message]
  | store error => error.message :: error.causes
  | device error => error.message :: error.causes
  | json why => [why.message]
  | protocol _ | notRunning _ => []

namespace CommandLine

structure Trouble where
  message : String
  causes : List String
deriving DecidableEq, Repr, Inhabited

namespace Trouble

/-- A trouble with nothing behind it. -/
def plain (message : String) : Trouble := ⟨message, []⟩

/-- The same trouble, seen as the cause of another. -/
def behind (t : Trouble) (message : String) : Trouble := ⟨message, t.message :: t.causes⟩

def ofStore (message : String) (e : StoreError) : Trouble := ⟨message, e.message :: e.causes⟩

def ofDevice (message : String) (e : DeviceError) : Trouble := ⟨message, e.message :: e.causes⟩

def ofDaemon (message : String) (e : DaemonError) : Trouble := ⟨message, e.message :: e.causes⟩

/-- A text with its lines set off, the first one by `head` and the others by `rest`. -/
def setOff (head rest : String) (s : String) : String :=
  head ++ String.intercalate ("\n" ++ rest) ((Text.splitOn '\n' s.toList).map .ofList)

/-- Several causes are numbered. -/
def causeLines : List String → List String
  | [cause] => [setOff "    " "    " cause]
  | causes => causes.zipIdx.map fun (cause, i) =>
    let n := toString i
    setOff (.ofList (List.replicate (5 - n.length) ' ') ++ n ++ ": ") "       " cause

/-- The text of a trouble. -/
def text (t : Trouble) : String :=
  "Error: " ++ t.message
    ++ (if t.causes.isEmpty then ""
        else "\n\nCaused by:" ++ String.join ((causeLines t.causes).map ("\n" ++ ·)))
    ++ "\n"

end Trouble

end CommandLine

end DeviceSettings

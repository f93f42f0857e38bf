import DeviceSettings.Device
import DeviceSettings.DeviceError
import DeviceSettings.Document.Stamped
import DeviceSettings.Home

/-!
# Components

Which entry points of the interface are shown.  A component of which nothing was recorded is.
-/

namespace DeviceSettings

structure Components where
  path : Option Path
  states : Table String Bool
deriving DecidableEq, Inhabited

namespace Components

/-- The entry point of the button panel. -/
def buttonSettings : String := "ButtonSettings"

def inMemory : Components := ⟨none, .empty⟩

def isEnabled (c : Components) (name : String) : Bool := (c.states.get? name).getD true

/-! ## the document -/

def form : Document.StampedForm := ⟨"ComponentsFile", "updated_at", "components"⟩

def print (moment : Timestamp) (states : Table String Bool) : String :=
  Document.Stamped.print form Json.Value.boolean ⟨moment, states⟩

def parse (s : String) : Except Document.Problem (Document.Stamped Bool) :=
  Json.read (Document.Stamped.reader form Document.boolean) s

/-- The components below a home directory; a file that is missing records none. -/
def load (home : Path) (disk : Disk) : Except DeviceError Components :=
  let path := Home.components home
  if !disk.exists_ path then .ok ⟨some path, .empty⟩
  else match disk.readText path with
  | .error e => .error (.io path e)
  | .ok text =>
    match parse text with
    | .error why => .error (.json why)
    | .ok s => .ok ⟨some path, s.table⟩

/-! ## changing -/

/-- The name of a document while it is being written. -/
def temporary (path : Path) : Path := path.withExtension "json.tmp"

def savePlan (path : Path) (moment : Timestamp) (states : Table String Bool) : List Step :=
  Device.ensureParent path
    ++ Device.replaceFile path (temporary path) (print moment states).toUTF8 none

def save (c : Components) (d : Device) : Except DeviceError Unit × Device :=
  match c.path with
  | none => (.ok (), d)
  | some path =>
    match path.parent? with
    | none => (.error (.io path (.other "invalid component store path")), d)
    | some _ =>
      match d.carryOut (savePlan path d.clock c.states) with
      | (.ok _, d) => (.ok (), d)
      | (.error f, d) => (.error (.io f.step.subject f.cause), d)

/-- Records a component's state, which stays in memory when it cannot be saved. -/
def set (c : Components) (name : String) (enabled : Bool) (d : Device) :
    Except DeviceError Unit × Components × Device :=
  let c := { c with states := c.states.insert name enabled }
  let (r, d) := c.save d
  (r, c, d)

end Components

end DeviceSettings

import DeviceSettings.Device
import DeviceSettings.DeviceError
import DeviceSettings.Document.Stamped
import DeviceSettings.Home
import DeviceSettings.Value

/-!
# Pending choices

What the user had chosen for controls that have been disabled since.  A session keeps its pending choices in
a file beside the preferences; when there are none left the file is removed.
-/

namespace DeviceSettings

/-- The choice for a control when it was disabled, and whether it is to come back. -/
structure PendingChoice where
  prior : Bool
  restore : Bool
deriving DecidableEq, Repr, Inhabited

structure Pending where
  path : Option Path
  choices : Table Key PendingChoice
deriving DecidableEq, Inhabited

namespace PendingChoice

/-- The choice of a switch that was on. -/
def taken : PendingChoice := ⟨true, true⟩

def reader {σ : Type} : Document.Reader σ PendingChoice :=
  Document.record "PendingChoice"
    [.needed "prior_value" Document.boolean fun c v => { c with prior := v },
     .needed "pending_restore" Document.boolean fun c v => { c with restore := v }]
    default

def json (c : PendingChoice) : Json.Value :=
  .object [("prior_value", .boolean c.prior), ("pending_restore", .boolean c.restore)]

end PendingChoice

namespace Pending

def inMemory : Pending := ⟨none, .empty⟩

/-- The same choices without their file. -/
def detached (p : Pending) : Pending := { p with path := none }

def get? (p : Pending) (key : Key) : Option PendingChoice := p.choices.get? key

/-! ## the document -/

def form : Document.StampedForm := ⟨"PendingFile", "updated_at", "choices"⟩

def print (moment : Timestamp) (choices : Table Key PendingChoice) : String :=
  Document.Stamped.print form PendingChoice.json ⟨moment, choices⟩

def parse (s : String) : Except Document.Problem (Document.Stamped PendingChoice) :=
  Json.read (Document.Stamped.reader form PendingChoice.reader) s

/-- The choices of a file; a file that is missing holds none. -/
def loadFile (path : Path) (disk : Disk) : Except DeviceError Pending :=
  if !disk.exists_ path then .ok ⟨some path, .empty⟩
  else match disk.readText path with
  | .error e => .error (.io path e)
  | .ok text =>
    match parse text with
    | .error why => .error (.json why)
    | .ok s => .ok ⟨some path, s.table⟩

def loadAt (home : Path) (disk : Disk) : Except DeviceError Pending := loadFile (Home.pending home) disk

/-- The choices beside preferences with a file; a file that cannot be read holds none. -/
def beside (preferences : Option Path) (disk : Disk) : Pending :=
  match preferences with
  | none => inMemory
  | some p =>
    let path := Home.pendingBeside p
    match loadFile path disk with
    | .ok pending => pending
    | .error _ => ⟨some path, .empty⟩

/-! ## changing -/

/-- The name of a document while it is being written. -/
def temporary (path : Path) : Path := path.withExtension "json.tmp"

/-- The steps that save choices to a file. -/
def savePlan (path : Path) (moment : Timestamp) (choices : Table Key PendingChoice) : List Step :=
  if choices.isEmpty then [.remove path]
  else
    Device.ensureParent path
      ++ Device.replaceFile path (temporary path) (print moment choices).toUTF8 none

/-- A file that is to be removed may be missing. -/
def isHarmless (f : Failure) : Bool :=
  match f.step, f.cause with
  | .remove _, .notFound => true
  | _, _ => false

/-- Carries out a plan; its failure is one at the path of the step that failed. -/
def carryOut (plan : List Step) (d : Device) : Except DeviceError Unit × Device :=
  match d.carryOut plan with
  | (.ok _, d) => (.ok (), d)
  | (.error f, d) => (if isHarmless f then .ok () else .error (.io f.step.subject f.cause), d)

def save (p : Pending) (d : Device) : Except DeviceError Unit × Device :=
  match p.path with
  | none => (.ok (), d)
  | some path => carryOut (savePlan path d.clock p.choices) d

/-- Saves the choices, whether or not that succeeds. -/
def store (p : Pending) (d : Device) : Device := (p.save d).2

def insert (p : Pending) (key : Key) (c : PendingChoice) : Pending :=
  { p with choices := p.choices.insert key c }

def erase (p : Pending) (key : Key) : Pending := { p with choices := p.choices.erase key }

@[simp] theorem get?_insert (p : Pending) (key k : Key) (c : PendingChoice) :
    (p.insert key c).get? k = if k = key then some c else p.get? k := by
  simp [insert, get?]

@[simp] theorem get?_erase (p : Pending) (key k : Key) :
    (p.erase key).get? k = if k = key then none else p.get? k := by
  simp [erase, get?]

/-- Removes the file of the choices below a home directory. -/
def clear (home : Path) (d : Device) : Except DeviceError Unit × Device :=
  carryOut [.remove (Home.pending home)] d

end Pending

end DeviceSettings

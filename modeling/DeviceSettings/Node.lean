import DeviceSettings.Device
import DeviceSettings.DeviceError
import DeviceSettings.Text.Line
import DeviceSettings.Value

/-!
# Control nodes

A node is a file of the kernel's that holds one line.  What there is to see of it is its `token`, the trimmed
first line.  Some readers test the node before they read it, others read it at once; a node that may not be
opened is told apart from one that is missing.  Writing never makes a node.
-/

namespace DeviceSettings.Node

def exists_ (disk : Disk) (p : Path) : Bool := disk.exists_ p

/-- Can the node be opened for reading?  It is looked at first: a directory would open. -/
def isReadable (disk : Disk) (p : Path) : Bool :=
  match disk.entry p with
  | .ok e => !e.isDirectory && (disk.openToRead p).toBool
  | .error _ => false

/-- the bits of a mode that allow writing -/
def writeBits : Nat := 0o222

def isWritable (disk : Disk) (p : Path) : Bool :=
  match disk.entry p with
  | .ok e => !e.isDirectory && e.mode &&& writeBits != 0 && e.refusal?.isNone
  | .error _ => false

/-- Why a node could not be opened; `denied` says what may not be done with it. -/
def openError (denied : DeviceError) (p : Path) : OsError → DeviceError
  | .notFound => .nodeMissing p
  | .permissionDenied => denied
  | e => .io p e

/-- The trimmed first line of a node. -/
def readLine (disk : Disk) (p : Path) : Except DeviceError String :=
  match disk.openToRead p with
  | .error e => .error (openError (.nodeUnreadable p) p e)
  | .ok e =>
    match e.bytes with
    | .error e => .error (.io p e)
    | .ok content =>
      match Text.firstLine? content with
      | some line => .ok line
      | none => .error (.io p .notUtf8)

/-- What reading a node gives. -/
def token? (disk : Disk) (p : Path) : Option String := (readLine disk p).toOption

/-- What reading a node gives, if it is readable by the test. -/
def tested? (disk : Disk) (p : Path) : Option String :=
  if isReadable disk p then token? disk p else none

/-- Is the node readable, and does it hold the token of a switch that is on? -/
def isSet (disk : Disk) (p : Path) : Bool :=
  isReadable disk p && token? disk p == some (Value.switchToken true)

/-- Empties a node and then gives it a text. -/
def write (p : Path) (s : String) (d : Device) : Except DeviceError Unit × Device :=
  match d.perform (.clear p) with
  | (.error e, d) => (.error (openError (.nodeUnwritable p) p e), d)
  | (.ok _, d) =>
    match d.perform (.fill p s.toUTF8) with
    | (.error e, d) => (.error (.writeFailed p e), d)
    | (.ok _, d) => (.ok (), d)

/-! ## what the tests are worth -/

/-- A node passes the test for reading if its bytes can be read. -/
theorem isReadable_eq_read (disk : Disk) (p : Path) :
    isReadable disk p = (disk.read p).toOption.isSome := by
  rw [isReadable, Disk.read, Disk.openToRead]
  cases disk.entry p with
  | error why => rfl
  | ok e => cases e <;> rfl

theorem token?_eq_read (disk : Disk) (p : Path) :
    token? disk p = (disk.read p).toOption.bind Text.firstLine? := by
  rw [token?, readLine, Disk.read]
  cases disk.openToRead p with
  | error why => rfl
  | ok e =>
    cases h : e.bytes with
    | error why => simp only [h, bind, Except.bind, Except.toOption, Option.bind]
    | ok content =>
      simp only [h, bind, Except.bind, Except.toOption, Option.bind]
      cases Text.firstLine? content <;> rfl

theorem isReadable_of_token? {disk : Disk} {p : Path} {s : String} (h : token? disk p = some s) :
    isReadable disk p = true := by
  rw [token?_eq_read] at h
  obtain ⟨content, hread, -⟩ := Option.bind_eq_some_iff.mp h
  rw [isReadable_eq_read, hread]
  rfl

/-- The test before a reading keeps no token back. -/
theorem tested?_eq (disk : Disk) (p : Path) : tested? disk p = token? disk p := by
  rw [tested?]
  cases h : token? disk p with
  | some s => rw [if_pos (isReadable_of_token? h)]
  | none => exact ite_self none

theorem isSet_eq (disk : Disk) (p : Path) :
    isSet disk p = (token? disk p == some (Value.switchToken true)) := by
  rw [isSet]
  cases h : token? disk p with
  | some s => rw [isReadable_of_token? h, Bool.true_and]
  | none => exact Bool.and_false _

end DeviceSettings.Node

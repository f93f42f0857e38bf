import DeviceSettings.Device
import DeviceSettings.Home
import DeviceSettings.Profile.Document
import DeviceSettings.StoreError

/-!
# Stored profiles

Loading and saving the profile below a home directory.  Only valid profiles are saved or come out of a load.
-/

namespace DeviceSettings.Profile

/-- Makes the directory of the documents, for its owner alone, if it is not there. -/
def ensureRoot (home : Path) (d : Device) : Except StoreError Path × Device :=
  let root := Home.root home
  if d.disk.exists_ root then (.ok root, d)
  else match d.carryOut [.ensureDirectory root, .chmod root Device.privateDirectoryMode] with
  | (.ok _, d) => (.ok root, d)
  | (.error f, d) => (.error (.io f.cause), d)

/-- A profile that contradicts itself is refused. -/
def checked (p : Profile) : Except StoreError Profile :=
  match p.fault? with
  | none => .ok p
  | some fault => .error (.invalidProfile fault.message)

def load (home : Path) (disk : Disk) : Except StoreError Profile :=
  let path := Home.profile home
  if !disk.exists_ path then .error (.noProfile path)
  else match disk.readText path with
  | .error e => .error (.io e)
  | .ok text =>
    match parse text with
    | .error why => .error (.malformedProfile path why)
    | .ok p => p.checked

/-- The name of a profile while it is being written. -/
def temporary (home : Path) : Path := (Home.profile home).withFileName "profile.yaml.tmp"

/-- The steps that put a profile in its place. -/
def savePlan (home : Path) (p : Profile) : List Step :=
  Device.replaceFile (Home.profile home) (temporary home) p.print.toUTF8 (some Device.privateMode)

def save (home : Path) (p : Profile) (d : Device) : Except StoreError Unit × Device :=
  match p.checked with
  | .error e => (.error e, d)
  | .ok p =>
    match ensureRoot home d with
    | (.error e, d) => (.error e, d)
    | (.ok _, d) =>
      match d.carryOut (savePlan home p) with
      | (.ok _, d) => (.ok (), d)
      | (.error f, d) => (.error (.io f.cause), d)

/-- Saves the built-in profile unless there is one already, which is loaded then. -/
def init (home : Path) (force : Bool) (d : Device) : Except StoreError Profile × Device :=
  if d.disk.exists_ (Home.profile home) && !force then (load home d.disk, d)
  else match save home builtin d with
  | (.ok _, d) => (.ok builtin, d)
  | (.error e, d) => (.error e, d)

end DeviceSettings.Profile

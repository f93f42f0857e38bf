import DeviceSettings.Disk
import DeviceSettings.Timestamp

/-!
# Devices

A disk, a clock, and an operating system that may refuse any step of a change.  Every change to the disk is
a plan: steps that each happen whole or not at all, carried out up to the first that fails.
`replaceFile` is the plan by which documents are saved: all of the new content is on the disk, under another
name, before one step puts it in the place of the old.
-/

namespace DeviceSettings

inductive Step
  | ensureDirectory (p : Path)
  /-- makes an empty file, or empties one -/
  | create (p : Path)
  /-- empties a file that exists -/
  | clear (p : Path)
  /-- gives a file that exists its content -/
  | fill (p : Path) (content : ByteArray)
  | chmod (p : Path) (mode : Nat)
  | rename (source target : Path)
  | remove (p : Path)
  | bind (p : Path)

namespace Step

/-- The path that a step is about. -/
def subject : Step → Path
  | ensureDirectory p | create p | clear p | fill p _ | chmod p _ | rename _ p | remove p
  | bind p => p

def ofResult (d : Disk) : Except OsError Disk → Except OsError Unit × Disk
  | .ok d' => (.ok (), d')
  | .error e => (.error e, d)

/-- What a step does to a disk. -/
def run (s : Step) (d : Disk) : Except OsError Unit × Disk :=
  match s with
  | ensureDirectory p => d.ensureDirectory p
  | create p => ofResult d (d.write p .empty)
  | clear p => ofResult d (d.overwrite p .empty)
  | fill p content => ofResult d (d.overwrite p content)
  | chmod p mode => ofResult d (d.chmod p mode)
  | rename p q => ofResult d (d.rename p q)
  | remove p => ofResult d (d.remove p)
  | bind p => ofResult d (d.bind p)

end Step

/-- The step that failed, and why. -/
structure Failure where
  step : Step
  cause : OsError

/-- A disk and a clock.  The coming steps are refused with the errors given here; when there are none left,
no step is refused. -/
structure Device where
  disk : Disk
  clock : Timestamp
  refusals : List (Option OsError)
deriving Inhabited

namespace Device

/-- Tries a step. -/
def perform (d : Device) (s : Step) : Except OsError Unit × Device :=
  match d.refusals with
  | some e :: rest => (.error e, { d with refusals := rest })
  | none :: rest =>
    let (r, disk) := s.run d.disk
    (r, { d with disk, refusals := rest })
  | [] =>
    let (r, disk) := s.run d.disk
    (r, { d with disk })

/-- Tries steps in order up to the first that fails. -/
def carryOut : List Step → Device → Except Failure Unit × Device
  | [], d => (.ok (), d)
  | s :: rest, d =>
    match d.perform s with
    | (.ok _, d) => carryOut rest d
    | (.error e, d) => (.error ⟨s, e⟩, d)

theorem carryOut_append (plan rest : List Step) (d : Device) :
    carryOut (plan ++ rest) d =
      match carryOut plan d with
      | (.ok _, d) => carryOut rest d
      | (.error f, d) => (.error f, d) := by
  induction plan generalizing d with
  | nil => rfl
  | cons s plan ih =>
    rw [List.cons_append, carryOut, carryOut]
    split
    · exact ih _
    · rfl

@[simp] theorem clock_perform (d : Device) (s : Step) : (d.perform s).2.clock = d.clock := by
  unfold perform
  split <;> rfl

@[simp] theorem clock_carryOut (plan : List Step) (d : Device) :
    (carryOut plan d).2.clock = d.clock := by
  induction plan generalizing d with
  | nil => rfl
  | cons s rest ih =>
    rw [carryOut]
    split <;> rename_i e
    · rw [ih, ← clock_perform d s, e]
    · rw [← clock_perform d s, e]

/-! ## documents -/

/-- The mode of documents that only their owner may read. -/
def privateMode : Nat := 0o600

/-- The mode of a directory that only its owner may enter. -/
def privateDirectoryMode : Nat := 0o700

/-- Content written beside a file under a temporary name and then moved over it. -/
def replaceFile (p temporary : Path) (content : ByteArray) (mode : Option Nat) : List Step :=
  [.create temporary, .fill temporary content]
    ++ (mode.toList.map fun m => Step.chmod temporary m) ++ [.rename temporary p]

/-- The directory that a path is in, made if it is missing. -/
def ensureParent (p : Path) : List Step := p.parent?.toList.map .ensureDirectory

end Device

end DeviceSettings

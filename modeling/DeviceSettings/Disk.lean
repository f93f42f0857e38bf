import DeviceSettings.Path
import DeviceSettings.Table

/-!
# Disks

What a machine's file tree holds, and the calls that look at it and change it.  A disk maps places
(the names from the root down) to entries; `resolve` walks a path to its place the way an operating
system does, so a missing name, a file in the middle of a path and a trailing slash each fail with
their own `OsError`.  What stands at a place may be sealed: it can be looked at, but not opened.  Every
change either happens or leaves the disk as it was.
-/

namespace DeviceSettings

/-- Why a call to the operating system failed. -/
inductive OsError
  | notFound
  | noDevice
  | permissionDenied
  | exists_
  | notDirectory
  | isDirectory
  | nameTooLong
  | nulInPath
  | noTree
  | notUtf8
  | socketPathTooLong
  | addressInUse
  | refused
  | other (text : String)
deriving DecidableEq, Repr, Inhabited

def OsError.message : OsError → String
  | notFound => "No such file or directory (os error 2)"
  | noDevice => "No such device or address (os error 6)"
  | permissionDenied => "Permission denied (os error 13)"
  | exists_ => "File exists (os error 17)"
  | notDirectory => "Not a directory (os error 20)"
  | isDirectory => "Is a directory (os error 21)"
  | nameTooLong => "File name too long (os error 36)"
  | nulInPath => "file name contained an unexpected NUL byte"
  | noTree => "failed to create whole tree"
  | notUtf8 => "stream did not contain valid UTF-8"
  | socketPathTooLong => "path must be shorter than SUN_LEN"
  | addressInUse => "Address already in use (os error 98)"
  | refused => "Connection refused (os error 111)"
  | other text => text

/-- What stands at a place. -/
inductive Entry
  | file (content : ByteArray) (mode : Nat)
  | directory (mode : Nat)
  /-- cannot be opened, for reading or for writing: a socket, or a file that the program may not open -/
  | sealed (cause : OsError) (mode : Nat)
deriving Inhabited

instance : DecidableEq Entry
  | .file b m, .file c n =>
    decidable_of_iff (b.data = c.data ∧ m = n) (by simp [ByteArray.ext_iff])
  | .directory m, .directory n => decidable_of_iff (m = n) (by simp)
  | .sealed e m, .sealed f n => decidable_of_iff (e = f ∧ m = n) (by simp)
  | .file .., .directory _ | .file .., .sealed .. | .directory _, .file .. | .directory _, .sealed ..
  | .sealed .., .file .. | .sealed .., .directory _ => isFalse nofun

namespace Entry

/-- What is neither a file to the program nor a directory. -/
@[match_pattern] abbrev socket {cause : OsError} (mode : Nat) : Entry := sealed cause mode

def mode : Entry → Nat
  | file _ m | directory m | sealed _ m => m

def isDirectory : Entry → Bool
  | directory _ => true
  | _ => false

def withMode (m : Nat) : Entry → Entry
  | file c _ => file c m
  | directory _ => directory m
  | sealed e _ => sealed e m

/-- Why an entry does not open, if it does not.  A directory opens, but holds no bytes. -/
def refusal? : Entry → Option OsError
  | file .. | directory _ => none
  | sealed cause _ => some cause

/-- The bytes of an entry that opens. -/
def bytes : Entry → Except OsError ByteArray
  | file content _ => .ok content
  | directory _ => .error .isDirectory
  | sealed cause _ => .error cause

end Entry

/-- The names from the root down. -/
abbrev Place := List String

/-- The entries below the root, and where relative paths start. -/
structure Disk where
  entries : Table Place Entry
  work : Place
deriving DecidableEq, Inhabited

namespace Disk

/-- the modes of entries that nobody gave another -/
def fileMode : Nat := 0o644
def directoryMode : Nat := 0o755

/-- What stands at a place; the root is always a directory. -/
def at? (d : Disk) (place : Place) : Option Entry :=
  if place = [] then some (.directory directoryMode) else d.entries.get? place

def isDirectoryAt (d : Disk) (place : Place) : Bool :=
  match d.at? place with
  | some e => e.isDirectory
  | none => false

def put (d : Disk) (place : Place) (e : Entry) : Disk := { d with entries := d.entries.insert place e }

def drop (d : Disk) (place : Place) : Disk := { d with entries := d.entries.erase place }

@[simp] theorem work_put (d : Disk) (place : Place) (e : Entry) : (d.put place e).work = d.work := rfl

@[simp] theorem work_drop (d : Disk) (place : Place) : (d.drop place).work = d.work := rfl

theorem at?_put (d : Disk) (place q : Place) (e : Entry) :
    (d.put place e).at? q = if q = [] then some (.directory directoryMode)
      else if q = place then some e else d.at? q := by
  unfold at? put
  split <;> simp_all

theorem at?_drop (d : Disk) (place q : Place) :
    (d.drop place).at? q = if q = [] then some (.directory directoryMode)
      else if q = place then none else d.at? q := by
  unfold at? drop
  split <;> simp_all

/-! ## walking a path -/

/-- the longest name and the longest path, in bytes -/
def longestName : Nat := 255
def longestPath : Nat := 4095

/-- A name in a directory. -/
def child (d : Disk) (place : Place) (name : String) : Except OsError Place :=
  if !d.isDirectoryAt place then .error .notDirectory
  else if longestName < name.utf8ByteSize then .error .nameTooLong
  else .ok (place ++ [name])

/-- One step of a walk. -/
def walk (d : Disk) (place : Place) (piece : String) : Except OsError Place :=
  if !d.isDirectoryAt place then .error .notDirectory
  else if Path.isTrivial piece then .ok place
  else if piece = ".." then .ok place.dropLast
  else do
    let q ← d.child place piece
    if (d.at? q).isSome then .ok q else .error .notFound

def start (d : Disk) (p : Path) : Except OsError Place :=
  if p.text.toList.contains '\x00' then .error .nulInPath
  else if p.text = "" then .error .notFound
  else if longestPath < p.text.utf8ByteSize then .error .nameTooLong
  else .ok (if p.isAbsolute then [] else d.work)

/-- The place that a path leads to; something stands there. -/
def resolve (d : Disk) (p : Path) : Except OsError Place := do
  let place ← d.start p
  p.pieces.foldlM d.walk place

/-- The place that a path names, whether or not something stands there yet, and whether the path ends
in a slash.  All but the last name must exist. -/
def target (d : Disk) (p : Path) : Except OsError (Place × Bool) := do
  let place ← d.start p
  let rev := p.pieces.reverse
  let slashed := rev.head? == some ""
  match rev.dropWhile (· == "") with
  | [] => do
    let q ← d.resolve p
    pure (q, slashed)
  | last :: before =>
    if last = "." || last = ".." then do
      let q ← d.resolve p
      pure (q, slashed)
    else do
      let dir ← before.reverse.foldlM d.walk place
      let q ← d.child dir last
      match d.at? q with
      | some e => if slashed && !e.isDirectory then .error .notDirectory else pure (q, slashed)
      | none => pure (q, slashed)

/-! ## looking -/

/-- The entry that a path leads to. -/
def entry (d : Disk) (p : Path) : Except OsError Entry := do
  let place ← d.resolve p
  match d.at? place with
  | some e => .ok e
  | none => .error .notFound

def exists_ (d : Disk) (p : Path) : Bool := (d.entry p).toBool

def isDirectory (d : Disk) (p : Path) : Bool :=
  match d.entry p with
  | .ok e => e.isDirectory
  | .error _ => false

/-- Opens what a path leads to for reading. -/
def openToRead (d : Disk) (p : Path) : Except OsError Entry := do
  let e ← d.entry p
  match e.refusal? with
  | some cause => .error cause
  | none => .ok e

/-- The bytes of a file. -/
def read (d : Disk) (p : Path) : Except OsError ByteArray := do
  let e ← d.openToRead p
  e.bytes

/-- The text of a file. -/
def readText (d : Disk) (p : Path) : Except OsError String := do
  let content ← d.read p
  match String.fromUTF8? content with
  | some s => .ok s
  | none => .error .notUtf8

/-! ## changing -/

/-- Opens a file that exists and gives it new content. -/
def overwrite (d : Disk) (p : Path) (content : ByteArray) : Except OsError Disk := do
  let place ← d.resolve p
  match d.at? place with
  | some (.file _ mode) => .ok (d.put place (.file content mode))
  | some (.directory _) => .error .isDirectory
  | some (.sealed cause _) => .error cause
  | none => .error .notFound

/-- Gives a file new content, making it if nothing stands there. -/
def write (d : Disk) (p : Path) (content : ByteArray) : Except OsError Disk := do
  let (place, slashed) ← d.target p
  match d.at? place with
  | some (.file _ mode) => .ok (d.put place (.file content mode))
  | some (.directory _) => .error .isDirectory
  | some (.sealed cause _) => .error cause
  | none => if slashed then .error .isDirectory else .ok (d.put place (.file content fileMode))

def chmod (d : Disk) (p : Path) (mode : Nat) : Except OsError Disk := do
  let place ← d.resolve p
  match d.at? place with
  | some e => .ok (d.put place (e.withMode mode))
  | none => .error .notFound

def makeDirectory (d : Disk) (p : Path) : Except OsError Disk := do
  let (place, _) ← d.target p
  match d.at? place with
  | some _ => .error .exists_
  | none => .ok (d.put place (.directory directoryMode))

/-- Moves a file over whatever file stands at the other path. -/
def rename (d : Disk) (p q : Path) : Except OsError Disk := do
  let source ← d.resolve p
  let (place, slashed) ← d.target q
  match d.at? source with
  | none => .error .notFound
  | some e =>
    match d.at? place with
    | some (.directory _) => if e.isDirectory then .error .exists_ else .error .isDirectory
    | some _ =>
      if e.isDirectory then .error .notDirectory
      else if place = source then .ok d
      else .ok ((d.drop source).put place e)
    | none => if slashed then .error .notDirectory else .ok ((d.drop source).put place e)

/-- the longest path of a socket, in bytes -/
def longestSocketPath : Nat := 107

/-- Makes a socket where nothing stands. -/
def bind (d : Disk) (p : Path) : Except OsError Disk := do
  if longestSocketPath < p.text.utf8ByteSize then .error .socketPathTooLong
  let (place, _) ← d.target p
  match d.at? place with
  | some _ => .error .addressInUse
  | none => .ok (d.put place (.sealed .noDevice directoryMode))

def remove (d : Disk) (p : Path) : Except OsError Disk := do
  let place ← d.resolve p
  match d.at? place with
  | some (.directory _) => .error .isDirectory
  | some _ => .ok (d.drop place)
  | none => .error .notFound

/-- Takes away an entry and everything below it. -/
def removeTree (d : Disk) (p : Path) : Except OsError Disk := do
  let place ← d.resolve p
  .ok { d with entries := d.entries.filter fun q _ => !place.isPrefixOf q }

/-- Makes a directory and those above it that are missing.  The deepest is tried first, so whatever is
in the way of it is the error. -/
def makeDirectories (fuel : Nat) (d : Disk) (p : Path) : Except OsError Unit × Disk :=
  if p.text = "" then (.ok (), d) else
  match d.makeDirectory p with
  | .ok d' => (.ok (), d')
  | .error .notFound =>
    match fuel, p.parent? with
    | fuel + 1, some q =>
      match makeDirectories fuel d q with
      | (.error e, d') => (.error e, d')
      | (.ok _, d') =>
        match d'.makeDirectory p with
        | .ok d'' => (.ok (), d'')
        | .error e => if d'.isDirectory p then (.ok (), d') else (.error e, d')
    | _, _ => (.error .noTree, d)
  | .error e => if d.isDirectory p then (.ok (), d) else (.error e, d)

/-- Makes a directory and those above it. -/
def ensureDirectory (d : Disk) (p : Path) : Except OsError Unit × Disk :=
  makeDirectories (p.pieces.length + 1) d p

end Disk

end DeviceSettings

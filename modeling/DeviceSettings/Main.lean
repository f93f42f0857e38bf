import DeviceSettings.CommandLine.Run
import DeviceSettings.CommandLine.Snapshot
import Std.Time.DateTime

/-!
# The program

Takes a snapshot of the files that a command may look at, runs the command on it, and carries out what the run
has changed.  A daemon answers the lines of its standard input until it is told to end.
-/

namespace DeviceSettings.Program

open CommandLine (Command)
open Daemon (Machine)

/-! ## looking -/

/-- The moment by the clock, and in seconds since 1970. -/
def now : IO (Timestamp × Nat) := do
  let t ← Std.Time.Timestamp.now
  let wall := Std.Time.PlainDateTime.ofWallTime (t.toWallTime .zero)
  let date : Date := ⟨wall.date.year, wall.date.month.val.toNat, wall.date.day.val.toNat⟩
  let time := wall.time
  pure (⟨date, time.hour.val.toNat, time.minute.val.toNat, time.second.val.toNat,
    time.nanosecond.val.toNat⟩, t.toSecondsSinceUnixEpoch.val.toNat)

def textOf (place : Place) : String := "/" ++ String.intercalate "/" place

/-- The mode of a file, as far as it shows when the file is opened for writing. -/
def modeOf (path : String) : IO Nat := do
  match ← (IO.FS.Handle.mk path .readWrite).toBaseIO with
  | .ok _ => pure Disk.fileMode
  | .error _ => pure (Disk.fileMode &&& 0o555)

/-- the error of reading from a directory -/
def directoryCode : UInt32 := 21

/-- What stands at a place.  What may not be opened is sealed; what cannot be read for another reason counts as
nothing. -/
def look (place : Place) : IO (Option Entry) := do
  let path := textOf place
  match ← (IO.FS.readBinFile path).toBaseIO with
  | .ok content => do pure (some (.file content (← modeOf path)))
  | .error (.inappropriateType _ code _) =>
    pure (if code = directoryCode then some (.directory Disk.directoryMode) else none)
  | .error (.permissionDenied ..) => pure (some (.sealed .permissionDenied Disk.fileMode))
  | .error _ => pure none

/-- Adds to a snapshot what the paths lead through. -/
def lookAt (paths : List Path) (disk : Disk) : IO Disk :=
  (paths.flatMap disk.placesOf).foldlM (fun disk place => do
    match ← look place with
    | some e => pure (disk.put place e)
    | none => pure (disk.drop place)) disk

/-- The files that a command may look at. -/
def snapshot (home : Path) (command : Option Command) : IO Disk := do
  let here : Path := ⟨toString (← IO.currentDir)⟩
  let start : Disk := ⟨.empty, []⟩
  let work := ((start.placesOf here).getLast?).getD []
  let disk ← lookAt (here :: Home.documents home) { start with work }
  match command with
  | some c => lookAt (c.paths home disk) disk
  | none => pure disk

/-! ## carrying out -/

def rights (mode : Nat) : IO.FileRight :=
  let three (shift : Nat) : IO.AccessRight :=
    ⟨mode.testBit (shift + 2), mode.testBit (shift + 1), mode.testBit shift⟩
  ⟨three 6, three 3, three 0⟩

/-- Carries out a change.  Files among the documents are replaced by one step; all others are written where
they stand. -/
def carryOut (documents : Place) : Disk.Change → IO Unit
  | .directory place mode => do
    IO.FS.createDirAll (textOf place)
    IO.setAccessRights (textOf place) (rights mode)
  | .file place content mode => do
    let path := textOf place
    if documents.isPrefixOf place then
      let temporary := path ++ ".new"
      IO.FS.writeBinFile temporary content
      IO.setAccessRights temporary (rights mode)
      IO.FS.rename temporary path
    else IO.FS.writeBinFile path content
  | .gone place => IO.FS.removeFile (textOf place)

/-! ## the daemon -/

/-- Answers lines until the input ends or a query ends the daemon. -/
partial def serve (m : Machine) : IO Unit := do
  match m.daemon with
  | none => pure ()
  | some d =>
    let line ← (← IO.getStdin).getLine
    if line.isEmpty then return
    let disk ← lookAt d.host.wakeupNode.toList m.disk
    let (_, seconds) ← now
    let m : Machine := { m with device := { m.device with disk }, now := seconds }
    match m.connect line.toUTF8 with
    | none => pure ()
    | some (served, m) => do
      let out ← IO.getStdout
      out.putStr served.text
      out.flush
      serve m

/-! ## commands -/

/-- Runs a command line below a home directory. -/
def run (home : Path) (words : List String) : IO UInt32 := do
  let disk ← snapshot home (Command.read words).toOption
  let (clock, seconds) ← now
  let (output, m) := CommandLine.run home words ⟨⟨disk, clock, []⟩, none, seconds, 0⟩
  let documents := ((disk.placesOf (Home.root home)).getLast?).getD []
  for change in disk.changes m.disk do carryOut documents change
  IO.print output.stdout
  IO.eprint output.stderr
  serve m
  pure output.code.toUInt32

end DeviceSettings.Program

/-- Documents are kept below the directory that the variable `HOME` names. -/
def main (words : List String) : IO UInt32 := do
  match ← IO.getEnv "HOME" with
  | some home => DeviceSettings.Program.run ⟨home⟩ words
  | none =>
    IO.eprint (DeviceSettings.CommandLine.Trouble.plain "could not determine home directory").text
    pure 1

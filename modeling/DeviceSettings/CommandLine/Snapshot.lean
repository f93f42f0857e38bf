import DeviceSettings.CommandLine.Command
import DeviceSettings.Components
import DeviceSettings.Pending
import DeviceSettings.Profile.Store

/-!
# Snapshots

The part of a machine's file tree that a command may look at, and what a run changed in it.
-/

namespace DeviceSettings

/-- All nodes that a profile names. -/
def Profile.nodes (p : Profile) : List Path :=
  p.buttons.switches.values ++ p.buttons.texts.values ++ p.buttons.gates.values.map (·.node)
    ++ p.buttons.presence ++ p.pocket.wakeupNode.toList ++ p.keys.fingerprintNode.toList
    ++ p.keys.disablerNode.toList ++ p.keys.swapperNode.toList

/-- The documents below a home directory. -/
def Home.documents (home : Path) : List Path :=
  [profile home, preferences home, components home, pending home]

namespace CommandLine

/-- The file of packages that a command line names. -/
def Command.packages? : Command → Option Path
  | .search packages _ => packages
  | _ => none

/-- The paths that a command may look at besides the documents, once those are known. -/
def Command.paths (home : Path) (disk : Disk) (c : Command) : List Path :=
  c.packages?.toList ++ match Profile.load home disk with
    | .ok p => p.search.packagesList :: p.nodes
    | .error _ => Profile.builtin.nodes

end CommandLine

namespace Disk

/-- The places that a walk comes through, when every name on its way is a directory. -/
def through (place : Place) : List String → List Place
  | [] => []
  | piece :: rest =>
    let next :=
      if Path.isTrivial piece then place
      else if piece = ".." then place.dropLast
      else place ++ [piece]
    next :: through next rest

/-- The places that a path may lead through. -/
def placesOf (d : Disk) (p : Path) : List Place :=
  through (if p.isAbsolute then [] else d.work) p.pieces

/-- A difference between two disks at a place. -/
inductive Change
  | directory (place : Place) (mode : Nat)
  | file (place : Place) (content : ByteArray) (mode : Nat)
  | gone (place : Place)

/-- The differences from one disk to another; a directory comes before what it holds.  What is sealed is left
out: no run seals a file, and sockets are no matter of the disk alone. -/
def changes (d e : Disk) : List Change :=
  (e.entries.entries.filterMap fun (place, entry) =>
    if d.at? place = some entry then none
    else match entry with
    | .directory mode => some (.directory place mode)
    | .file content mode => some (.file place content mode)
    | .socket _ => none)
  ++ (d.entries.keys.filter fun place => !e.entries.contains place).map .gone

end Disk

end DeviceSettings

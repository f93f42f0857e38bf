import DeviceSettings.DeviceError
import DeviceSettings.Node
import DeviceSettings.Profile
import DeviceSettings.Text.Blank

/-!
# Settings search

Which packages are installed, and what of the settings a search may show.
-/

namespace DeviceSettings

/-- The names of the installed packages. -/
structure Packages where
  names : Table String Unit
deriving Inhabited

namespace Packages

def ofNames (names : List String) : Packages := ⟨.ofList (names.map fun n => (n, ()))⟩

def size (p : Packages) : Nat := p.names.size

def isInstalled (p : Packages) (name : String) : Bool := p.names.contains name

/-- The packages of a list: the first word of each line. -/
def parse (text : String) : Packages :=
  ofNames ((Text.lines text.toList).filterMap fun line => (Text.firstWord? line).map .ofList)

/-- The packages of a file; without the file there are none. -/
def load (path : Path) (disk : Disk) : Except DeviceError Packages :=
  match disk.readText path with
  | .ok text => .ok (parse text)
  | .error .notFound => .ok (ofNames [])
  | .error e => .error (.io path e)

end Packages

namespace Profile

/-- the screen of the button panel -/
def buttonPanel : String := "button_panel"

/-- Does the device have a button panel? -/
def hasButtons (p : Profile) (disk : Disk) : Bool := p.buttons.presence.any (Node.exists_ disk)

/-- The settings that a search does not show. -/
def hiddenKeys (p : Profile) (packages : Packages) (disk : Disk) : List Key :=
  (if packages.isInstalled p.pocket.package then [] else [p.pocket.pocketMode])
    ++ (if p.hasButtons disk then [] else p.search.gatedKeys)

/-- The screens that a search shows. -/
def searchableScreens (p : Profile) (disk : Disk) : List String :=
  if p.hasButtons disk then [buttonPanel] else []

end Profile

end DeviceSettings

import DeviceSettings.Device
import DeviceSettings.Document.Stamped
import DeviceSettings.Home
import DeviceSettings.Profile
import DeviceSettings.StoreError

/-!
# Preferences

The values that settings were given.  Preferences with a file are saved at every change; a change stays
in memory when its save fails (`get?_set`, `get?_remove`).  `detached` preferences have no file.
-/

namespace DeviceSettings

structure Preferences where
  path : Option Path
  values : Table Key Value
  /-- when the values were last saved -/
  savedAt : Option Timestamp
deriving DecidableEq, Inhabited

namespace Preferences

def inMemory : Preferences := ⟨none, .empty, none⟩

/-- The same values without their file. -/
def detached (s : Preferences) : Preferences := { s with path := none }

/-! ## reading -/

def get? (s : Preferences) (key : Key) : Option Value := s.values.get? key

def contains (s : Preferences) (key : Key) : Bool := s.values.contains key

/-- A switch; `fallback` if it is not stored as one. -/
def getSwitch (s : Preferences) (key : Key) (fallback : Bool) : Bool :=
  ((s.get? key).bind Value.switch?).getD fallback

/-- A text; `fallback` if it is not stored as one. -/
def getText (s : Preferences) (key : Key) (fallback : String) : String :=
  ((s.get? key).bind Value.text?).getD fallback

/-- A switch, or its default in the profile. -/
def switchOrDefault (s : Preferences) (p : Profile) (key : Key) : Bool :=
  s.getSwitch key (p.defaultSwitch key)

/-- A text, or its default in the profile. -/
def textOrDefault? (s : Preferences) (p : Profile) (key : Key) : Option String :=
  ((s.get? key).bind Value.text?).or (p.defaultText? key)

/-! ## the document -/

def form : Document.StampedForm := ⟨"PrefsFile", "saved_at", "values"⟩

/-- The document of values that are saved at a moment. -/
def print (moment : Timestamp) (values : Table Key Value) : String :=
  Document.Stamped.print form Value.json ⟨moment, values⟩

def parse (s : String) : Except Document.Problem (Document.Stamped Value) :=
  Json.read (Document.Stamped.reader form Value.reader) s

/-- Preferences kept in a file; a file that is missing holds none. -/
def openFile (path : Path) (disk : Disk) : Except StoreError Preferences :=
  if !disk.exists_ path then .ok ⟨some path, .empty, none⟩
  else match disk.readText path with
  | .error e => .error (.io e)
  | .ok text =>
    match parse text with
    | .error why => .error (.malformedPreferences path why)
    | .ok s => .ok ⟨some path, s.table, some s.moment⟩

def openAt (home : Path) (disk : Disk) : Except StoreError Preferences :=
  openFile (Home.preferences home) disk

/-! ## changing -/

/-- The name of a document while it is being written. -/
def temporary (path : Path) : Path := path.withExtension "json.tmp"

/-- The steps that save values to a file. -/
def savePlan (path : Path) (moment : Timestamp) (values : Table Key Value) : List Step :=
  Device.ensureParent path
    ++ Device.replaceFile path (temporary path) (print moment values).toUTF8 (some Device.privateMode)

/-- Saves the values, unless they are kept in memory only. -/
def save (s : Preferences) (d : Device) : Except StoreError Unit × Preferences × Device :=
  match s.path with
  | none => (.ok (), { s with savedAt := some d.clock }, d)
  | some path =>
    match d.carryOut (savePlan path d.clock s.values) with
    | (.ok _, d) => (.ok (), { s with savedAt := some d.clock }, d)
    | (.error f, d) => (.error (.io f.cause), s, d)

/-- Gives a setting a value. -/
def set (s : Preferences) (key : Key) (v : Value) (d : Device) :
    Except StoreError Unit × Preferences × Device :=
  save { s with values := s.values.insert key v } d

/-- Takes a setting's value away; nothing is saved if it had none. -/
def remove (s : Preferences) (key : Key) (d : Device) :
    Except StoreError (Option Value) × Preferences × Device :=
  match s.get? key with
  | none => (.ok none, s, d)
  | some old =>
    match save { s with values := s.values.erase key } d with
    | (.ok _, s, d) => (.ok (some old), s, d)
    | (.error e, s, d) => (.error e, s, d)

/-- Gives a setting a value, whether or not it can be saved. -/
def put (s : Preferences) (key : Key) (v : Value) (d : Device) : Preferences × Device :=
  (s.set key v d).2

/-! ## what a change does in memory -/

@[simp] theorem values_save (s : Preferences) (d : Device) : (s.save d).2.1.values = s.values := by
  unfold save
  split
  · rfl
  · split <;> rfl

@[simp] theorem path_save (s : Preferences) (d : Device) : (s.save d).2.1.path = s.path := by
  unfold save
  split
  · rfl
  · split <;> rfl

@[simp] theorem get?_set (s : Preferences) (key k : Key) (v : Value) (d : Device) :
    (s.set key v d).2.1.get? k = if k = key then some v else s.get? k := by
  simp [set, get?]

@[simp] theorem get?_put (s : Preferences) (key k : Key) (v : Value) (d : Device) :
    (s.put key v d).1.get? k = if k = key then some v else s.get? k := get?_set s key k v d

theorem get?_remove (s : Preferences) (key k : Key) (d : Device) :
    (s.remove key d).2.1.get? k = if k = key then none else s.get? k := by
  unfold remove
  split
  · rename_i h
    split
    · subst k
      exact h
    · rfl
  · have saved := values_save { s with values := s.values.erase key } d
    split <;> rename_i eq <;> rw [eq] at saved <;> simp_all [get?]

end Preferences

end DeviceSettings

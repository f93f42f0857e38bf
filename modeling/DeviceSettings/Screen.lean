import DeviceSettings.Table
import DeviceSettings.Value

/-!
# Screens

The controls of a settings screen, one to a setting.  A screen is seen through `Screen.get?`; `get?_put` and
`get?_set` say what the two changes do to it.
-/

namespace DeviceSettings

inductive ControlKind
  | switch
  | text
deriving DecidableEq, Repr, Inhabited

structure Control where
  key : Key
  kind : ControlKind
  enabled : Bool
  checked : Bool
  value : Option String
deriving DecidableEq, Repr, Inhabited

namespace Control

def switch (key : Key) (checked : Bool) : Control := ⟨key, .switch, true, checked, none⟩

def text (key : Key) (value : Option String) : Control := ⟨key, .text, true, false, value⟩

/-- What the control shows. -/
def current? (c : Control) : Option Value :=
  match c.kind with
  | .switch => some (.switch c.checked)
  | .text => c.value.map .text

/-- The control showing a value, if the value is of its kind. -/
def showing? (c : Control) : Value → Option Control
  | .switch on => if c.kind = .switch then some { c with checked := on } else none
  | .text s => if c.kind = .text then some { c with value := some s } else none

end Control

/-- Controls in key order. -/
structure Screen where
  controls : Table Key Control
deriving DecidableEq, Inhabited

namespace Screen

def empty : Screen := ⟨.empty⟩

def get? (s : Screen) (key : Key) : Option Control := s.controls.get? key

def put (s : Screen) (c : Control) : Screen := ⟨s.controls.insert c.key c⟩

/-- The screen with a key's control changed. -/
def set (s : Screen) (key : Key) (c : Control) : Screen := ⟨s.controls.insert key c⟩

def toList (s : Screen) : List Control := s.controls.values

@[simp] theorem get?_put (s : Screen) (c : Control) (key : Key) :
    (s.put c).get? key = if key = c.key then some c else s.get? key := by
  simp [put, get?]

@[simp] theorem get?_set (s : Screen) (k key : Key) (c : Control) :
    (s.set k c).get? key = if key = k then some c else s.get? key := by
  simp [set, get?]

theorem ext_get? {s t : Screen} (h : ∀ key, s.get? key = t.get? key) : s = t :=
  congrArg Screen.mk (Table.ext_get? h)

theorem set_of_get? {s : Screen} {key : Key} {c : Control} (h : s.get? key = some c) : s.set key c = s := by
  refine ext_get? fun k => ?_
  rw [get?_set]
  split
  · rename_i hk
    rw [hk, h]
  · rfl

end Screen

end DeviceSettings

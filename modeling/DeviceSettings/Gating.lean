import DeviceSettings.Node
import DeviceSettings.Pending
import DeviceSettings.Preferences
import DeviceSettings.Screen

/-!
# Gated controls

A gated control is usable while its gate's node holds the required text.  When the gate closes the control
is switched off and what the user had chosen becomes a pending choice; when it opens again that choice
comes back.
-/

namespace DeviceSettings

/-- What settings are kept in while their screen is in use. -/
structure Stores where
  preferences : Preferences
  pending : Pending
  device : Device
deriving Inhabited

namespace Stores

def disk (s : Stores) : Disk := s.device.disk

/-- Gives a setting a value, whether or not it can be saved. -/
def put (s : Stores) (key : Key) (v : Value) : Stores :=
  let (preferences, device) := s.preferences.put key v s.device
  { s with preferences, device }

/-- Saves pending choices, whether or not that succeeds. -/
def setPending (s : Stores) (pending : Pending) : Stores :=
  { s with pending, device := pending.store s.device }

end Stores

namespace Gate

/-- Is a setting's gate open?  Nothing is said of a setting without a gate, or whose gate cannot be read. -/
def isOpen? (gates : Table Key Gate) (disk : Disk) (key : Key) : Option Bool := do
  let gate ← gates.get? key
  let token ← Node.tested? disk gate.node
  some (token == gate.required)

/-- Where a gated control ended up. -/
inductive State
  | enabled
  | disabled (pending : Bool)
deriving DecidableEq, Repr

/-- Enables a control and brings back what is pending for it. -/
def letIn (key : Key) (c : Control) (s : Stores) : Control × Stores :=
  let stored := s.preferences.getSwitch key false
  let c := { c with enabled := true, checked := stored }
  match s.pending.get? key with
  | none => (c, s)
  | some choice =>
    let restores := choice.restore && choice.prior != stored
    let c := if restores then { c with checked := choice.prior } else c
    let s := if restores then s.put key (.switch choice.prior) else s
    (c, s.setPending (s.pending.erase key))

/-- Disables a control and switches it off; that it was on becomes pending. -/
def shutOut (key : Key) (c : Control) (s : Stores) : Control × Stores :=
  let stored := s.preferences.getSwitch key false
  let s := if c.enabled && c.checked then s.setPending (s.pending.insert key .taken) else s
  ({ c with enabled := false, checked := false }, if stored then s.put key (.switch false) else s)

/-- Brings a control in line with its gate. -/
def reconcile (key : Key) (isOpen : Bool) (c : Control) (s : Stores) : State × Control × Stores :=
  if isOpen then
    let (c, s) := letIn key c s
    (.enabled, c, s)
  else
    let (c, s) := shutOut key c s
    (.disabled ((s.pending.get? key).any (·.restore)), c, s)

end Gate

end DeviceSettings

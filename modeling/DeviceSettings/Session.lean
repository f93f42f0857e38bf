import DeviceSettings.Gating
import DeviceSettings.Pocket

/-!
# Sessions

The button panel in use.  Opening its screen takes over what the nodes hold; each change is stored, written
to its node, and followed by what depends on it.  A node that does not take its value is left to the next
boot: the stored value stays.
-/

namespace DeviceSettings

/-- Why a change was not made. -/
inductive Rejection
  | noControl (key : Key)
  | noDozeControl (key : Key)
  | disabled (key : Key)
  | expectsSwitch (key : Key)
  | expectsText (key : Key)
deriving DecidableEq, Repr, Inhabited

def Rejection.message : Rejection → String
  | noControl key => "no control for '" ++ key ++ "'"
  | noDozeControl key => "no doze control for '" ++ key ++ "'"
  | disabled key => "'" ++ key ++ "' is disabled"
  | expectsSwitch key => "'" ++ key ++ "' expects true or false"
  | expectsText key => "'" ++ key ++ "' expects a text value"

/-- What came of a change. -/
inductive Outcome
  | applied
  | rejected (why : Rejection)
  /-- the value is stored, but its node did not take it -/
  | writeFailed (error : DeviceError)
deriving DecidableEq, Repr, Inhabited

/-- When requests to services are delivered. -/
inductive Dispatch
  | inline
  | deferred
deriving DecidableEq, Repr, Inhabited

structure Session where
  profile : Profile
  stores : Stores
  screen : Screen
  dispatch : Dispatch
  /-- requests that were made and wait for delivery, the first to be delivered first -/
  waiting : List Request
  /-- requests that were delivered, in order -/
  delivered : List Request
deriving Inhabited

namespace Session

def start (profile : Profile) (stores : Stores) (dispatch : Dispatch) : Session :=
  ⟨profile, stores, .empty, dispatch, [], []⟩

/-! ## requests -/

def request (s : Session) (r : Request) : Session :=
  match s.dispatch with
  | .inline => { s with delivered := s.delivered ++ [r] }
  | .deferred => { s with waiting := s.waiting ++ [r] }

/-- Delivers the request that has waited longest. -/
def deliver (s : Session) : Session :=
  match s.waiting with
  | [] => s
  | r :: rest => { s with waiting := rest, delivered := s.delivered ++ [r] }

/-- Ends the session; what still waits is delivered. -/
def close (s : Session) : Session := { s with waiting := [], delivered := s.delivered ++ s.waiting }

/-! ## opening -/

/-- Takes over a value that a node holds. -/
def mirror (s : Stores) (key : Key) (v : Value) : Stores :=
  if s.preferences.get? key = some v then s else s.put key v

/-- The control of a switch that is bound to a node. -/
def openSwitch (p : Profile) (key : Key) (node : Path) (s : Stores) : Control × Stores :=
  match Node.tested? s.disk node with
  | some token =>
    let on := token == Value.switchToken true
    (.switch key on, mirror s key (.switch on))
  | none => ({ Control.switch key (s.preferences.switchOrDefault p key) with enabled := false }, s)

/-- The control of a list setting that is bound to a node. -/
def openText (p : Profile) (key : Key) (node : Path) (s : Stores) : Control × Stores :=
  match Node.tested? s.disk node with
  | some token => (.text key (some token), mirror s key (.text token))
  | none => ({ Control.text key (s.preferences.textOrDefault? p key) with enabled := false }, s)

theorem openSwitch_eq (p : Profile) (key : Key) (node : Path) (s : Stores) :
    openSwitch p key node s = match Node.token? s.disk node with
      | some token => (.switch key (token == Value.switchToken true),
          mirror s key (.switch (token == Value.switchToken true)))
      | none => ({ Control.switch key (s.preferences.switchOrDefault p key) with enabled := false }, s) := by
  rw [openSwitch, Node.tested?_eq]

theorem openText_eq (p : Profile) (key : Key) (node : Path) (s : Stores) :
    openText p key node s = match Node.token? s.disk node with
      | some token => (.text key (some token), mirror s key (.text token))
      | none => ({ Control.text key (s.preferences.textOrDefault? p key) with enabled := false }, s) := by
  rw [openText, Node.tested?_eq]

/-- Puts controls on the screen, one after another. -/
def openEach {α : Type} (f : Key → α → Stores → Control × Stores) (entries : List (Key × α))
    (at_ : Screen × Stores) : Screen × Stores :=
  entries.foldl (fun (screen, s) (key, a) =>
    let (c, s) := f key a s
    (screen.put c, s)) at_

/-- A setting with a gate only has a control too. -/
def openGated (p : Profile) (s : Stores) (screen : Screen) : Screen :=
  p.buttons.gates.keys.foldl (fun screen key =>
    if (screen.get? key).isSome then screen
    else screen.put (.switch key (s.preferences.switchOrDefault p key))) screen

/-- Builds the screen from what the nodes hold. -/
def openScreen (s : Session) : Session :=
  let p := s.profile
  let (screen, stores) := openEach (openText p) p.buttons.texts.entries
    (openEach (openSwitch p) p.buttons.switches.entries (.empty, s.stores))
  { s with screen := openGated p stores screen, stores }

/-! ## gates -/

/-- Brings a setting's control in line with its gate, if it has both and the gate can be read. -/
def reconcile (s : Session) (key : Key) : Session :=
  match Gate.isOpen? s.profile.buttons.gates s.stores.disk key, s.screen.get? key with
  | some isOpen, some c =>
    let (_, c, stores) := Gate.reconcile key isOpen c s.stores
    { s with screen := s.screen.set key c, stores }
  | _, _ => s

/-- Brings all gated controls in line. -/
def resume (s : Session) : Session := s.profile.buttons.gates.keys.foldl reconcile s

/-! ## changing -/

/-- Requests what pocket mode needs after a change. -/
def checkPocket (s : Session) (key : Key) : Session :=
  if s.profile.pocket.watches key then s.request (s.profile.pocket.request s.stores.preferences) else s

/-- Writes a value to the node that a setting is bound to; a setting without one needs no writing. -/
def writeNode (s : Session) (key : Key) (v : Value) : Except DeviceError Unit × Session :=
  match s.profile.boundNode? key with
  | none => (.ok (), s)
  | some (node, _) =>
    let (r, device) := Node.write node v.token s.stores.device
    (r, { s with stores.device := device })

/-- Stores a value, and writes it to the node. -/
def enter (s : Session) (key : Key) (v : Value) : Except DeviceError Unit × Session :=
  { s with stores := s.stores.put key v }.writeNode key v

/-- The settings whose gate is the node that a setting is bound to. -/
def dependents (s : Session) (key : Key) : List Key :=
  match s.profile.boundNode? key with
  | none => []
  | some (node, _) => s.profile.gatedOn node

/-- Takes over a value that its control shows by now, and brings in line what depends on it. -/
def commit (s : Session) (key : Key) (v : Value) : Outcome × Session :=
  match s.enter key v with
  | (.error e, s) => (.writeFailed e, s)
  | (.ok _, s) => (.applied, ((s.dependents key).foldl reconcile s).checkPocket key)

/-- Makes one change of the user's. -/
def apply (s : Session) (key : Key) (v : Value) : Outcome × Session :=
  match s.screen.get? key with
  | none => (.rejected (.noControl key), s)
  | some c =>
    if !c.enabled then (.rejected (.disabled key), s)
    else match c.showing? v with
    | some c => { s with screen := s.screen.set key c }.commit key v
    | none =>
      (.rejected (match c.kind with
        | .switch => .expectsSwitch key
        | .text => .expectsText key), s)

end Session

end DeviceSettings

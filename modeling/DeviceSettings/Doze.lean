import DeviceSettings.Session

/-!
# Ambient display

The switches of the ambient display.  Its gesture service is to run while the display is on, not always
on, and some gesture is on; every change asks for that anew.
-/

namespace DeviceSettings

/-- The ambient display's screen and the preferences that it shows. -/
structure DozeState where
  screen : Screen
  preferences : Preferences
  device : Device
deriving Inhabited

namespace DozeKeys

/-- The ambient display is on unless it was turned off. -/
def isOn (k : DozeKeys) (s : Preferences) : Bool := s.getSwitch k.enabled true

def isAlwaysOn (k : DozeKeys) (s : Preferences) : Bool :=
  k.alwaysOnAvailable && s.getSwitch k.alwaysOn false

/-- The gestures on the screen. -/
def gestures (k : DozeKeys) : List Key :=
  k.pickUp :: if k.proximityCheck then [k.handWave, k.pocket] else []

/-- Should the gesture service run? -/
def shouldRun (k : DozeKeys) (s : Preferences) : Bool :=
  k.isOn s && !k.isAlwaysOn s && [k.pickUp, k.handWave, k.pocket].any fun key => s.getSwitch key false

def request (k : DozeKeys) (s : Preferences) : Request := ⟨.doze, k.shouldRun s⟩

/-! ## the screen -/

/-- Changes the control of a setting, if it has one. -/
def adjust (screen : Screen) (key : Key) (f : Control → Control) : Screen :=
  match screen.get? key with
  | some c => screen.set key (f c)
  | none => screen

/-- Always-on follows the ambient display, and the gestures follow both. -/
def refresh (k : DozeKeys) (s : Preferences) (screen : Screen) : Screen :=
  let on := k.isOn s
  let always := k.isAlwaysOn s
  let screen := adjust screen k.alwaysOn fun c => { c with enabled := on, checked := always }
  k.gestures.foldl (fun screen key =>
    adjust screen key fun c => { c with enabled := on && !always }) screen

/-- The screen of some preferences. -/
def openScreen (k : DozeKeys) (s : Preferences) : Screen :=
  let screen :=
    if k.alwaysOnAvailable then Screen.empty.put (.switch k.alwaysOn false) else .empty
  k.refresh s (k.gestures.foldl (fun screen key =>
    screen.put (.switch key (s.getSwitch key false))) screen)

/-! ## changing -/

def put (d : DozeState) (key : Key) (on : Bool) : DozeState :=
  let (preferences, device) := d.preferences.put key (.switch on) d.device
  { d with preferences, device }

/-- Brings the screen in line, and says what the gesture service is asked for. -/
def settle (k : DozeKeys) (d : DozeState) : Request × DozeState :=
  (k.request d.preferences, { d with screen := k.refresh d.preferences d.screen })

/-- Turns the ambient display on or off; off turns always-on off too. -/
def turn (k : DozeKeys) (on : Bool) (d : DozeState) : Request × DozeState :=
  let d := put d k.enabled on
  k.settle (if on then d else put d k.alwaysOn false)

/-- Switches always-on or a gesture. -/
def switch (k : DozeKeys) (key : Key) (on : Bool) (d : DozeState) :
    Outcome × Option Request × DozeState :=
  match d.screen.get? key with
  | none => (.rejected (.noDozeControl key), none, d)
  | some c =>
    if !c.enabled then (.rejected (.disabled key), none, d)
    else
      let d := { d with screen := d.screen.set key { c with checked := on } }
      let (r, d) := k.settle (put d key on)
      (.applied, some r, d)

end DozeKeys

end DeviceSettings

import DeviceSettings.Service

/-!
# The daemon's state

Which services run.  Pocket mode listens to the screen when it is told to; while it listens, the screen going
off arms its proximity gate if waking by fingerprint is on, and the screen coming on disarms it.  Every change
keeps the state of pocket mode sound (`PocketState.IsSound`).
-/

namespace DeviceSettings.Daemon

structure PocketState where
  running : Bool
  listening : Bool
  armed : Bool
deriving DecidableEq, Repr, Inhabited

structure State where
  pocket : PocketState
  doze : Bool
deriving DecidableEq, Repr, Inhabited

namespace PocketState

def idle : PocketState := ⟨false, false, false⟩

def start (s : PocketState) : PocketState := { s with running := true }

/-- A listener can only be set up or taken down while the service runs. -/
def listen (on : Bool) (s : PocketState) : PocketState :=
  if s.running then { s with listening := on, armed := s.armed && on } else s

def screenOff (wakeupOn : Bool) (s : PocketState) : PocketState :=
  if s.running && s.listening && wakeupOn then { s with armed := true } else s

def screenOn (s : PocketState) : PocketState := if s.listening then { s with armed := false } else s

/-- An armed gate has a listener, and a listener belongs to a service that runs. -/
def IsSound (s : PocketState) : Prop :=
  (s.armed = true → s.listening = true) ∧ (s.listening = true → s.running = true)

theorem isSound_idle : idle.IsSound := by simp [IsSound, idle]

theorem IsSound.start {s : PocketState} (h : s.IsSound) : s.start.IsSound :=
  ⟨h.1, fun _ => rfl⟩

theorem IsSound.listen {s : PocketState} (h : s.IsSound) (on : Bool) : (s.listen on).IsSound := by
  unfold PocketState.listen
  split
  · simp_all [IsSound]
  · exact h

theorem IsSound.screenOff {s : PocketState} (h : s.IsSound) (wakeupOn : Bool) :
    (s.screenOff wakeupOn).IsSound := by
  unfold PocketState.screenOff
  split
  · simp_all [IsSound]
  · exact h

theorem IsSound.screenOn {s : PocketState} (h : s.IsSound) : s.screenOn.IsSound := by
  unfold PocketState.screenOn
  split
  · exact ⟨nofun, h.2⟩
  · exact h

end PocketState

namespace State

def idle : State := ⟨.idle, false⟩

def runs (s : State) : Service → Bool
  | .pocketMode => s.pocket.running
  | .doze => s.doze

/-- Starts or stops a service. -/
def set (s : State) (r : Request) : State :=
  match r.service, r.start with
  | .pocketMode, true => { s with pocket := s.pocket.start }
  | .pocketMode, false => { s with pocket := .idle }
  | .doze, on => { s with doze := on }

/-- Does a request change whether its service runs? -/
def changes (s : State) (r : Request) : Bool := s.runs r.service != r.start

end State

end DeviceSettings.Daemon

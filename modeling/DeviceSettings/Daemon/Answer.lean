import DeviceSettings.Daemon.Message
import DeviceSettings.Daemon.State
import DeviceSettings.Node

/-!
# Answering queries

What the daemon answers to a query and how it changes its state.  Whether waking by fingerprint is on is read
before the state is touched.
-/

namespace DeviceSettings.Daemon

/-- What a daemon knows of itself. -/
structure Host where
  wakeupNode : Option Path
  process : Nat
  startedAt : Nat
deriving DecidableEq, Repr, Inhabited

/-- Fields in the order of their names. -/
def sorted (fields : List (String × Json.Value)) : Json.Value := .object (Table.ofList fields).entries

def PocketState.json (s : PocketState) : Json.Value :=
  sorted [("running", .boolean s.running), ("screen_listener", .boolean s.listening),
    ("proximity_armed", .boolean s.armed)]

/-- Does waking by fingerprint read as on? -/
def Host.wakeupOn (h : Host) (disk : Disk) : Bool := h.wakeupNode.any (Node.isSet disk)

/-- The state in full; `now` is in seconds. -/
def Host.status (h : Host) (now : Nat) (s : State) : Json.Value :=
  sorted [("running", .boolean true), ("pid", .natural h.process),
    ("started_at_unix", .natural h.startedAt), ("uptime_secs", .natural (now - h.startedAt)),
    ("pocket_mode", s.pocket.json), ("doze", .boolean s.doze)]

/-- The query that ends the daemon. -/
def shutdown : String := "shutdown"

/-- Changes the pocket mode service and shows it. -/
def answerPocket (s : State) (pocket : PocketState) : Reply × State :=
  (.success pocket.json, { s with pocket })

/-- Answers one query. -/
def answer (h : Host) (now : Nat) (wakeupOn : Bool) (q : Query) (s : State) : Reply × State :=
  if q.command = "start" || q.command = "stop" then
    let r : Request := ⟨q.service.getD .pocketMode, q.command = "start"⟩
    (.success (sorted [("service", .text r.service.name), ("running", .boolean r.start),
      ("changed", .boolean (s.changes r))]), s.set r)
  else if q.command = "proximity" then
    match q.enabled with
    | some on => answerPocket s (s.pocket.listen on)
    | none => (.failure "proximity requires 'enabled'", s)
  else if q.command = "screen_off" then answerPocket s (s.pocket.screenOff wakeupOn)
  else if q.command = "screen_on" then answerPocket s s.pocket.screenOn
  else if q.command = "status" then (.success (h.status now s), s)
  else if q.command = shutdown then (.success (.object [("stopping", .boolean true)]), s)
  else (.failure ("unknown command '" ++ q.command ++ "'"), s)

end DeviceSettings.Daemon

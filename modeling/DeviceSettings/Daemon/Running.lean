import DeviceSettings.Daemon.Connection
import DeviceSettings.Daemon.Error
import DeviceSettings.Profile.Store

/-!
# Running daemons

A daemon listens on a socket below a home directory.  It starts with a profile and without services; clients
reach it by the path of its socket.
-/

namespace DeviceSettings.Daemon

structure Running where
  socket : Path
  /-- where the socket was made -/
  place : Place
  host : Host
  state : State
deriving Inhabited

/-- A device on which a daemon may run. -/
structure Machine where
  device : Device
  daemon : Option Running
  /-- seconds on the clock -/
  now : Nat
  /-- the number that a daemon's process gets -/
  process : Nat
deriving Inhabited

namespace Machine

def disk (m : Machine) : Disk := m.device.disk

def perform (m : Machine) (s : Step) : Except DaemonError Unit × Machine :=
  let (r, device) := m.device.perform s
  (r.mapError (.io s.subject), { m with device })

/-- Does the daemon listen at a path? -/
def listensAt (m : Machine) (p : Path) : Bool :=
  match m.daemon, m.disk.resolve p with
  | some d, .ok place => place == d.place
  | _, _ => false

/-- Takes away whatever is left where the socket is to be. -/
def clearSocket (socket : Path) (m : Machine) : Except DaemonError Unit × Machine :=
  if !m.disk.exists_ socket then (.ok (), m)
  else if m.listensAt socket then
    (.error (.protocol ("daemon socket already in use: " ++ socket.text)), m)
  else m.perform (.remove socket)

/-- The mode of the socket. -/
def socketMode : Nat := 0o600

/-- Makes the directory of the socket and then the socket. -/
def listen (home : Path) (m : Machine) : Except DaemonError Unit × Machine :=
  let socket := Home.socket home
  let made :=
    if m.disk.exists_ (Home.run home) then (.ok (), m)
    else m.perform (.ensureDirectory (Home.run home))
  match made with
  | (.error e, m) => (.error e, m)
  | (.ok _, m) =>
    match clearSocket socket m with
    | (.error e, m) => (.error e, m)
    | (.ok _, m) =>
      match m.perform (.bind socket) with
      | (.error e, m) => (.error e, m)
      | (.ok _, m) => m.perform (.chmod socket socketMode)

/-- Starts the daemon of a home directory. -/
def startDaemon (home : Path) (m : Machine) : Except DaemonError Unit × Machine :=
  match Profile.load home m.disk with
  | .error e => (.error (.store e), m)
  | .ok p =>
    match m.listen home with
    | (.error e, m) => (.error e, m)
    | (.ok _, m) =>
      let socket := Home.socket home
      match m.disk.resolve socket with
      | .error e => (.error (.io socket e), m)
      | .ok place =>
        let host : Host := ⟨p.pocket.wakeupNode, m.process, m.now⟩
        (.ok (), { m with daemon := some ⟨socket, place, host, .idle⟩ })

/-- Ends the daemon; its socket is taken away. -/
def stopDaemon (m : Machine) : Machine :=
  match m.daemon with
  | none => m
  | some d => { (m.perform (.remove d.socket)).2 with daemon := none }

/-- Serves one connection, if a daemon runs. -/
def connect (m : Machine) (b : ByteArray) : Option (Served × Machine) :=
  m.daemon.map fun d =>
    let served := serveBytes d.host m.now m.disk b d.state
    let m := { m with daemon := some { d with state := served.state } }
    (served, if served.ended then m.stopDaemon else m)

end Machine

end DeviceSettings.Daemon

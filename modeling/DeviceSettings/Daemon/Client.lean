import DeviceSettings.Daemon.Running

/-!
# Clients

Asking a daemon: a query goes out as a line and the first line that comes back is its reply.
-/

namespace DeviceSettings.Daemon

namespace Reply

/-- The reply that the bytes of a connection begin with. -/
def ofBytes (socket : Path) (b : ByteArray) : Except DaemonError Reply :=
  match Text.byteLines b with
  | [] => .error (.protocol "daemon closed connection before responding")
  | line :: _ =>
    match String.fromUTF8? line with
    | none => .error (.io socket .notUtf8)
    | some s => (parse (.ofList (Text.trimEnd s.toList))).mapError .json

/-- What a reply says, or the failure that it reports. -/
def outcome (r : Reply) : Except DaemonError Json.Value :=
  if r.ok then .ok (r.data.getD .null)
  else .error (.protocol (r.error.getD "unknown daemon error"))

end Reply

namespace Machine

/-- Can a client reach a socket?  One that nobody listens on is as good as none. -/
def reach (socket : Path) (m : Machine) : Except DaemonError Unit :=
  if !m.disk.exists_ socket then .error (.notRunning socket)
  else if Disk.longestSocketPath < socket.text.utf8ByteSize then
    .error (.io socket .socketPathTooLong)
  else if m.listensAt socket then .ok ()
  else .error (.notRunning socket)

/-- Sends a query to the daemon of a home directory. -/
def ask (home : Path) (q : Query) (m : Machine) : Except DaemonError Reply × Machine :=
  let socket := Home.socket home
  match m.reach socket with
  | .error e => (.error e, m)
  | .ok _ =>
    match m.connect (q.print ++ "\n").toUTF8 with
    | none => (.error (.notRunning socket), m)
    | some (served, m) => (Reply.ofBytes socket served.text.toUTF8, m)

/-- Sends a query and gives what its reply says. -/
def query (home : Path) (q : Query) (m : Machine) : Except DaemonError Json.Value × Machine :=
  let (r, m) := m.ask home q
  (r.bind Reply.outcome, m)

def status (home : Path) (m : Machine) : Except DaemonError Json.Value × Machine :=
  m.query home (.named "status")

def shutDown (home : Path) (m : Machine) : Except DaemonError Unit × Machine :=
  let (r, m) := m.query home (.named shutdown)
  (r.map fun _ => (), m)

/-- Sends a request for a service to the daemon. -/
def request (home : Path) (r : Request) (m : Machine) : Except DaemonError Json.Value × Machine :=
  m.query home (.ofRequest r)

/-- Sends a request whose failure is one of the service's. -/
def control (home : Path) (r : Request) (m : Machine) : Except DeviceError Unit × Machine :=
  match m.request home r with
  | (.ok _, m) => (.ok (), m)
  | (.error e, m) => (.error (.service e.message), m)

/-- Sends requests in order, whether or not they arrive. -/
def deliver (home : Path) (rs : List Request) (m : Machine) : Machine :=
  rs.foldl (fun m r => (m.control home r).2) m

end Machine

end DeviceSettings.Daemon

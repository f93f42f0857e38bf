import DeviceSettings.Json.Source
import DeviceSettings.Service

/-!
# The daemon's messages

What is said over the daemon's socket: documents of one line each, queries one way and replies the other.
-/

namespace DeviceSettings.Daemon

open Document (Reader)

structure Query where
  command : String
  service : Option Service
  enabled : Option Bool
deriving DecidableEq, Repr, Inhabited

structure Reply where
  ok : Bool
  data : Option Json.Value
  error : Option String
deriving Inhabited

def serviceReader {σ : Type} : Reader σ Service := fun c t => do
  match Service.ofName? (← Document.choice ["pocket_mode", "doze"] c t) with
  | some s => pure s
  | none => Document.fail .malformed

/-- A field that is left out when there is nothing to say. -/
def sparse (name : String) (v : Option Json.Value) : List (String × Json.Value) :=
  v.toList.map fun v => (name, v)

namespace Query

def named (command : String) : Query := ⟨command, none, none⟩

/-- Asks for a service to be started or stopped. -/
def ofRequest (r : Request) : Query := ⟨if r.start then "start" else "stop", some r.service, none⟩

def reader {σ : Type} : Reader σ Query :=
  Document.record "DaemonRequest"
    [.needed "cmd" Document.text fun q v => { q with command := v },
     .defaulted "service" (Document.optional serviceReader) fun q v => { q with service := v },
     .defaulted "enabled" (Document.optional Document.boolean) fun q v => { q with enabled := v }]
    default

def parse (s : String) : Except Document.Problem Query := Json.read reader s

def json (q : Query) : Json.Value :=
  .object (("cmd", .text q.command) :: sparse "service" (q.service.map fun s => .text s.name)
    ++ sparse "enabled" (q.enabled.map .boolean))

def print (q : Query) : String := q.json.compact

end Query

namespace Reply

def success (data : Json.Value) : Reply := ⟨true, some data, none⟩

def failure (why : String) : Reply := ⟨false, none, some why⟩

def reader : Reader Json.Scalar Reply :=
  Document.record "DaemonResponse"
    [.needed "ok" Document.boolean fun r v => { r with ok := v },
     .nullable "data" Json.anyValue fun r v => { r with data := v },
     .nullable "error" Document.text fun r v => { r with error := v }]
    default

def parse (s : String) : Except Document.Problem Reply := Json.read reader s

def json (r : Reply) : Json.Value :=
  .object (("ok", .boolean r.ok) :: sparse "data" r.data ++ sparse "error" (r.error.map .text))

def print (r : Reply) : String := r.json.compact

end Reply

end DeviceSettings.Daemon

import DeviceSettings.Boot
import DeviceSettings.CommandLine.Command
import DeviceSettings.CommandLine.Trouble
import DeviceSettings.Daemon.Client
import DeviceSettings.Doze
import DeviceSettings.Text.Grid

/-!
# Running commands

What each command does on a machine, and what it prints.  Requests for services go to the daemon unless a
command is quiet.
-/

namespace DeviceSettings.CommandLine

open Daemon (Machine)

/-- What a command printed, or why it failed, and the machine after it. -/
abbrev Ran := Except Trouble String × Machine

def printed (lines : List String) : Except Trouble String := .ok (String.join (lines.map (· ++ "\n")))

/-! ## words for values -/

def yesNo (b : Bool) : String := if b then "yes" else "no"

def onOff (b : Bool) : String := if b then "on" else "off"

def startStop (start : Bool) : String := if start then "Start" else "Stop"

def lowerStartStop (start : Bool) : String := if start then "start" else "stop"

/-- The spellings of a switch, in any case. -/
def parseSwitch (raw : String) : Except Trouble Bool :=
  let s := String.ofList (raw.toList.map Char.toLower)
  if ["true", "1", "on", "yes"].contains s then .ok true
  else if ["false", "0", "off", "no"].contains s then .ok false
  else .error (.plain ("expected true/false, got '" ++ s ++ "'"))

def parseValue (kind : ControlKind) (raw : String) : Except Trouble Value :=
  match kind with
  | .switch => (parseSwitch raw).map .switch
  | .text => .ok (.text raw)

def jsonOption (s : Option String) : Json.Value :=
  match s with
  | some s => .text s
  | none => .null

/-! ## what commands begin with -/

def loadProfile (home : Path) (disk : Disk) : Except Trouble Profile :=
  (Profile.load home disk).mapError (Trouble.ofStore "failed to load device profile")

/-- The profile and the preferences below a home directory. -/
def loadDevice (home : Path) (disk : Disk) : Except Trouble (Profile × Preferences) := do
  let p ← loadProfile home disk
  let s ← (Preferences.openAt home disk).mapError (Trouble.ofStore "failed to open preference store")
  pure (p, s)

def withDevice (home : Path) (m : Machine) (f : Profile → Preferences → Ran) : Ran :=
  match loadDevice home m.disk with
  | .ok (p, s) => f p s
  | .error t => (.error t, m)

/-- Hands requests to the daemon unless a command is quiet. -/
def deliver (home : Path) (quiet : Bool) (rs : List Request) (m : Machine) : Machine :=
  if quiet then m else m.deliver home rs

/-- The button panel of a machine, opened and in line with its gates. -/
def openPanel (p : Profile) (s : Preferences) (pending : Pending) (d : Device) : Session :=
  ((Session.start p ⟨s, pending, d⟩ .inline).openScreen).resume

/-! ## the profile -/

def runInit (home : Path) (force : Bool) (m : Machine) : Ran :=
  let existed := m.disk.exists_ (Home.profile home)
  let (r, device) := Profile.init home force m.device
  let m := { m with device }
  match r with
  | .error e => (.error (.ofStore "failed to initialise profile" e), m)
  | .ok p =>
    let first :=
      if existed && !force then "profile for '" ++ p.device ++ "' already present"
      else "✓ wrote profile for '" ++ p.device ++ "'"
    (printed [first, "  " ++ (Home.profile home).text], m)

/-! ## booting -/

def bootJson (r : Boot.Report) : Json.Value :=
  .object [("button_nodes_present", .boolean r.hasButtons),
    ("entry_point_enabled", .boolean r.entryPointEnabled),
    ("pocket", jsonOption (r.request.map fun r => lowerStartStop r.start)),
    ("restored", .list (r.restored.map fun x =>
      .object [("key", .text x.key), ("node", .text x.node.text), ("value", x.value.json),
        ("written", .boolean x.written)]))]

def bootLines (r : Boot.Report) : List String :=
  if !r.hasButtons then ["no button nodes found; button settings hidden"]
  else
    (r.restored.map fun x =>
      (if x.written then "✓ " else "✗ ") ++ x.key ++ " = " ++ x.value.display ++ " → " ++ x.node.text)
    ++ (r.request.toList.map fun r => "pocket mode: " ++ startStop r.start)

/-- A boot ends the session that was there before. -/
def runBoot (home : Path) (quiet json : Bool) (m : Machine) : Ran :=
  withDevice home m fun p s =>
    match Components.load home m.disk with
    | .error e => (.error (.ofDevice "failed to load component state" e), m)
    | .ok c =>
      match Pending.clear home m.device with
      | (.error e, device) =>
        (.error (.ofDevice "failed to clear pending choices" e), { m with device })
      | (.ok _, device) =>
        let (report, _, device) := Boot.run p s c device
        (printed (if json then [(bootJson report).pretty] else bootLines report),
          deliver home quiet report.request.toList { m with device })

/-! ## the button panel -/

def kindName : ControlKind → String
  | .switch => "switch"
  | .text => "list"

/-- A row of the button panel: key, kind, whether it is enabled, value and node. -/
def panelRow (p : Profile) (c : Control) : List String :=
  [c.key, kindName c.kind, yesNo c.enabled, (c.current?.map Value.display).getD "-",
    ((p.boundNode? c.key).map fun (node, _) => node.text).getD "-"]

def panelHeadings : List String := ["key", "kind", "enabled", "value", "node"]

def panelRows (p : Profile) (screen : Screen) : List (List String) := screen.toList.map (panelRow p)

/-- What is printed of a button panel. -/
def panelLines (p : Profile) (json : Bool) (savedAt : Option Timestamp) (screen : Screen) : List String :=
  let rows := panelRows p screen
  if json then
    let row (cells : List String) : Json.Value :=
      .object ((panelHeadings.zip cells).map fun (name, cell) => (name, .text cell))
    [(Json.Value.list (rows.map row)).pretty]
  else
    [Text.grid panelHeadings rows,
      match savedAt with
      | some moment => "preferences saved " ++ moment.display
      | none => "preferences never saved"]

/-- Shows the button panel as it is in a session that keeps nothing and asks for no service. -/
def runShow (home : Path) (json : Bool) (m : Machine) : Ran :=
  withDevice home m fun p s =>
    match Pending.loadAt home m.disk with
    | .error e => (.error (.ofDevice "failed to load pending choices" e), m)
    | .ok pending =>
      let session := openPanel p s.detached pending.detached m.device
      (printed (panelLines p json s.savedAt session.screen),
        deliver home true session.delivered { m with device := session.stores.device })

/-- The gated settings that cannot be used now. -/
def unavailable (s : Session) : List Key :=
  s.profile.buttons.gates.keys.filter fun key => (s.screen.get? key).any (!·.enabled)

def runSet (home : Path) (key raw : String) (quiet : Bool) (m : Machine) : Ran :=
  withDevice home m fun p s =>
    let session := openPanel p s (Pending.beside s.path m.disk) m.device
    let after (session : Session) : Machine :=
      deliver home quiet session.delivered { m with device := session.stores.device }
    match session.screen.get? key with
    | none => (.error (.plain ("unknown setting '" ++ key ++ "'")), after session)
    | some c =>
      match parseValue c.kind raw with
      | .error t => (.error t, after session)
      | .ok v =>
        match session.apply key v with
        | (.applied, session) =>
          (printed (("✓ " ++ key ++ " = " ++ v.display)
            :: (unavailable session).map fun k => "  · " ++ k ++ " is now unavailable"),
            after session)
        | (.rejected why, session) => (.error (.plain why.message), after session)
        | (.writeFailed e, session) =>
          (.error (.plain (key ++ " saved but the node was not updated: " ++ e.message)),
            after session)

/-! ## pocket mode and search -/

def runPocket (home : Path) (apply quiet json : Bool) (m : Machine) : Ran :=
  withDevice home m fun p s =>
    let request := p.pocket.request s
    let requested := if apply then [request] else []
    let m := deliver home quiet requested m
    if json then
      (printed [(Json.Value.object
        [("applied", jsonOption (requested.head?.map fun r => lowerStartStop r.start)),
          ("pocket_mode", .boolean (s.getSwitch p.pocket.pocketMode false)),
          ("should_run", .boolean request.start),
          ("wakeup", .boolean (s.getSwitch p.pocket.wakeup false))]).pretty], m)
    else
      (printed (("pocket mode service should " ++ if request.start then "run" else "be stopped")
        :: requested.map fun r => "requested: " ++ startStop r.start), m)

def joinedOrNone (items : List String) : String :=
  let joined := String.intercalate ", " items
  if joined = "" then "(none)" else joined

def runSearch (home : Path) (packages : Option Path) (json : Bool) (m : Machine) : Ran :=
  match loadProfile home m.disk with
  | .error t => (.error t, m)
  | .ok p =>
    let path := packages.getD p.search.packagesList
    match Packages.load path m.disk with
    | .error e => (.error (.ofDevice ("failed to read " ++ path.text) e), m)
    | .ok packages =>
      let hidden := p.hiddenKeys packages m.disk
      let screens := p.searchableScreens m.disk
      if json then
        (printed [(Json.Value.object [("indexable_screens", .list (screens.map .text)),
          ("non_indexable_keys", .list (hidden.map .text))]).pretty], m)
      else
        (printed ["indexable screens: " ++ joinedOrNone screens,
          "hidden keys: " ++ joinedOrNone hidden], m)

/-! ## keys -/

def runKeyEvent (home : Path) (e : KeyEvent) (screenOff setupIncomplete : Bool) (m : Machine) : Ran :=
  withDevice home m fun p s =>
    let context := p.keys.context (!setupIncomplete) (!screenOff) s m.disk
    (printed [(p.keys.handle e context).name], m)

def swapLine (node : Path) (m : Machine) : String :=
  if KeySwapper.isSupported m.disk node then "key swap: " ++ onOff (KeySwapper.isEnabled m.disk node)
  else "key swap: unsupported"

def runKeySwap (home : Path) (value : Option String) (m : Machine) : Ran :=
  withDevice home m fun p _ =>
    match p.keys.swapperNode, value with
    | none, _ => (.error (.plain ("profile '" ++ p.device ++ "' has no key swapper node")), m)
    | some node, none => (printed [swapLine node m], m)
    | some node, some raw =>
      match parseSwitch raw with
      | .error t => (.error t, m)
      | .ok on =>
        let (r, device) := KeySwapper.set node on m.device
        let m := { m with device }
        match r with
        | .error e => (.error (.ofDevice "failed to write key swapper node" e), m)
        | .ok false => (.error (.plain "key swap is not supported on this device"), m)
        | .ok true => (printed [swapLine node m], m)

def disabledLine (node : Path) (m : Machine) : String :=
  "capacitive keys disabled: " ++ onOff (KeyDisabler.isEnabled m.disk node)

def runKeyDisable (home : Path) (value : Option String) (m : Machine) : Ran :=
  withDevice home m fun p _ =>
    match p.keys.disablerNode, value with
    | none, _ => (.error (.plain ("profile '" ++ p.device ++ "' has no key disabler node")), m)
    | some node, none => (printed [disabledLine node m], m)
    | some node, some raw =>
      match parseSwitch raw with
      | .error t => (.error t, m)
      | .ok on =>
        let (r, device) := KeyDisabler.set node on m.device
        let m := { m with device }
        match r with
        | .error e => (.error (.ofDevice "failed to write key disabler node" e), m)
        | .ok _ => (printed [disabledLine node m], m)

/-! ## the ambient display -/

def runDozeShow (home : Path) (m : Machine) : Ran :=
  withDevice home m fun p s =>
    let rows := (p.doze.openScreen s).toList.map fun c => [c.key, yesNo c.enabled, yesNo c.checked]
    (printed ["doze: " ++ onOff (p.doze.isOn s), Text.grid ["key", "enabled", "on"] rows,
      "gesture service: " ++ if p.doze.shouldRun s then "should run" else "stopped"], m)

def runDozeEnable (home : Path) (raw : String) (quiet : Bool) (m : Machine) : Ran :=
  withDevice home m fun p s =>
    match parseSwitch raw with
    | .error t => (.error t, m)
    | .ok on =>
      let (r, d) := p.doze.turn on ⟨p.doze.openScreen s, s, m.device⟩
      (printed ["doze " ++ if on then "enabled" else "disabled"],
        deliver home quiet [r] { m with device := d.device })

def runDozeSet (home : Path) (key raw : String) (quiet : Bool) (m : Machine) : Ran :=
  withDevice home m fun p s =>
    match parseSwitch raw with
    | .error t => (.error (t.behind ("invalid value for '" ++ key ++ "'")), m)
    | .ok on =>
      let (outcome, r, d) := p.doze.switch key on ⟨p.doze.openScreen s, s, m.device⟩
      let m := deliver home quiet r.toList { m with device := d.device }
      match outcome with
      | .applied => (printed [key ++ " = " ++ (Value.switch on).display], m)
      | .rejected why => (.error (.plain why.message), m)
      | .writeFailed e => (.error (.plain e.message), m)

/-! ## the daemon -/

def runDaemonStart (home : Path) (m : Machine) : Ran :=
  match m.startDaemon home with
  | (.ok _, m) => (.ok "", m)
  | (.error e, m) => (.error (.ofDaemon "daemon exited with error" e), m)

def runDaemonStop (home : Path) (m : Machine) : Ran :=
  match m.shutDown home with
  | (.ok _, m) => (printed ["daemon stop requested"], m)
  | (.error (.notRunning _), m) => (printed ["daemon is not running"], m)
  | (.error e, m) => (.error (.ofDaemon "failed to stop daemon" e), m)

def runDaemonStatus (home : Path) (m : Machine) : Ran :=
  match m.status home with
  | (.ok status, m) => (printed [status.pretty], m)
  | (.error (.notRunning _), m) =>
    (printed [(Json.Value.object [("running", .boolean false),
      ("socket", .text (Home.socket home).text)]).pretty], m)
  | (.error e, m) => (.error (.ofDaemon "failed to query daemon status" e), m)

/-! ## all commands -/

def Command.run (home : Path) : Command → Machine → Ran
  | .init force => runInit home force
  | .boot quiet json => runBoot home quiet json
  | .show json => runShow home json
  | .set key value quiet => runSet home key value quiet
  | .pocket apply quiet json => runPocket home apply quiet json
  | .search packages json => runSearch home packages json
  | .keyEvent e screenOff setupIncomplete => runKeyEvent home e screenOff setupIncomplete
  | .keySwap value => runKeySwap home value
  | .keyDisable value => runKeyDisable home value
  | .dozeShow => runDozeShow home
  | .dozeEnable value quiet => runDozeEnable home value quiet
  | .dozeSet key value quiet => runDozeSet home key value quiet
  | .daemonStart => runDaemonStart home
  | .daemonStop => runDaemonStop home
  | .daemonStatus => runDaemonStatus home

/-- What a command line leaves behind: an exit code and two texts. -/
structure Output where
  code : Nat
  stdout : String
  stderr : String
deriving DecidableEq, Repr, Inhabited

def versionText : String := "parts 0.1.0\n"

/-- Runs a command line. -/
def run (home : Path) (words : List String) (m : Machine) : Output × Machine :=
  match Command.read words with
  | .error .version => (⟨0, versionText, ""⟩, m)
  | .error .help => (⟨0, "", ""⟩, m)
  | .error .wrong => (⟨2, "", ""⟩, m)
  | .ok command =>
    match command.run home m with
    | (.ok text, m) => (⟨0, text, ""⟩, m)
    | (.error t, m) => (⟨1, "", t.text⟩, m)

end DeviceSettings.CommandLine

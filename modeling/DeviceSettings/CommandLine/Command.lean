import DeviceSettings.KeyEvent
import DeviceSettings.Text.Numeral

/-!
# Commands

What the command line can be asked to do, and how its words are read.  Flags may stand before or after the
other words of a command, each at most once; after `--` there are no flags.
-/

namespace DeviceSettings.CommandLine

inductive Command
  | init (force : Bool)
  | boot (quiet json : Bool)
  | show (json : Bool)
  | set (key value : String) (quiet : Bool)
  | pocket (apply quiet json : Bool)
  | search (packages : Option Path) (json : Bool)
  | keyEvent (event : KeyEvent) (screenOff setupIncomplete : Bool)
  | keySwap (value : Option String)
  | keyDisable (value : Option String)
  | dozeShow
  | dozeEnable (value : String) (quiet : Bool)
  | dozeSet (key value : String) (quiet : Bool)
  | daemonStart
  | daemonStop
  | daemonStatus
deriving DecidableEq, Repr, Inhabited

/-- What the words of a command line are when they are no command. -/
inductive Usage
  | version
  | help
  | wrong
deriving DecidableEq, Repr, Inhabited

/-! ## words -/

/-- What a command takes: flags, options with a value, and how many other words. -/
structure Shape where
  flags : List String
  options : List String
  least : Nat
  most : Nat

/-- The words of a command, sorted by what they are. -/
structure Words where
  flags : List String
  options : List (String × String)
  others : List String

def Words.none : Words := ⟨[], [], []⟩

/-- A word that is a flag or an option, or is meant to be one. -/
def isDashed (w : String) : Bool :=
  match w.toList with
  | '-' :: _ :: _ => true
  | _ => false

/-- The name of a long option, and the value after an equals sign. -/
def splitOption (w : String) : String × Option String :=
  let cs := w.toList
  let name := cs.takeWhile (· != '=')
  (.ofList name, if name.length < cs.length then some (.ofList (cs.drop (name.length + 1))) else none)

/-- Sorts the words of a command. -/
def Shape.sort (s : Shape) (w : Words) : List String → Except Usage Words
  | [] => if w.others.length < s.least then .error .wrong else .ok w
  | word :: rest =>
    if word = "--" then
      let others := w.others ++ rest
      if others.length < s.least || s.most < others.length then .error .wrong
      else .ok { w with others }
    else if !isDashed word then
      if s.most ≤ w.others.length then .error .wrong
      else s.sort { w with others := w.others ++ [word] } rest
    else if word = "--help" || word.startsWith "-h" then .error .help
    else
      let (name, value) := splitOption word
      if s.flags.contains name then
        if value.isSome || w.flags.contains name then .error .wrong
        else s.sort { w with flags := name :: w.flags } rest
      else if s.options.contains name then
        if (w.options.lookup name).isSome then .error .wrong
        else match value, rest with
        | some v, rest => s.sort { w with options := (name, v) :: w.options } rest
        | none, v :: rest =>
          if isDashed v then .error .wrong
          else s.sort { w with options := (name, v) :: w.options } rest
        | none, [] => .error .wrong
      else .error .wrong

namespace Words

def has (w : Words) (flag : String) : Bool := w.flags.contains flag

def option? (w : Words) (name : String) : Option String := w.options.lookup name

end Words

/-- the codes that key events carry -/
def codeLimit : Nat := Nat.pow 2 16

/-- A code in decimal digits; a plus may stand before them. -/
def code (s : String) : Except Usage Nat :=
  let digits := match s.toList with
    | '+' :: r => r
    | cs => cs
  match Text.digits? 10 digits with
  | some n => if n < codeLimit then .ok n else .error .wrong
  | none => .error .wrong

/-! ## commands -/

def quiet : String := "--no-service"
def json : String := "--json"

def readInit (ws : List String) : Except Usage Command := do
  let w ← Shape.sort ⟨["--force"], [], 0, 0⟩ .none ws
  pure (.init (w.has "--force"))

def readBoot (ws : List String) : Except Usage Command := do
  let w ← Shape.sort ⟨[quiet, json], [], 0, 0⟩ .none ws
  pure (.boot (w.has quiet) (w.has json))

def readShow (ws : List String) : Except Usage Command := do
  let w ← Shape.sort ⟨[json], [], 0, 0⟩ .none ws
  pure (.show (w.has json))

/-- The key and the value that a command takes. -/
def pair (w : Words) : Except Usage (String × String) :=
  match w.others with
  | [key, value] => .ok (key, value)
  | _ => .error .wrong

def readSet (ws : List String) : Except Usage Command := do
  let w ← Shape.sort ⟨[quiet], [], 2, 2⟩ .none ws
  let (key, value) ← pair w
  pure (.set key value (w.has quiet))

def readPocket (ws : List String) : Except Usage Command := do
  let w ← Shape.sort ⟨["--apply", quiet, json], [], 0, 0⟩ .none ws
  pure (.pocket (w.has "--apply") (w.has quiet) (w.has json))

/-- A file that is named must have a name. -/
def readSearch (ws : List String) : Except Usage Command := do
  let w ← Shape.sort ⟨[json], ["--packages"], 0, 0⟩ .none ws
  match w.option? "--packages" with
  | some "" => .error .wrong
  | p => pure (.search (p.map Path.mk) (w.has json))

def readKeyEvent (ws : List String) : Except Usage Command := do
  let w ← Shape.sort ⟨["--screen-off", "--setup-incomplete"], ["--key-code"], 1, 1⟩ .none ws
  let scanCode ← code (w.others.headD "")
  let keyCode ← match w.option? "--key-code" with
    | some s => code s
    | none => .ok KeyTable.homeCode
  pure (.keyEvent ⟨keyCode, scanCode⟩ (w.has "--screen-off") (w.has "--setup-incomplete"))

def readToggle (command : Option String → Command) (ws : List String) : Except Usage Command := do
  let w ← Shape.sort ⟨[], [], 0, 1⟩ .none ws
  pure (command w.others.head?)

/-- A command that takes nothing. -/
def readBare (command : Command) (ws : List String) : Except Usage Command := do
  let _ ← Shape.sort ⟨[], [], 0, 0⟩ .none ws
  pure command

def readDozeEnable (ws : List String) : Except Usage Command := do
  let w ← Shape.sort ⟨[quiet], [], 1, 1⟩ .none ws
  pure (.dozeEnable (w.others.headD "") (w.has quiet))

def readDozeSet (ws : List String) : Except Usage Command := do
  let w ← Shape.sort ⟨[quiet], [], 2, 2⟩ .none ws
  let (key, value) ← pair w
  pure (.dozeSet key value (w.has quiet))

def keyCommands : List String := ["event", "swap", "disable"]

def dozeCommands : List String := ["show", "enable", "set"]

def daemonCommands : List String := ["start", "stop", "status"]

/-- The commands of a group. -/
def commandsOf (group : String) : List String :=
  if group = "key" then keyCommands
  else if group = "doze" then dozeCommands
  else if group = "daemon" then daemonCommands
  else []

/-- the commands that belong to no group, and the groups -/
def commands : List String :=
  ["init", "boot", "show", "set", "pocket", "search", "key", "doze", "daemon"]

/-- Words after `help` name one of some commands, or one of its group. -/
def readHelp (names : List String) : List String → Usage
  | [] => .help
  | [word] => if word = "help" || names.contains word then .help else .wrong
  | [group, word] =>
    let inner := commandsOf group
    if names.contains group && (inner.contains word || (word = "help" && !inner.isEmpty)) then .help
    else .wrong
  | _ => .wrong

/-- Words that begin with none of some commands. -/
def readOther (names : List String) : List String → Except Usage Command
  | "help" :: ws => .error (readHelp names ws)
  | word :: _ => .error (if word = "--help" || word.startsWith "-h" then .help else .wrong)
  | [] => .error .wrong

def readKey : List String → Except Usage Command
  | "event" :: ws => readKeyEvent ws
  | "swap" :: ws => readToggle .keySwap ws
  | "disable" :: ws => readToggle .keyDisable ws
  | ws => readOther keyCommands ws

def readDoze : List String → Except Usage Command
  | "show" :: ws => readBare .dozeShow ws
  | "enable" :: ws => readDozeEnable ws
  | "set" :: ws => readDozeSet ws
  | ws => readOther dozeCommands ws

def readDaemon : List String → Except Usage Command
  | "start" :: ws => readBare .daemonStart ws
  | "stop" :: ws => readBare .daemonStop ws
  | "status" :: ws => readBare .daemonStatus ws
  | ws => readOther daemonCommands ws

/-- The command of a command line. -/
def Command.read : List String → Except Usage Command
  | "init" :: ws => readInit ws
  | "boot" :: ws => readBoot ws
  | "show" :: ws => readShow ws
  | "set" :: ws => readSet ws
  | "pocket" :: ws => readPocket ws
  | "search" :: ws => readSearch ws
  | "key" :: ws => readKey ws
  | "doze" :: ws => readDoze ws
  | "daemon" :: ws => readDaemon ws
  | ws =>
    if ws.head?.any fun word => word = "--version" || word.startsWith "-V" then .error .version
    else readOther commands ws

end DeviceSettings.CommandLine

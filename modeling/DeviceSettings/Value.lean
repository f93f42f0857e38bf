import DeviceSettings.Document.Reader
import DeviceSettings.Json.Source
import DeviceSettings.Yaml.Printer

/-!
# Setting values

A switch holds a truth value and a list setting holds a text.  A value has three written forms: its display,
the token that goes into a control node, and itself in a document, where a text that spells a truth value
stays a text.
-/

namespace DeviceSettings

/-- The name of a setting. -/
abbrev Key := String

inductive Value
  | switch (on : Bool)
  | text (s : String)
deriving DecidableEq, Repr, Inhabited

namespace Value

def switch? : Value → Option Bool
  | switch on => some on
  | text _ => none

def text? : Value → Option String
  | switch _ => none
  | text s => some s

/-- The token for a switch. -/
def switchToken (on : Bool) : String := if on then "1" else "0"

/-- What a control node holds for the value. -/
def token : Value → String
  | switch on => switchToken on
  | text s => s

def display : Value → String
  | switch on => if on then "true" else "false"
  | text s => s

/-! ## in documents -/

def json : Value → Json.Value
  | switch on => .boolean on
  | text s => .text s

def yaml : Value → Yaml.Value
  | switch on => .boolean on
  | text s => .text s

/-- The value that a node of a document is. -/
def ofContent? : Document.Content → Option Value
  | .scalar (.boolean b) => some (switch b)
  | .scalar (.text s) => some (text s)
  | _ => none

def reader {σ : Type} : Document.Reader σ Value := fun c t => do
  match ofContent? (← Document.content c t) with
  | some v => pure v
  | none => Document.fail (.noVariant "PrefValue")

end Value

end DeviceSettings

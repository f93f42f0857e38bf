import DeviceSettings.Document.Reader
import DeviceSettings.Json.Lexeme
import DeviceSettings.Json.Value

/-!
# JSON as documents

Lexemes in the order of the grammar are the events of a document; the first out of order ends it.
`textDialect` reads JSON texts and `valueDialect` JSON values.
-/

namespace DeviceSettings.Json

open Document

/-! ## the grammar -/

/-- What may come next. -/
inductive Want
  | value
  | valueOrClose
  | key
  | keyOrClose
  | colon
  | more
  | nothing

/-- The containers that are open, innermost first (`true` for objects), and what may come next. -/
structure Grammar where
  inside : List Bool
  want : Want

namespace Grammar

def start : Grammar := ⟨[], .value⟩

/-- After a value. -/
def after (inside : List Bool) : Grammar := ⟨inside, if inside.isEmpty then .nothing else .more⟩

def openValue (inside : List Bool) : Lexeme → Option (Grammar × Option (Event Scalar))
  | .scalar s => some (after inside, some (.scalar s none))
  | .openList => some (⟨false :: inside, .valueOrClose⟩, some (.openList false none))
  | .openObject => some (⟨true :: inside, .keyOrClose⟩, some (.openMap false none))
  | _ => none

/-- A key; one that is not a text is seen, but nothing may follow it. -/
def openKey (inside : List Bool) : Lexeme → Option (Grammar × Option (Event Scalar))
  | .scalar s =>
    match s with
    | .text _ => some (⟨inside, .colon⟩, some (.scalar s none))
    | _ => some (⟨inside, .nothing⟩, some (.scalar s none))
  | _ => none

def close (object : Bool) : List Bool → Option (Grammar × Option (Event Scalar))
  | o :: inside => if o = object then some (after inside, some .close) else none
  | [] => none

def step (g : Grammar) (x : Lexeme) : Option (Grammar × Option (Event Scalar)) :=
  match g.want, x with
  | .value, x => openValue g.inside x
  | .valueOrClose, .closeList => close false g.inside
  | .valueOrClose, x => openValue g.inside x
  | .key, x => openKey g.inside x
  | .keyOrClose, .closeObject => close true g.inside
  | .keyOrClose, x => openKey g.inside x
  | .colon, .colon => some (⟨g.inside, .value⟩, none)
  | .more, .comma => some (⟨g.inside, if g.inside.head? = some true then .key else .value⟩, none)
  | .more, .closeList => close false g.inside
  | .more, .closeObject => close true g.inside
  | _, _ => none

/-- The events of lexemes up to the first out of order, and whether they are one whole value. -/
def events (g : Grammar) : List Lexeme → List (Event Scalar) × Bool
  | [] => ([], match g.want with | .nothing => g.inside.isEmpty | _ => false)
  | x :: xs =>
    match g.step x with
    | none => ([], false)
    | some (g, e) =>
      let (es, whole) := g.events xs
      (e.toList ++ es, whole)

end Grammar

/-- The document of a text. -/
def source (s : String) : Source Scalar :=
  let (xs, ends) := lexemes s
  let (es, whole) := Grammar.start.events xs
  .ofEvents es (whole && ends)

/-! ## dialects -/

def Number.found : Number → Found
  | integer n => .integer n
  | float x => .float x.text

def Scalar.found : Scalar → Except Mismatch Found
  | null => .ok .null
  | boolean b => .ok (.boolean b)
  | number (some n) => .ok n.found
  | text (some s) => .ok (.text s)
  | number none | text none => .error .malformed

def Scalar.text? : Scalar → Except Mismatch (Option String)
  | text (some s) => .ok (some s)
  | text none => .error .malformed
  | _ => .ok none

def Scalar.boolean? : Scalar → Option Bool
  | boolean b => some b
  | _ => none

def Scalar.integer? : Scalar → Except Mismatch (Option Int)
  | number (some (.integer n)) => .ok (some n)
  | number none => .error .malformed
  | _ => .ok none

def Scalar.isNull : Scalar → Bool
  | null => true
  | _ => false

/-- How a JSON text is read. -/
def textDialect : Dialect Scalar where
  levels := 127
  located := false
  textKeys := true
  text? := Scalar.text?
  boolean? := Scalar.boolean?
  integer? := Scalar.integer?
  isNull s := .ok s.isNull
  isEmpty _ := false
  found := Scalar.found
  any := Scalar.found
  surplus _ _ := .malformed

/-- How a JSON value is read: it nests as deep as it does. -/
def valueDialect : Dialect Scalar :=
  { textDialect with
    levels := 1000000
    surplus := fun _ total => .wrongLength total "fewer elements in array" }

/-! ## values -/

mutual

/-- The tree of a value. -/
def Value.tree : Value → DataTree Scalar
  | null => .scalar .null
  | boolean b => .scalar (.boolean b)
  | number n => .scalar (.number (some n))
  | text s => .scalar (.text (some s))
  | list items => .list false (treeItems items) true
  | object fields => .map false (treeFields fields) true

def Value.treeItems : List Value → List (DataTree Scalar)
  | [] => []
  | v :: rest => v.tree :: treeItems rest

def Value.treeFields : List (String × Value) → List (DataTree Scalar × DataTree Scalar)
  | [] => []
  | (k, v) :: rest => (.scalar (.text (some k)), v.tree) :: treeFields rest

end

def Value.source (v : Value) : Source Scalar := ⟨v.tree, [], true, 0⟩

/-- A scalar as a value. -/
def Scalar.value? : Scalar → Option Value
  | null => some .null
  | boolean b => some (.boolean b)
  | number n => n.map .number
  | text s => s.map .text

/-- A value whose containers are read by `deeper`, if they may be entered at all.  The fields of an object
are put in the order of their names, the last one of a name winning. -/
def valueWith (deeper : Option (Reader Scalar Value)) : Reader Scalar Value := fun c t =>
  match t, deeper with
  | .scalar s, _ =>
    match s.value? with
    | some v => pure v
    | none => fail .malformed
  | .list _ items whole, some read => do
    let values ← items.mapM (read c)
    if whole then pure (.list values) else fail .malformed
  | .map _ entries whole, some read => do
    let fields ← entries.foldlM (fun (acc : Table String Value) (k, v) => do
      let name ← key "a string" c k
      let value ← read c v
      pure (acc.insert name value)) Table.empty
    if whole then pure (.object fields.entries) else fail .malformed
  | _, _ => fail .malformed

def valueWithin : Nat → Reader Scalar Value
  | 0 => valueWith none
  | n + 1 => valueWith (some (valueWithin n))

/-- Any value. -/
def anyValue : Reader Scalar Value := fun c t => valueWithin c.levels c t

/-- Reads a JSON text. -/
def read {α : Type} (r : Reader Scalar α) (s : String) : Except Problem α :=
  (source s).read textDialect r

/-- The value of a JSON text. -/
def parse (s : String) : Except Problem Value := read anyValue s

end DeviceSettings.Json

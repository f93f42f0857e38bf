import DeviceSettings.Text.Blank

/-!
# Paths

A path is kept as it was spelled.  Two spellings of the same components are the `Same` path: repeated
slashes, trailing slashes and every `.` but a leading one do not count.  Paths are ordered by their
components.
-/

namespace DeviceSettings

/-- A path as it was spelled. -/
structure Path where
  text : String
deriving DecidableEq, Repr, Inhabited

namespace Path

instance : ToString Path := ⟨text⟩

/-! ## components -/

inductive Component
  | root
  | current
  | parent
  | name (s : String)
deriving DecidableEq, Repr

/-- The text between slashes. -/
def pieces (p : Path) : List String := (Text.splitOn '/' p.text.toList).map .ofList

def isAbsolute (p : Path) : Bool := p.text.toList.head? == some '/'

/-- Pieces that name nothing: between repeated slashes, after a trailing one, and `.`. -/
def isTrivial (s : String) : Bool := s == "" || s == "."

def Component.ofPiece (s : String) : Component := if s = ".." then .parent else .name s

def components (p : Path) : List Component :=
  let named := fun ps => (ps.filter fun s => !isTrivial s).map Component.ofPiece
  match p.pieces with
  | "" :: rest => (if p.isAbsolute then [.root] else []) ++ named rest
  | "." :: rest => .current :: named rest
  | ps => named ps

/-- Two spellings of the same components. -/
def Same (p q : Path) : Prop := p.components = q.components

instance (p q : Path) : Decidable (Same p q) := inferInstanceAs (Decidable (_ = _))

theorem Same.rfl {p : Path} : Same p p := Eq.refl _

theorem Same.symm {p q : Path} (h : Same p q) : Same q p := Eq.symm h

theorem Same.trans {p q r : Path} (h : Same p q) (h' : Same q r) : Same p r := Eq.trans h h'

def Component.rank : Component → Nat
  | .root => 0
  | .current => 1
  | .parent => 2
  | .name _ => 3

def Component.compare : Component → Component → Ordering
  | .name s, .name t => Ord.compare s t
  | c, d => Ord.compare c.rank d.rank

/-- The order of the components, the first difference deciding. -/
def compare (p q : Path) : Ordering := List.compareLex Component.compare p.components q.components

/-! ## taking paths apart and putting them together -/

def join (p : Path) (name : String) : Path :=
  if name.toList.head? = some '/' then ⟨name⟩
  else if p.text = "" || p.text.toList.getLast? = some '/' then ⟨p.text ++ name⟩
  else ⟨p.text ++ "/" ++ name⟩

/-- Pieces from the last to the first, without the trivial ones that end the path. -/
def dropTrivial : List String → List String
  | s :: t :: rest => if isTrivial s then dropTrivial (t :: rest) else s :: t :: rest
  | ps => ps

/-- The path whose pieces are given from the last to the first. -/
def ofReversed (absolute : Bool) (ps : List String) : Path :=
  if absolute && ps == [""] then ⟨"/"⟩ else ⟨String.intercalate "/" ps.reverse⟩

/-- The path without its last component. -/
def parent? (p : Path) : Option Path :=
  match dropTrivial p.pieces.reverse with
  | [] => none
  | [s] => if s = "" then none else some ⟨""⟩
  | _ :: rest => some (ofReversed p.isAbsolute (dropTrivial rest))

/-- The last component, if it is a name. -/
def fileName? (p : Path) : Option String :=
  match dropTrivial p.pieces.reverse with
  | s :: _ => if isTrivial s || s = ".." then none else some s
  | [] => none

/-- A file name cut at its last dot, unless that dot begins the name. -/
def splitName (name : String) : String × Option String :=
  match (Text.splitOn '.' name.toList).reverse.map String.ofList with
  | ext :: before =>
    let stem := String.intercalate "." before.reverse
    if before.isEmpty || stem = "" then (name, none) else (stem, some ext)
  | [] => (name, none)

def extension? (p : Path) : Option String := p.fileName?.bind fun n => (splitName n).2

/-- The path with an extension in place of the one its file name has; a path that does not end in a
file name is left alone. -/
def setExtension (p : Path) (ext : String) : Path :=
  match p.fileName? with
  | none => p
  | some name =>
    let stem := (splitName name).1 ++ "." ++ ext
    ofReversed p.isAbsolute (stem :: (dropTrivial p.pieces.reverse).drop 1)

/-- The old extension's text is taken off the end of the path before the new one is set. -/
def withExtension (p : Path) (ext : String) : Path :=
  match p.extension? with
  | none => p.setExtension ext
  | some old =>
    setExtension ⟨.ofList (p.text.toList.take (p.text.length - old.length))⟩ ext

/-- The path with another file name. -/
def withFileName (p : Path) (name : String) : Path :=
  if p.fileName?.isSome then ((p.parent?).getD p).join name else p.join name

end Path

end DeviceSettings

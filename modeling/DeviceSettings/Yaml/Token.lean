import DeviceSettings.Yaml.Point

/-!
# The tokens of YAML

Besides what a text spells out, the tokens tell where block collections begin and end, which the text shows
by indentation only.
-/

namespace DeviceSettings.Yaml

/-- How a scalar is written. -/
inductive Style
  | plain
  | singleQuoted
  | doubleQuoted
  | literal
  | folded
deriving DecidableEq, Repr, Inhabited

inductive Token
  | streamEnd
  | version (major minor : Nat)
  /-- a short handle for the start of tags -/
  | tagHandle (handle stem : String)
  | documentStart
  | documentEnd
  | blockSequence
  | blockMapping
  | blockEnd
  | flowSequence
  | flowSequenceEnd
  | flowMapping
  | flowMappingEnd
  | blockEntry
  | flowEntry
  | key
  | value
  | reference (name : String)
  | anchor (name : String)
  | tag (handle suffix : String)
  | scalar (text : String) (style : Style)
deriving DecidableEq, Repr, Inhabited

/-! ## gaps in scalars -/

/-- What stands between two words of a scalar: blanks on a line, or a break and those of the empty lines
after it. -/
inductive Gap
  | blanks (cs : List Char)
  | breaks (first more : List Char)

namespace Gap

def none : Gap := .blanks []

def isBroken : Gap → Bool
  | .blanks _ => false
  | .breaks _ _ => true

/-- A single line feed folds to a blank; of several the first is dropped. -/
def text : Gap → List Char
  | .blanks cs => cs
  | .breaks first more =>
    if first = ['\n'] then (if more.isEmpty then [' '] else more) else first ++ more

end Gap

/-- The breaks of the empty lines from the start of a line on, and where the text goes on after blanks.  A
tab may not stand left of the column `least`. -/
def breaksFrom (fuel : Nat) (least : Int) (p : Point) : Option (List Char × Point) :=
  let blanks := p.rest.takeWhile isBlank
  let q := p.skip blanks.length
  if (blanks.take least.toNat).contains '\t' then none
  else if q.rest.head?.any isBreak then
    match fuel with
    | 0 => none
    | fuel + 1 => do
      let (b, q) := q.passBreak
      let (more, q) ← breaksFrom fuel least q
      some (b ++ more, q)
  else some ([], q)

/-- Passes the gap that stands next. -/
def gap? (fuel : Nat) (least : Int) (p : Point) : Option (Gap × Point) :=
  let blanks := p.rest.takeWhile isBlank
  let q := p.skip blanks.length
  if q.rest.head?.any isBreak then do
    let (first, q) := q.passBreak
    let (more, q) ← breaksFrom fuel least q
    some (.breaks first more, q)
  else some (.blanks blanks, q)

/-! ## plain scalars -/

/-- Characters with which no plain scalar goes on inside a flow collection. -/
def flowMarks : List Char := [',', '[', ']', '\x7b', '\x7d']

def endsPlain (flow : Bool) : List Char → Bool
  | [] => true
  | c :: r => isGap c || (c == ':' && gapNext r) || (flow && flowMarks.contains c)

/-- A colon before a mark is neither a value nor part of a word. -/
def isLostColon (flow : Bool) : List Char → Bool
  | ':' :: c :: _ => flow && (c == '?' || flowMarks.contains c)
  | _ => false

/-- The word of a plain scalar that stands next. -/
def plainWord (flow : Bool) : List Char → Option (List Char)
  | [] => some []
  | c :: r =>
    if isGap c then some []
    else if isLostColon flow (c :: r) then none
    else if endsPlain flow (c :: r) then some []
    else (plainWord flow r).map (c :: ·)

/-- What is left of a plain scalar, with the gap before it if a word follows.  With it comes whether the
scalar ended on a line of its own. -/
def plainFrom (fuel : Nat) (flow : Bool) (indent : Int) (g : Gap) (p : Point) :
    Option (List Char × Bool × Point) :=
  match fuel with
  | 0 => none
  | fuel + 1 =>
    if p.atMarker || p.rest.head? = some '#' then some ([], g.isBroken, p)
    else do
      let word ← plainWord flow p.rest
      let p := p.skip word.length
      let text := if word.isEmpty then [] else g.text ++ word
      if p.rest.head?.any isGap then
        let (g, p) ← gap? fuel indent p
        if !flow && p.column < indent then some (text, g.isBroken, p)
        else
          let (more, broken, p) ← plainFrom fuel flow indent g p
          some (text ++ more, broken, p)
      else some (text, word.isEmpty && g.isBroken, p)

/-! ## quoted scalars -/

/-- The character for one that follows a backslash. -/
def unescape? (c : Char) : Option Char :=
  if c = '0' then some '\x00'
  else if c = 'a' then some '\x07'
  else if c = 'b' then some '\x08'
  else if c = 't' || c = '\t' then some '\t'
  else if c = 'n' then some '\n'
  else if c = 'v' then some '\x0b'
  else if c = 'f' then some '\x0c'
  else if c = 'r' then some '\r'
  else if c = 'e' then some '\x1b'
  else if c = ' ' || c = '\x22' || c = '/' || c = '\\' then some c
  else if c = 'N' then some '\u0085'
  else if c = '_' then some '\u00a0'
  else if c = 'L' then some '\u2028'
  else if c = 'P' then some '\u2029'
  else none

/-- How many digits of a code point follow an escape. -/
def escapeWidth? (c : Char) : Option Nat :=
  if c = 'x' then some 2 else if c = 'u' then some 4 else if c = 'U' then some 8 else none

/-- The character of a code point. -/
def codePoint? (n : Nat) : Option Char :=
  if n.isValidChar then some (Char.ofNat n) else none

/-- An escape after its backslash: the character, and how many were read. -/
def escape? : List Char → Option (Char × Nat)
  | [] => none
  | c :: r =>
    match escapeWidth? c with
    | some w => do
      let ds := r.take w
      if ds.length ≠ w then none
      let n ← Text.digits? 16 ds
      let x ← codePoint? n
      some (x, w + 1)
    | none => (unescape? c).map fun x => (x, 1)

/-- How a word of a quoted scalar ends. -/
inductive WordEnd
  | quote
  | gap
  /-- a break that a backslash takes away -/
  | joined

/-- What may stand next in a word of a quoted scalar. -/
inductive WordItem
  | char (c : Char)
  | ends (ending : WordEnd)

def wordItem? (single : Bool) (p : Point) : Option (WordItem × Point) :=
  match p.rest with
  | [] => some (.ends .gap, p)
  | c :: r =>
    if isGap c then some (.ends .gap, p)
    else if single then
      if c = '\x27' then
        if r.head? = some '\x27' then some (.char c, p.skip 2) else some (.ends .quote, p.skip 1)
      else some (.char c, p.skip 1)
    else if c = '\x22' then some (.ends .quote, p.skip 1)
    else if c = '\\' then
      if r.head?.any isBreak then some (.ends .joined, (p.skip 1).passBreak.2)
      else (escape? r).map fun (x, n) => (.char x, p.skip (n + 1))
    else some (.char c, p.skip 1)

/-- The word of a quoted scalar that stands next, and what ends it. -/
def quotedWord (fuel : Nat) (single : Bool) (p : Point) : Option (List Char × WordEnd × Point) :=
  match fuel with
  | 0 => none
  | fuel + 1 => do
    match ← wordItem? single p with
    | (.char c, p) => do
      let (word, ending, p) ← quotedWord fuel single p
      some (c :: word, ending, p)
    | (.ends ending, p) => some ([], ending, p)

/-- What is left of a quoted scalar. -/
def quotedFrom (fuel : Nat) (single : Bool) (p : Point) : Option (List Char × Point) :=
  match fuel with
  | 0 => none
  | fuel + 1 =>
    if p.atMarker || p.rest.isEmpty then none
    else do
      let (word, ending, p) ← quotedWord (fuel + 1) single p
      match ending with
      | .quote => some (word, p)
      | .gap => do
        let (g, p) ← gap? fuel (-1) p
        let (more, p) ← quotedFrom fuel single p
        some (word ++ g.text ++ more, p)
      | .joined => do
        let (breaks, p) ← breaksFrom fuel (-1) p
        let (more, p) ← quotedFrom fuel single p
        some (word ++ breaks ++ more, p)

/-! ## block scalars -/

/-- What happens to the breaks at the end of a block scalar. -/
inductive Chomp
  | strip
  | clip
  | keep
deriving DecidableEq

/-- The digit by which a block scalar may give its indentation. -/
def indentDigit? (c : Char) : Option Nat :=
  match Text.digit? 10 c with
  | some (n + 1) => some (n + 1)
  | _ => none

/-- The signs after a block scalar's mark, in either order. -/
def blockHeader? (p : Point) : Option (Chomp × Option Nat × Point) :=
  let chomp (c : Char) : Chomp := if c = '+' then .keep else .strip
  let isChomp (c : Char) : Bool := c == '+' || c == '-'
  match p.rest with
  | c :: d :: _ =>
    if isChomp c then
      if Text.isDigit d then (indentDigit? d).map fun n => (chomp c, some n, p.skip 2)
      else some (chomp c, none, p.skip 1)
    else if Text.isDigit c then
      (indentDigit? c).map fun n =>
        if isChomp d then (chomp d, some n, p.skip 2) else (.clip, some n, p.skip 1)
    else some (.clip, none, p)
  | [c] =>
    if isChomp c then some (chomp c, none, p.skip 1)
    else if Text.isDigit c then (indentDigit? c).map fun n => (.clip, some n, p.skip 1)
    else some (.clip, none, p)
  | [] => some (.clip, none, p)

/-- Passes the empty lines of a block scalar, and gives their breaks.  While its indentation is not known
every blank is passed, and the widest line of blanks is kept. -/
def emptyLines (fuel : Nat) (indent : Option Nat) (widest : Nat) (p : Point) :
    Option (Nat × List Char × Point) :=
  match fuel with
  | 0 => none
  | fuel + 1 =>
    let blanks := (p.rest.takeWhile (· == ' ')).length
    let p := p.skip (match indent with
      | some n => min blanks (n - p.column)
      | none => blanks)
    let widest := max widest p.column
    let inside := match indent with
      | some n => p.column < n
      | none => true
    if inside && p.rest.head? = some '\t' then none
    else if p.rest.head?.any isBreak then do
      let (b, q) := p.passBreak
      let (widest, breaks, q) ← emptyLines fuel indent widest q
      some (widest, b ++ breaks, q)
    else some (widest, [], p)

/-- The lines of a block scalar that are left: `first` is the break after the line before and `more` are the
breaks of the empty lines after that.  Those at the end of the scalar come apart from its text. -/
def blockLines (fuel : Nat) (literal : Bool) (indent : Nat) (first more : List Char)
    (blankLine : Bool) (p : Point) : Option (List Char × List Char × List Char × Point) :=
  match fuel, p.rest with
  | fuel + 1, c :: _ =>
    if p.column ≠ indent then some ([], first, more, p)
    else do
      let blank := isBlank c
      let folds := !literal && first = ['\n'] && !blankLine && !blank
      let joint := if folds then (if more.isEmpty then [' '] else []) else first
      let line := p.rest.takeWhile fun c => !isBreak c
      let (b, q) := (p.skip line.length).passBreak
      let (_, breaks, q) ← emptyLines (fuel + 1) (some indent) 0 q
      let (text, lastBreak, last, q) ← blockLines fuel literal indent b breaks blank q
      some (joint ++ more ++ line ++ text, lastBreak, last, q)
  | _, _ => some ([], first, more, p)

/-- A block scalar after its mark, inside a collection at column `outer`. -/
def blockScalar? (literal : Bool) (outer : Int) (p : Point) : Option (List Char × Point) := do
  let (chomp, digit, p) ← blockHeader? p
  let p ← p.endLine?
  let given := digit.map fun n => if 0 ≤ outer then outer.toNat + n else n
  let (widest, more, p) ← emptyLines (p.rest.length + 1) given 0 p
  let indent := given.getD (max widest (max (outer + 1) 1).toNat)
  let (text, first, more, p) ← blockLines (p.rest.length + 1) literal indent [] more false p
  match chomp with
  | .strip => some (text, p)
  | .clip => some (text ++ first, p)
  | .keep => some (text ++ first ++ more, p)

/-! ## names, tags and directives -/

/-- The name of an anchor, or of a reference to one, after its mark. -/
def name? (p : Point) : Option (String × Point) :=
  let name := p.rest.takeWhile isWord
  let q := p.skip name.length
  let ends := match q.rest with
    | [] => true
    | c :: _ => isGap c || ['?', ':', ',', ']', '\x7d', '%', '@', '\x60'].contains c
  if !name.isEmpty && ends then some (.ofList name, q) else none

/-- The characters of tags besides the percent sign; `wide` allows those of flow collections too. -/
def isTagChar (wide : Bool) (c : Char) : Bool :=
  isWord c || [';', '/', '?', ':', '@', '&', '=', '+', '$', '.', '!', '~', '*', '\x27', '(', ')'].contains c
    || (wide && [',', '[', ']'].contains c)

/-- The bytes and characters of a tag, as bytes. -/
def tagBytes (wide : Bool) : List Char → Option (List UInt8 × Nat)
  | '%' :: a :: b :: rest => do
    let n ← Text.digits? 16 [a, b]
    let (bytes, used) ← tagBytes wide rest
    some (n.toUInt8 :: bytes, used + 3)
  | c :: rest =>
    if c = '%' then none
    else if isTagChar wide c then do
      let (bytes, used) ← tagBytes wide rest
      some ((String.singleton c).toUTF8.toList ++ bytes, used + 1)
    else some ([], 0)
  | [] => some ([], 0)

/-- The text of a tag, and how many characters it takes. -/
def tagText? (wide : Bool) (cs : List Char) : Option (String × Nat) := do
  let (bytes, used) ← tagBytes wide cs
  let text ← String.fromUTF8? bytes.toByteArray
  some (text, used)

/-- A handle: `!`, `!!`, or a word between two of them. -/
def handle? : List Char → Option (List Char × Nat)
  | '!' :: r =>
    let w := r.takeWhile isWord
    let closed := (r.drop w.length).head? == some '!'
    some ('!' :: w ++ (if closed then ['!'] else []), 1 + w.length + (if closed then 1 else 0))
  | _ => none

/-- A tag from its first mark on. -/
def tag? (flow : Bool) (p : Point) : Option (Token × Point) := do
  let (token, q) ←
    if p.rest[1]? = some '<' then do
      let (text, used) ← tagText? true (p.rest.drop 2)
      let q := p.skip (2 + used)
      if used = 0 || q.rest.head? ≠ some '>' then none
      else some (Token.tag "" text, q.skip 1)
    else do
      let (handle, n) ← handle? p.rest
      let (text, used) ← tagText? false (p.rest.drop n)
      let q := p.skip (n + used)
      if 1 < handle.length && handle.getLast? = some '!' then
        if used = 0 then none else some (.tag (.ofList handle) text, q)
      else
        let suffix := String.ofList (handle.drop 1) ++ text
        some (if suffix = "" then .tag "" "!" else .tag "!" suffix, q)
  if gapNext q.rest || (flow && q.rest.head? = some ',') then some (token, q) else none

/-- A version number has nine digits at most. -/
def versionNumber? (p : Point) : Option (Nat × Point) :=
  let ds := p.rest.takeWhile Text.isDigit
  if ds.length ≤ 9 then (Text.digits? 10 ds).map fun n => (n, p.skip ds.length) else none

def version? (p : Point) : Option (Token × Point) := do
  let (major, p) ← versionNumber? p.skipBlanks
  if p.rest.head? ≠ some '.' then none
  let (minor, p) ← versionNumber? (p.skip 1)
  some (.version major minor, p)

def tagHandle? (p : Point) : Option (Token × Point) := do
  let p := p.skipBlanks
  let (handle, n) ← handle? p.rest
  let p := p.skip n
  if handle.getLast? ≠ some '!' then none
  if !p.rest.head?.any isBlank then none
  let p := p.skipBlanks
  let (stem, used) ← tagText? true p.rest
  let p := p.skip used
  if used = 0 || !gapNext p.rest then none
  some (.tagHandle (.ofList handle) stem, p)

/-- A directive after its mark, with the end of its line. -/
def directive? (p : Point) : Option (Token × Point) := do
  let name := p.rest.takeWhile isWord
  let p := p.skip name.length
  if !gapNext p.rest then none
  let (token, p) ←
    if name = "YAML".toList then version? p
    else if name = "TAG".toList then tagHandle? p
    else none
  let p ← p.endLine?
  some (token, p)

end DeviceSettings.Yaml

import DeviceSettings.Text.Numeral

/-!
# Points in a YAML text

The characters that count as blanks, breaks and word characters, and a `Point`: what is left of a text
together with the line and column that it stands at.
-/

namespace DeviceSettings.Yaml

/-! ## characters -/

def isBlank (c : Char) : Bool := c == ' ' || c == '\t'

/-- The line and paragraph separators stay as they are where other breaks become line feeds. -/
def isSeparator (c : Char) : Bool := c == '\u2028' || c == '\u2029'

def isBreak (c : Char) : Bool := c == '\n' || c == '\r' || c == '\u0085' || isSeparator c

def isGap (c : Char) : Bool := isBlank c || isBreak c

/-- The characters of names. -/
def isWord (c : Char) : Bool :=
  Text.isDigit c || ('a' ≤ c && c ≤ 'z') || ('A' ≤ c && c ≤ 'Z') || c == '_' || c == '-'

/-- The mark that a text may begin with to show how it is encoded. -/
def byteOrderMark : Char := '\ufeff'

/-- The characters that a document may hold. -/
def isAllowed (c : Char) : Bool :=
  let n := c.toNat
  n == 9 || n == 10 || n == 13 || (0x20 ≤ n && n ≤ 0x7E) || n == 0x85 || (0xA0 ≤ n && n ≤ 0xFFFD)
    || 0x10000 ≤ n

/-- Do a gap or the end of the text come next? -/
def gapNext : List Char → Bool
  | [] => true
  | c :: _ => isGap c

/-- Do a break or the end of the text come next? -/
def breakNext : List Char → Bool
  | [] => true
  | c :: _ => isBreak c

/-- Does a line of a document's own marks begin here? -/
def isMarker (mark : Char) : List Char → Bool
  | a :: b :: c :: rest => a == mark && b == mark && c == mark && gapNext rest
  | _ => false

def startsDocument : List Char → Bool := isMarker '-'

def endsDocument : List Char → Bool := isMarker '.'

/-! ## points -/

structure Point where
  rest : List Char
  index : Nat
  line : Nat
  column : Nat

namespace Point

def start (cs : List Char) : Point := ⟨cs, 0, 0, 0⟩

/-- Passes characters of one line. -/
def skip (n : Nat) (p : Point) : Point :=
  { p with rest := p.rest.drop n, index := p.index + n, column := p.column + n }

/-- Passes a break, and gives what it counts as. -/
def passBreak (p : Point) : List Char × Point :=
  match p.rest with
  | '\r' :: '\n' :: r => (['\n'], ⟨r, p.index + 2, p.line + 1, 0⟩)
  | c :: r =>
    if isBreak c then ([if isSeparator c then c else '\n'], ⟨r, p.index + 1, p.line + 1, 0⟩)
    else ([], p)
  | [] => ([], p)

/-- Passes the characters of a class. -/
def skipWhile (ok : Char → Bool) (p : Point) : Point := p.skip (p.rest.takeWhile ok).length

def skipBlanks (p : Point) : Point := p.skipWhile isBlank

/-- Passes a comment, if one begins here. -/
def skipComment (p : Point) : Point :=
  if p.rest.head? = some '#' then p.skipWhile fun c => !isBreak c else p

/-- Passes the end of a line: blanks, a comment and the break. -/
def endLine? (p : Point) : Option Point :=
  let p := p.skipBlanks.skipComment
  if breakNext p.rest then some p.passBreak.2 else none

/-- Does a marker of the document stand at the start of this line? -/
def atMarker (p : Point) : Bool :=
  p.column == 0 && (startsDocument p.rest || endsDocument p.rest)

end Point

end DeviceSettings.Yaml

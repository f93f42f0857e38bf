import DeviceSettings.Json.Number

/-!
# The lexemes of JSON

Brackets, marks and scalars, cut from a text.  A string with half a surrogate pair and a number that is too
large are lexemes without a value: they may stand where nobody reads them.
-/

namespace DeviceSettings.Json

open Text (isDigit digits?)

inductive Scalar
  | null
  | boolean (b : Bool)
  | number (n : Option Number)
  | text (s : Option String)
deriving Inhabited, Repr

inductive Lexeme
  | openList
  | closeList
  | openObject
  | closeObject
  | comma
  | colon
  | scalar (s : Scalar)
deriving Repr

/-- The blanks between lexemes. -/
def isSpace (c : Char) : Bool := c == ' ' || c == '\n' || c == '\t' || c == '\r'

/-! ## strings -/

/-- A part of a string: a character, or an escaped unit of 16 bits. -/
inductive Piece
  | char (c : Char)
  | unit (n : Nat)

/-- The characters for one that follows a backslash. -/
def unescape? (c : Char) : Option Char :=
  if c = '\x22' || c = '\\' || c = '/' then some c
  else if c = 'b' then some '\x08'
  else if c = 'f' then some '\x0c'
  else if c = 'n' then some '\n'
  else if c = 'r' then some '\r'
  else if c = 't' then some '\t'
  else none

/-- The rest of a string after its opening quote, and what follows its closing one. -/
def stringBody : List Char → Option (List Piece × List Char)
  | [] => none
  | '\\' :: 'u' :: a :: b :: c :: d :: rest => do
    let n ← digits? 16 [a, b, c, d]
    let (ps, rest) ← stringBody rest
    some (.unit n :: ps, rest)
  | '\\' :: c :: rest => do
    let e ← unescape? c
    let (ps, rest) ← stringBody rest
    some (.char e :: ps, rest)
  | c :: rest =>
    if c = '\x22' then some ([], rest)
    else if c = '\\' || c.toNat < 32 then none
    else do
      let (ps, rest) ← stringBody rest
      some (.char c :: ps, rest)

def isHighUnit (n : Nat) : Bool := 0xD800 ≤ n && n < 0xDC00
def isLowUnit (n : Nat) : Bool := 0xDC00 ≤ n && n < 0xE000

/-- The characters of a string; a unit of a surrogate pair needs the other one. -/
def joinUnits : List Piece → Option (List Char)
  | [] => some []
  | .char c :: rest => (joinUnits rest).map (c :: ·)
  | .unit n :: .unit m :: rest =>
    if isHighUnit n then
      if isLowUnit m then
        (joinUnits rest).map (Char.ofNat (0x10000 + (n - 0xD800) * 0x400 + (m - 0xDC00)) :: ·)
      else none
    else if isLowUnit n then none
    else (joinUnits (.unit m :: rest)).map (Char.ofNat n :: ·)
  | .unit n :: rest =>
    if isHighUnit n || isLowUnit n then none else (joinUnits rest).map (Char.ofNat n :: ·)

/-! ## numbers -/

/-- At least one digit, and what follows. -/
def someDigits (cs : List Char) : Option (List Char × List Char) :=
  match cs.takeWhile isDigit with
  | [] => none
  | ds => some (ds, cs.dropWhile isDigit)

/-- Zero stands alone; all other whole parts begin with another digit. -/
def wholePart (cs : List Char) : Option (List Char × List Char) := do
  let (ds, rest) ← someDigits cs
  if ds.head? = some '0' && ds.length ≠ 1 then none else some (ds, rest)

def fractionPart : List Char → Option (List Char × List Char)
  | '.' :: rest => someDigits rest
  | cs => some ([], cs)

def exponentPart : List Char → Option (Option (Bool × List Char) × List Char)
  | c :: rest =>
    if c = 'e' || c = 'E' then
      match rest with
      | '-' :: rest => do
        let (ds, rest) ← someDigits rest
        some (some (true, ds), rest)
      | '+' :: rest => do
        let (ds, rest) ← someDigits rest
        some (some (false, ds), rest)
      | rest => do
        let (ds, rest) ← someDigits rest
        some (some (false, ds), rest)
    else some (none, c :: rest)
  | [] => some (none, [])

def number? (cs : List Char) : Option (Literal × List Char) := do
  let (negative, cs) := match cs with
    | '-' :: rest => (true, rest)
    | cs => (false, cs)
  let (whole, cs) ← wholePart cs
  let (fraction, cs) ← fractionPart cs
  let (exponent, cs) ← exponentPart cs
  some (⟨negative, whole, fraction, exponent⟩, cs)

/-! ## lexemes -/

def isStart (word : String) (cs : List Char) : Bool := word.toList.isPrefixOf cs

/-- The lexeme at the start of a text, and what follows it. -/
def lexeme? (cs : List Char) : Option (Lexeme × List Char) :=
  match cs with
  | [] => none
  | c :: rest =>
    if c = '[' then some (.openList, rest)
    else if c = ']' then some (.closeList, rest)
    else if c = '\x7b' then some (.openObject, rest)
    else if c = '\x7d' then some (.closeObject, rest)
    else if c = ',' then some (.comma, rest)
    else if c = ':' then some (.colon, rest)
    else if c = '\x22' then do
      let (ps, rest) ← stringBody rest
      some (.scalar (.text ((joinUnits ps).map .ofList)), rest)
    else if isStart "null" cs then some (.scalar .null, cs.drop 4)
    else if isStart "true" cs then some (.scalar (.boolean true), cs.drop 4)
    else if isStart "false" cs then some (.scalar (.boolean false), cs.drop 5)
    else do
      let (l, rest) ← number? cs
      some (.scalar (.number (Number.ofLiteral? l)), rest)

/-- The lexemes of a text up to the first that is none, and whether that is the end of the text.  Each
takes at least one character, so the length of the text is fuel enough. -/
def lexemesWithin : Nat → List Char → List Lexeme × Bool
  | 0, cs => ([], cs.all isSpace)
  | fuel + 1, cs =>
    match cs.dropWhile isSpace with
    | [] => ([], true)
    | cs =>
      match lexeme? cs with
      | none => ([], false)
      | some (x, rest) =>
        let (xs, ends) := lexemesWithin fuel rest
        (x :: xs, ends)

def lexemes (s : String) : List Lexeme × Bool := lexemesWithin s.length s.toList

end DeviceSettings.Json

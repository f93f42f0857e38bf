import DeviceSettings.Text.Numeral
import DeviceSettings.Yaml.Scalar

/-!
# Writing YAML

Values and their written form in block style: an entry to a line, two blanks to a level, and lists no deeper
than the map that holds them.  A text is written plain if it reads back as that text, else in quotes; a
text of several lines is a literal block.
-/

namespace DeviceSettings.Yaml

/-- What a document is written from. -/
inductive Value
  | boolean (b : Bool)
  | natural (n : Nat)
  | text (s : String)
  | list (items : List Value)
  | map (entries : List (String × Value))
deriving Repr

namespace Printer

/-! ## what a text holds -/

/-- Characters that are written as they are. -/
def isPrintable (c : Char) : Bool :=
  let n := c.toNat
  n == 0x0A || (0x20 ≤ n && n ≤ 0x7E) || (0xA0 ≤ n && n ≤ 0xFFFD && n != 0xFEFF) || 0x10000 ≤ n

/-- Characters that no plain scalar begins with. -/
def isMark (c : Char) : Bool :=
  ['#', ',', '[', ']', '\x7b', '\x7d', '&', '*', '!', '|', '>', '\x27', '\x22', '%', '@', '\x60'].contains c

/-- Nothing, a blank or a break. -/
def isEdge : Option Char → Bool
  | none => true
  | some c => isGap c || c == '\x00'

/-- Does a character, between its neighbours, stand for something else in a plain scalar? -/
def isIndicator (before : Option Char) (c : Char) (after : Option Char) : Bool :=
  match before with
  | none => isMark c || ((c == '?' || c == ':' || c == '-') && isEdge after)
  | some b => (c == ':' && isEdge after) || (c == '#' && isEdge (some b))

/-- Does some character pass a test that sees its neighbours? -/
def anyBetween (test : Option Char → Char → Option Char → Bool) (before : Option Char) :
    List Char → Bool
  | [] => false
  | c :: r => test before c r.head? || anyBetween test (some c) r

/-- Does the text look like the start or the end of a document? -/
def isMarkerLike (cs : List Char) : Bool := cs.take 3 == ['-', '-', '-'] || cs.take 3 == ['.', '.', '.']

def hasIndicators (cs : List Char) : Bool := isMarkerLike cs || anyBetween isIndicator none cs

def isEnd (test : Char → Bool) (cs : List Char) : Bool := cs.head?.any test || cs.getLast?.any test

/-- A blank right after a break. -/
def hasIndentedLine : List Char → Bool :=
  anyBetween (fun before c _ => c == ' ' && before.any isBreak) none

/-- A break right after a blank. -/
def hasTrailingBlank : List Char → Bool :=
  anyBetween (fun before c _ => isBreak c && before == some ' ') none

def isMultiline (cs : List Char) : Bool := cs.any isBreak

def mayBePlain (cs : List Char) : Bool :=
  cs.all isPrintable && !isMultiline cs && !isEnd (fun c => c == ' ') cs && !hasIndicators cs

def mayBeSingle (cs : List Char) : Bool :=
  cs.all isPrintable && !hasTrailingBlank cs && !hasIndentedLine cs

def mayBeLiteral (cs : List Char) : Bool :=
  cs.all isPrintable && !hasTrailingBlank cs && cs.getLast? != some ' ' && !cs.isEmpty

/-- Does the text read as something else when it stands plain? -/
def readsOtherwise (s : String) : Bool :=
  match resolve s with
  | .text _ => isZeroFilled s.toList
  | _ => true

/-- How a text is written. -/
def style (s : String) : Style :=
  let cs := s.toList
  if cs.contains '\n' then if mayBeLiteral cs then .literal else .doubleQuoted
  else if !readsOtherwise s && mayBePlain cs then .plain
  else if mayBeSingle cs then .singleQuoted
  else .doubleQuoted

/-! ## texts -/

/-- The character after a backslash for one that has a short escape. -/
def shortEscape? (c : Char) : Option Char :=
  if c = '\x00' then some '0'
  else if c = '\x07' then some 'a'
  else if c = '\x08' then some 'b'
  else if c = '\t' then some 't'
  else if c = '\n' then some 'n'
  else if c = '\x0b' then some 'v'
  else if c = '\x0c' then some 'f'
  else if c = '\r' then some 'r'
  else if c = '\x1b' then some 'e'
  else if c = '\x22' || c = '\\' then some c
  else if c = '\u0085' then some 'N'
  else if c = '\u00a0' then some '_'
  else if c = '\u2028' then some 'L'
  else if c = '\u2029' then some 'P'
  else none

/-- A character inside double quotes. -/
def doubleQuotedChar (c : Char) : List Char :=
  if isPrintable c && !isBreak c && c ≠ '\x22' && c ≠ '\\' then [c]
  else match shortEscape? c with
  | some e => ['\\', e]
  | none =>
    let n := c.toNat
    if n ≤ 0xFF then '\\' :: 'x' :: Text.hex true 2 n
    else if n ≤ 0xFFFF then '\\' :: 'u' :: Text.hex true 4 n
    else '\\' :: 'U' :: Text.hex true 8 n

def doubleQuoted (cs : List Char) : List Char := '\x22' :: cs.flatMap doubleQuotedChar ++ ['\x22']

def spaces (n : Nat) : List Char := List.replicate n ' '

/-- The characters inside single quotes; what follows a break is indented. -/
def singleQuotedFrom (indent : Nat) (broken : Bool) : List Char → List Char
  | [] => if broken then spaces indent else []
  | c :: r =>
    if isBreak c then c :: singleQuotedFrom indent true r
    else
      (if broken then spaces indent else []) ++ (if c = '\x27' then ['\x27', '\x27'] else [c])
        ++ singleQuotedFrom indent false r

def singleQuoted (indent : Nat) (cs : List Char) : List Char :=
  '\x27' :: singleQuotedFrom indent false cs ++ ['\x27']

/-- The lines of a literal block; empty ones are not indented. -/
def literalFrom (indent : Nat) (broken : Bool) : List Char → List Char
  | [] => []
  | c :: r =>
    if isBreak c then c :: literalFrom indent true r
    else (if broken then spaces indent else []) ++ c :: literalFrom indent false r

/-- The breaks at the end of a text: none, one, or more than that counts as content. -/
def chompMark (cs : List Char) : List Char :=
  match cs.reverse with
  | [] => ['-']
  | c :: r => if !isBreak c then ['-'] else if r.head?.all isBreak then ['+'] else []

/-- The step of indentation, which a block says where its first line would not show it. -/
def indentMark (cs : List Char) : List Char :=
  if cs.head?.any fun c => c == ' ' || isBreak c then ['2'] else []

/-- A literal block, up to the start of the line after it. -/
def literal (indent : Nat) (cs : List Char) : List Char :=
  '|' :: indentMark cs ++ chompMark cs ++ '\n' :: literalFrom indent true cs
    ++ (if cs.getLast?.any isBreak then [] else ['\n'])

/-- A text up to the start of the line after it. -/
def textLine (indent : Nat) (s : String) : List Char :=
  let cs := s.toList
  match style s with
  | .plain => cs ++ ['\n']
  | .singleQuoted => singleQuoted indent cs ++ ['\n']
  | .literal => literal indent cs
  | .doubleQuoted | .folded => doubleQuoted cs ++ ['\n']

/-! ## keys -/

/-- the longest key that stands before its colon, in bytes -/
def keyLength : Nat := 128

def isSimpleKey (s : String) : Bool := !isMultiline s.toList && s.utf8ByteSize ≤ keyLength

/-- A key on its own line. -/
def simpleKey (s : String) : List Char :=
  let cs := s.toList
  match style s with
  | .plain => cs
  | .singleQuoted => singleQuoted 0 cs
  | .literal | .doubleQuoted | .folded => doubleQuoted cs

/-! ## values -/

mutual

/-- A value after the colon of a simple key; `indent` is that of the map. -/
def afterKey (indent : Nat) : Value → List Char
  | .boolean b => ' ' :: (if b then "true" else "false").toList ++ ['\n']
  | .natural n => ' ' :: (toString n).toList ++ ['\n']
  | .text s => ' ' :: textLine (indent + 2) s
  | .list [] => " []\n".toList
  | .list items => '\n' :: itemLines indent true items
  | .map [] => [' ', '\x7b', '\x7d', '\n']
  | .map entries => '\n' :: entryLines (indent + 2) true entries

/-- A value after a mark on its line; a collection begins on that line. -/
def afterMark (indent : Nat) : Value → List Char
  | .boolean b => ' ' :: (if b then "true" else "false").toList ++ ['\n']
  | .natural n => ' ' :: (toString n).toList ++ ['\n']
  | .text s => ' ' :: textLine (indent + 2) s
  | .list [] => " []\n".toList
  | .list items => ' ' :: itemLines (indent + 2) false items
  | .map [] => [' ', '\x7b', '\x7d', '\n']
  | .map entries => ' ' :: entryLines (indent + 2) false entries

/-- The items of a list, each from its indentation on; the first may have been indented already. -/
def itemLines (indent : Nat) (indented : Bool) : List Value → List Char
  | [] => []
  | v :: rest =>
    (if indented then spaces indent else []) ++ '-' :: afterMark indent v
      ++ itemLines indent true rest

/-- The entries of a map, each from its indentation on; the first may have been indented already. -/
def entryLines (indent : Nat) (indented : Bool) : List (String × Value) → List Char
  | [] => []
  | (k, v) :: rest =>
    (if indented then spaces indent else []) ++
      (if isSimpleKey k then simpleKey k ++ ':' :: afterKey indent v
       else '?' :: ' ' :: textLine (indent + 2) k ++ spaces indent ++ ':' :: afterMark indent v)
      ++ entryLines indent true rest

end

end Printer

/-- The text of a document that is a map. -/
def Value.print (entries : List (String × Value)) : String :=
  if entries.isEmpty then "\x7b\x7d\n" else .ofList (Printer.entryLines 0 true entries)

end DeviceSettings.Yaml

import DeviceSettings.Yaml.Token

/-!
# Streams of tokens

A text cut into tokens.  Whether a scalar or a collection is a key shows only at the colon after it, so
the tokens from a possible key on are not `released` before that has been settled: a fault that comes
first keeps them back.
-/

namespace DeviceSettings.Yaml

/-- Where a key might have begun: after how many tokens, and where in the text.  In block style a key at
the indentation of its collection must turn out to be one. -/
structure PossibleKey where
  required : Bool
  number : Nat
  index : Nat
  line : Nat
  column : Nat

/-- a key fits on a line and in so many characters -/
def keyLength : Nat := 1024

def PossibleKey.isStale (k : PossibleKey) (p : Point) : Bool :=
  k.line < p.line || k.index + keyLength < p.index

/-- What has been read of a text: the tokens, latest first; the column of the innermost block collection and
those around it; the key that may have begun at this flow level and at those around it; whether a key may
begin here. -/
structure Stream where
  point : Point
  tokens : List Token
  count : Nat
  indent : Int
  indents : List Int
  key : Option PossibleKey
  keys : List (Option PossibleKey)
  keyAllowed : Bool

namespace Stream

def start (cs : List Char) : Stream := ⟨.start cs, [], 0, -1, [], none, [], true⟩

def isFlow (s : Stream) : Bool := !s.keys.isEmpty

def push (t : Token) (s : Stream) : Stream := { s with tokens := t :: s.tokens, count := s.count + 1 }

/-- Puts tokens, in order, after the first `n`. -/
def insertAt (n : Nat) (ts : List Token) (s : Stream) : Stream :=
  let k := s.count - n
  { s with
    tokens := s.tokens.take k ++ ts.reverse ++ s.tokens.drop k
    count := s.count + ts.length }

/-! ## keys -/

/-- Gives up a possible key, unless one is required there. -/
def settle (k : Option PossibleKey) : Option (Option PossibleKey) :=
  if k.any (·.required) then none else some none

/-- Gives up the keys that can no longer be any. -/
def dropStale (s : Stream) : Option Stream := do
  let check (k : Option PossibleKey) : Option (Option PossibleKey) :=
    if k.any fun k => k.isStale s.point then settle k else some k
  let keys ← s.keys.mapM check
  let key ← check s.key
  some { s with key, keys }

def dropKey (s : Stream) : Option Stream := (settle s.key).map fun key => { s with key }

/-- A key may begin with the next token. -/
def noteKey (s : Stream) : Option Stream :=
  if s.keyAllowed then do
    let s ← s.dropKey
    let p := s.point
    let required := !s.isFlow && s.indent == p.column
    some { s with key := some ⟨required, s.count, p.index, p.line, p.column⟩ }
  else some s

/-- The tokens that no possible key keeps back. -/
def released (s : Stream) : Nat :=
  (s.key :: s.keys).foldl (fun n k => match k with | some k => min n k.number | none => n) s.count

/-! ## indentation -/

/-- Begins a block collection at a column if it stands right of the one around it. -/
def deepen (column : Nat) (s : Stream) : Bool × Stream :=
  if !s.isFlow && s.indent < column then
    (true, { s with indents := s.indent :: s.indents, indent := column })
  else (false, s)

/-- Ends the block collections that stand right of a column. -/
def outdent (column : Int) (s : Stream) : Stream :=
  if s.isFlow then s else go s.indents s
where
  go : List Int → Stream → Stream
    | [], s => s
    | outer :: rest, s =>
      if column < s.indent then go rest { s.push .blockEnd with indent := outer, indents := rest } else s

/-! ## between tokens -/

/-- Passes blanks, breaks and comments.  A tab is a blank only where no key may begin. -/
def toNext (fuel : Nat) (s : Stream) : Stream :=
  match fuel with
  | 0 => s
  | fuel + 1 =>
    let p := s.point
    let p := if p.column = 0 && p.rest.head? = some byteOrderMark then p.skip 1 else p
    let p := p.skipWhile fun c => c == ' ' || ((s.isFlow || !s.keyAllowed) && c == '\t')
    let p := p.skipComment
    match p.rest with
    | c :: _ =>
      if isBreak c then
        toNext fuel { s with point := p.passBreak.2, keyAllowed := s.keyAllowed || !s.isFlow }
      else { s with point := p }
    | [] => { s with point := p }

/-! ## one token -/

/-- A token of `n` characters. -/
def take (n : Nat) (t : Token) (s : Stream) : Stream := ({ s with point := s.point.skip n }).push t

/-- A token that was read up to a point. -/
def took (t : Token) (p : Point) (s : Stream) : Stream := ({ s with point := p }).push t

def openFlow (t : Token) (s : Stream) : Option Stream := do
  let s ← s.noteKey
  some (({ s with keys := s.key :: s.keys, key := none, keyAllowed := true }).take 1 t)

def closeFlow (t : Token) (s : Stream) : Option Stream := do
  let s ← s.dropKey
  let s := match s.keys with
    | k :: keys => { s with key := k, keys }
    | [] => s
  some (({ s with keyAllowed := false }).take 1 t)

def flowEntry (s : Stream) : Option Stream := do
  let s ← s.dropKey
  some (({ s with keyAllowed := true }).take 1 .flowEntry)

/-- Begins a block collection before a token in block style, where a key may begin. -/
def openBlock (t : Token) (s : Stream) : Option Stream :=
  if s.isFlow then some s
  else if !s.keyAllowed then none
  else
    let (deeper, s) := s.deepen s.point.column
    some (if deeper then s.push t else s)

def blockEntry (s : Stream) : Option Stream := do
  let s ← s.openBlock .blockSequence
  let s ← s.dropKey
  some (({ s with keyAllowed := true }).take 1 .blockEntry)

def explicitKey (s : Stream) : Option Stream := do
  let s ← s.openBlock .blockMapping
  let s ← s.dropKey
  some (({ s with keyAllowed := !s.isFlow }).take 1 .key)

def value (s : Stream) : Option Stream :=
  match s.key with
  | some k =>
    let (deeper, s) := s.deepen k.column
    let s := s.insertAt k.number ((if deeper then [.blockMapping] else []) ++ [.key])
    some (({ s with key := none, keyAllowed := false }).take 1 .value)
  | none => do
    let s ← s.openBlock .blockMapping
    some (({ s with keyAllowed := !s.isFlow }).take 1 .value)

/-- A token before which a key may begin and after which none may. -/
def node (read : Point → Option (Token × Point)) (s : Stream) : Option Stream := do
  let s ← s.noteKey
  let (t, p) ← read s.point
  some (({ s with keyAllowed := false }).took t p)

def quoted (single : Bool) (p : Point) : Option (Token × Point) := do
  let (text, q) ← quotedFrom (p.rest.length + 1) single (p.skip 1)
  some (.scalar (.ofList text) (if single then .singleQuoted else .doubleQuoted), q)

def named (t : String → Token) (p : Point) : Option (Token × Point) := do
  let (name, q) ← name? (p.skip 1)
  some (t name, q)

def blockScalar (literal : Bool) (s : Stream) : Option Stream := do
  let s ← s.dropKey
  let (text, p) ← blockScalar? literal s.indent (s.point.skip 1)
  some (({ s with keyAllowed := true }).took
    (.scalar (.ofList text) (if literal then .literal else .folded)) p)

def plain (s : Stream) : Option Stream := do
  let s ← s.noteKey
  let (text, broken, p) ←
    plainFrom (s.point.rest.length + 1) s.isFlow (s.indent + 1) .none s.point
  some (({ s with keyAllowed := broken }).took (.scalar (.ofList text) .plain) p)

/-- Ends all block collections. -/
def atMargin (s : Stream) : Option Stream := do
  let s ← (s.outdent (-1)).dropKey
  some { s with keyAllowed := false }

def directive (s : Stream) : Option Stream := do
  let s ← s.atMargin
  let (t, p) ← directive? (s.point.skip 1)
  some (s.took t p)

def marker (t : Token) (s : Stream) : Option Stream := do
  let s ← s.atMargin
  some (s.take 3 t)

/-- The characters that begin no plain scalar. -/
def indicators : List Char :=
  ['-', '?', ':', ',', '[', ']', '\x7b', '\x7d', '#', '&', '*', '!', '|', '>', '\x27', '\x22', '%', '@',
   '\x60']

/-- May a plain scalar begin with these characters? -/
def startsPlain (flow : Bool) : List Char → Bool
  | [] => false
  | c :: r =>
    !(isGap c || indicators.contains c) || (c == '-' && !r.head?.any isBlank)
      || (!flow && (c == '?' || c == ':') && !gapNext r)

/-- Reads the token that begins here. -/
def token (s : Stream) : Option Stream :=
  let flow := s.isFlow
  let atStart := s.point.column == 0
  match s.point.rest with
  | [] => none
  | c :: r =>
    if atStart && c = '%' then s.directive
    else if atStart && startsDocument (c :: r) then s.marker .documentStart
    else if atStart && endsDocument (c :: r) then s.marker .documentEnd
    else if c = '[' then s.openFlow .flowSequence
    else if c = '\x7b' then s.openFlow .flowMapping
    else if c = ']' then s.closeFlow .flowSequenceEnd
    else if c = '\x7d' then s.closeFlow .flowMappingEnd
    else if c = ',' then s.flowEntry
    else if c = '-' && gapNext r then s.blockEntry
    else if c = '?' && (flow || gapNext r) then s.explicitKey
    else if c = ':' && (flow || gapNext r) then s.value
    else if c = '*' then s.node (named .reference)
    else if c = '&' then s.node (named .anchor)
    else if c = '!' then s.node (tag? flow)
    else if c = '|' && !flow then s.blockScalar true
    else if c = '>' && !flow then s.blockScalar false
    else if c = '\x27' then s.node (quoted true)
    else if c = '\x22' then s.node (quoted false)
    else if startsPlain flow (c :: r) then s.plain
    else none

/-- The end of the text stands on a line of its own. -/
def finish (s : Stream) : Option Stream :=
  let p := s.point
  let p := if p.column = 0 then p else { p with line := p.line + 1, column := 0 }
  (atMargin { s with point := p }).map (·.push .streamEnd)

/-! ## all tokens -/

/-- The tokens of the rest of a text, with `streamEnd` as the last one if it is read to its end.  `out` is how
many tokens had been released before.  Each token takes a character at least, so the length of the text is
fuel enough. -/
def readWithin (fuel : Nat) (out : Nat) (s : Stream) : List Token :=
  let upTo (n : Nat) (s : Stream) : List Token := (s.tokens.drop (s.count - n)).reverse
  match fuel with
  | 0 => upTo out s
  | fuel + 1 =>
    let next : Option (Stream × Bool) := do
      let s ← (s.toNext (s.point.rest.length + 1)).dropStale
      let s := s.outdent s.point.column
      let ended := s.point.rest.isEmpty
      let s ← if ended then s.finish else s.token
      some (← s.dropStale, ended)
    match next with
    | none => upTo out s
    | some (s', true) => s'.tokens.reverse
    | some (s', false) => readWithin fuel s'.released s'

end Stream

/-- The tokens of a text up to its first fault; the last token is `streamEnd` if there is none. -/
def tokens (cs : List Char) : List Token :=
  if cs.all isAllowed then Stream.readWithin (cs.length + 2) 0 (.start cs) else []

end DeviceSettings.Yaml

import DeviceSettings.Yaml.Scalar
import DeviceSettings.Yaml.Token.Stream

/-!
# YAML as documents

Tokens in the order of the grammar are the events of a document.  The grammar is a machine with a stack: at
each `Place` it takes some tokens, gives an event, and goes to the next place.  Nodes that the text leaves out
are empty plain scalars.
-/

namespace DeviceSettings.Yaml

open Document

namespace Grammar

/-- Where in the grammar the next event is due. -/
inductive Place
  | node
  | blockItem
  /-- an item of a list that is not indented below its key -/
  | flushItem
  | blockKey
  | blockValue
  | flowItem (first : Bool)
  | pairKey
  | pairValue
  | pairEnd
  | flowKey (first : Bool)
  | flowValue
  | lostFlowValue
deriving Repr, DecidableEq

/-- Tokens to come, the place of the next event and the places after the open ones end; the handles of tags,
and the names of the anchors with what they mark. -/
structure Machine where
  tokens : List Token
  places : List Place
  handles : List (String × String)
  names : List (String × Nat)

/-- The events of one step, if the tokens are in order. -/
abbrev Step := Option (Event Scalar × Machine)

def blank (tag : Option String) : Scalar := ⟨"", .plain, tag⟩

namespace Machine

def next (m : Machine) : Option Token := m.tokens.head?

def drop (m : Machine) : Machine := { m with tokens := m.tokens.tail }

def goes (ps : List Place) (m : Machine) : Machine := { m with places := ps }

/-- An empty node, and then what follows. -/
def empty (ps : List Place) (m : Machine) : Step := some (.scalar (blank none) none, m.goes ps)

/-! ## nodes -/

/-- What stands before a node. -/
structure Properties where
  anchor : Option String
  tag : Option (String × String)

def properties (m : Machine) : Properties × Machine :=
  match m.tokens with
  | .anchor n :: .tag h s :: r => (⟨some n, some (h, s)⟩, { m with tokens := r })
  | .tag h s :: .anchor n :: r => (⟨some n, some (h, s)⟩, { m with tokens := r })
  | .anchor n :: r => (⟨some n, none⟩, { m with tokens := r })
  | .tag h s :: r => (⟨none, some (h, s)⟩, { m with tokens := r })
  | _ => (⟨none, none⟩, m)

/-- A tag in full. -/
def fullTag (m : Machine) : Option (String × String) → Option (Option String)
  | none => some none
  | some (handle, suffix) =>
    if handle = "" then some (some suffix)
    else (m.handles.lookup handle).map fun stem => some (stem ++ suffix)

/-- Gives a name to the node that begins here. -/
def mark (anchor : Option String) (m : Machine) : Option Nat × Machine :=
  match anchor with
  | none => (none, m)
  | some name =>
    let id := m.names.length
    (some id, { m with names := (name, id) :: m.names.filter (·.1 != name) })

/-- A node, and then what follows.  `block` admits block collections, and `flush` those that are not
indented. -/
def node (block flush : Bool) (ps : List Place) (m : Machine) : Step :=
  match m.tokens with
  | .reference name :: r =>
    (m.names.lookup name).map fun id => (.reference id, { m with tokens := r, places := ps })
  | _ => do
    let (props, m) := m.properties
    let tag ← m.fullTag props.tag
    let own := tag.any isOwnTag
    let bare := props.anchor.isNone && tag.isNone
    let (id, named) := m.mark props.anchor
    match ← m.next with
    | .blockEntry =>
      if flush then some (.openList own id, named.goes (.flushItem :: ps))
      else if bare then none
      else some (.scalar (blank tag) id, named.goes ps)
    | .scalar text style => some (.scalar ⟨text, style, tag.filter (· != "!")⟩ id, named.drop.goes ps)
    | .flowSequence => some (.openList own id, named.drop.goes (.flowItem true :: ps))
    | .flowMapping => some (.openMap own id, named.drop.goes (.flowKey true :: ps))
    | t =>
      if block && t = .blockSequence then some (.openList own id, named.drop.goes (.blockItem :: ps))
      else if block && t = .blockMapping then some (.openMap own id, named.drop.goes (.blockKey :: ps))
      else if bare then none
      else some (.scalar (blank tag) id, named.goes ps)

/-! ## places -/

/-- A node unless one of some tokens comes, which leaves it out. -/
def nodeUnless (stop : List Token) (block flush : Bool) (ps : List Place) (m : Machine) : Step :=
  m.next.bind fun t => if stop.contains t then m.empty ps else m.node block flush ps

def ofBlockItem (ps : List Place) (m : Machine) : Step :=
  match m.next with
  | some .blockEntry => m.drop.nodeUnless [.blockEntry, .blockEnd] true false (.blockItem :: ps)
  | some .blockEnd => some (.close, m.drop.goes ps)
  | _ => none

def ofFlushItem (ps : List Place) (m : Machine) : Step :=
  match m.next with
  | some .blockEntry =>
    m.drop.nodeUnless [.blockEntry, .key, .value, .blockEnd] true false (.flushItem :: ps)
  | some _ => some (.close, m.goes ps)
  | none => none

def ofBlockKey (ps : List Place) (m : Machine) : Step :=
  match m.next with
  | some .key => m.drop.nodeUnless [.key, .value, .blockEnd] true true (.blockValue :: ps)
  | some .blockEnd => some (.close, m.drop.goes ps)
  | _ => none

def ofBlockValue (ps : List Place) (m : Machine) : Step :=
  match m.next with
  | some .value => m.drop.nodeUnless [.key, .value, .blockEnd] true true (.blockKey :: ps)
  | some _ => m.empty (.blockKey :: ps)
  | none => none

/-- A comma stands between entries of a flow collection; one may stand at its end. -/
def entry (first : Bool) (m : Machine) : Option Machine :=
  if first then some m
  else match m.next with
  | some .flowEntry => some m.drop
  | _ => none

def ofFlowItem (first : Bool) (ps : List Place) (m : Machine) : Step :=
  if m.next = some .flowSequenceEnd then some (.close, m.drop.goes ps)
  else do
    let m ← m.entry first
    match ← m.next with
    | .key => some (.openMap false none, m.drop.goes (.pairKey :: ps))
    | .flowSequenceEnd => some (.close, m.drop.goes ps)
    | _ => m.node false false (.flowItem false :: ps)

/-- A pair inside a flow list: `[key: value]`.  The token that leaves its key out is passed over. -/
def ofPairKey (ps : List Place) (m : Machine) : Step := do
  let t ← m.next
  if [Token.value, .flowEntry, .flowSequenceEnd].contains t then m.drop.empty (.pairValue :: ps)
  else m.node false false (.pairValue :: ps)

def ofPairValue (ps : List Place) (m : Machine) : Step :=
  match m.next with
  | some .value => m.drop.nodeUnless [.flowEntry, .flowSequenceEnd] false false (.pairEnd :: ps)
  | some _ => m.empty (.pairEnd :: ps)
  | none => none

def ofFlowKey (first : Bool) (ps : List Place) (m : Machine) : Step :=
  if m.next = some .flowMappingEnd then some (.close, m.drop.goes ps)
  else do
    let m ← m.entry first
    match ← m.next with
    | .key =>
      m.drop.nodeUnless [.value, .flowEntry, .flowMappingEnd] false false (.flowValue :: ps)
    | .flowMappingEnd => some (.close, m.drop.goes ps)
    | _ => m.node false false (.lostFlowValue :: ps)

def ofFlowValue (ps : List Place) (m : Machine) : Step :=
  match m.next with
  | some .value => m.drop.nodeUnless [.flowEntry, .flowMappingEnd] false false (.flowKey false :: ps)
  | some _ => m.empty (.flowKey false :: ps)
  | none => none

def step (m : Machine) : Step :=
  match m.places with
  | [] => none
  | p :: ps =>
    match p with
    | .node => m.node true false ps
    | .blockItem => m.ofBlockItem ps
    | .flushItem => m.ofFlushItem ps
    | .blockKey => m.ofBlockKey ps
    | .blockValue => m.ofBlockValue ps
    | .flowItem first => m.ofFlowItem first ps
    | .pairKey => m.ofPairKey ps
    | .pairValue => m.ofPairValue ps
    | .pairEnd => m.next.map fun _ => (.close, m.goes (.flowItem false :: ps))
    | .flowKey first => m.ofFlowKey first ps
    | .flowValue => m.ofFlowValue ps
    | .lostFlowValue => m.next.bind fun _ => m.empty (.flowKey false :: ps)

/-- All events of a document up to the first fault, and the machine after its end.  There are at most four
events to a token. -/
def run (fuel : Nat) (m : Machine) : List (Event Scalar) × Option Machine :=
  match fuel with
  | 0 => ([], none)
  | fuel + 1 =>
    if m.places.isEmpty then ([], some m)
    else match m.step with
    | none => ([], none)
    | some (e, m) =>
      let (es, after) := run fuel m
      (e :: es, after)

end Machine

/-! ## documents -/

def standardHandles : List (String × String) := [("!", "!"), ("!!", "tag:yaml.org,2002:")]

/-- Takes the directives before a document: at most one version, and a handle only once. -/
def directives (handles : List (String × String)) (versioned : Bool) :
    List Token → Option (List (String × String) × List Token)
  | .version major minor :: r =>
    if versioned || major ≠ 1 || (minor ≠ 1 && minor ≠ 2) then none else directives handles true r
  | .tagHandle h stem :: r =>
    if (handles.lookup h).isSome then none else directives ((h, stem) :: handles) versioned r
  | r => some (handles, r)

/-- The start of the first document: its handles and tokens, and whether a mark stood before it. -/
def begin (ts : List Token) : Option (List (String × String) × List Token × Bool) :=
  match ts with
  | .version .. :: _ | .tagHandle .. :: _ | .documentStart :: _ => do
    let (handles, r) ← directives [] false ts
    match r with
    | .documentStart :: r =>
      let standard := standardHandles.filter fun h => (handles.lookup h.1).isNone
      some (handles ++ standard, r, true)
    | _ => none
  | ts => some (standardHandles, ts, false)

/-- Has a marked document no content? -/
def isVacant : List Token → Bool
  | .version .. :: _ | .tagHandle .. :: _ | .documentStart :: _ | .documentEnd :: _
  | .streamEnd :: _ => true
  | _ => false

/-- Does nothing but the end of the text follow a document?  The last token of a text that was not read to
its end is another one. -/
def endsStream (ts : List Token) : Bool :=
  ts.dropWhile (· == .documentEnd) == [.streamEnd]

end Grammar

open Grammar in
/-- The document of a text, its first if there are several. -/
def source (text : String) : Source Scalar :=
  let ts := tokens text.toList
  if ts == [.streamEnd] then .ofEvents [.scalar (blank none) none] true
  else match begin ts with
  | none => .ofEvents [] false
  | some (handles, rest, marked) =>
    if marked && isVacant rest then .ofEvents [.scalar (blank none) none] (endsStream rest)
    else
      let m : Machine := ⟨rest, [.node], handles, []⟩
      let (events, after) := m.run (4 * rest.length + 8)
      .ofEvents events (match after with
        | some m => endsStream m.tokens
        | none => false)

/-- Reads a YAML text. -/
def read {α : Type} (r : Reader Scalar α) (text : String) : Except Problem α :=
  (source text).read dialect r

end DeviceSettings.Yaml

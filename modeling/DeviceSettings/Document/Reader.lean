import DeviceSettings.Document
import DeviceSettings.Document.Problem
import DeviceSettings.Table

/-!
# Reading documents

What a program expects of a document is a `Reader`.  Readers go through a document in its own order, so
of two things wrong with it the earlier one is reported.  What scalars mean is the format's: a `Dialect`.

* `record`   fields by name, or in order as a list;
* `table`, `list`, `optional`, `text`, `boolean`, `natural`   the other shapes;
* `content`  any node, kept as it is, for forms that are told apart only afterwards.
-/

namespace DeviceSettings.Document

/-- What the scalars of a format mean. -/
structure Dialect (σ : Type) where
  /-- how many containers may stand inside one another -/
  levels : Nat
  /-- do problems say where they are? -/
  located : Bool
  /-- must the keys of a map be text? -/
  textKeys : Bool
  text? : σ → Except Mismatch (Option String)
  boolean? : σ → Option Bool
  integer? : σ → Except Mismatch (Option Int)
  /-- does the scalar stand for an absent value? -/
  isNull : σ → Except Mismatch Bool
  /-- may the scalar stand for a container that holds nothing? -/
  isEmpty : σ → Bool
  /-- what the scalar is, for a reader that expected something else -/
  found : σ → Except Mismatch Found
  /-- what the scalar is, for a reader that takes anything -/
  any : σ → Except Mismatch Found
  /-- a record of `fields` fields given as a list of `total` items -/
  surplus : (fields total : Nat) → Mismatch

/-- Where a reader stands. -/
structure Cursor (σ : Type) where
  dialect : Dialect σ
  marked : List (Nat × DataTree σ)
  path : NodePath
  levels : Nat

/-- Reading may fail; it counts the references that may still be followed. -/
abbrev Read := StateT Nat (Except Problem)

abbrev Reader (σ α : Type) := Cursor σ → DataTree σ → Read α

variable {σ α ρ : Type}

def fail (m : Mismatch) : Read α := throw ⟨none, m⟩

def lift (r : Except Mismatch α) : Read α :=
  match r with
  | .ok a => pure a
  | .error m => fail m

namespace Cursor

/-- Problems without a place get this one. -/
def locate (c : Cursor σ) (r : Read α) : Read α := fun n =>
  match r n with
  | .ok a => .ok a
  | .error p => .error (if c.dialect.located && p.path.isNone then { p with path := some c.path } else p)

def follow (c : Cursor σ) : DataTree σ → Read (DataTree σ)
  | .reference m => do
    let left ← get
    if left = 0 then fail .malformed
    set (left - 1)
    match c.marked.lookup m with
    | some t => pure t
    | none => fail .malformed
  | t => pure t

def child (c : Cursor σ) (step : PathStep) : Cursor σ := { c with path := step :: c.path }

/-- Goes into a container. -/
def enter (c : Cursor σ) : Read (Cursor σ) :=
  match c.levels with
  | 0 => fail .malformed
  | n + 1 => pure { c with levels := n }

/-- What a node is, for a reader that expected something else. -/
def mismatch (c : Cursor σ) (expected : String) : DataTree σ → Mismatch
  | .scalar s =>
    match c.dialect.found s with
    | .ok f => .wrongType f expected
    | .error m => m
  | .list .. => .wrongType .sequence expected
  | .map .. => .wrongType .map expected
  | .reference _ | .cut => .malformed

/-- Passes over a node. -/
def skip (t : DataTree σ) : Read Unit := if t.isWhole then pure () else fail .malformed

/-- The step to the value of a key. -/
def keyStep (c : Cursor σ) : DataTree σ → PathStep
  | .scalar s =>
    match c.dialect.text? s with
    | .ok (some name) => .key name
    | _ => .unknown
  | _ => .unknown

end Cursor

open Cursor (skip)

/-! ## scalars -/

/-- A text; `what` is how its absence is worded. -/
def textOf (what : String) : Reader σ String := fun c t => c.locate do
  let t ← c.follow t
  match t with
  | .scalar s =>
    match ← lift (c.dialect.text? s) with
    | some text => pure text
    | none => fail (c.mismatch what t)
  | _ => fail (c.mismatch what t)

def text : Reader σ String := textOf "a string"

def boolean : Reader σ Bool := fun c t => c.locate do
  let t ← c.follow t
  match t with
  | .scalar s =>
    match c.dialect.boolean? s with
    | some b => pure b
    | none => fail (c.mismatch "a boolean" t)
  | _ => fail (c.mismatch "a boolean" t)

/-- A natural number below a bound; `what` is how its absence is worded. -/
def natural (what : String) (bound : Nat) : Reader σ Nat := fun c t => c.locate do
  let t ← c.follow t
  match t with
  | .scalar s =>
    match ← lift (c.dialect.integer? s) with
    | some n =>
      if 0 ≤ n && n < bound then pure n.toNat else fail (.wrongValue (.integer n) what)
    | none => fail (c.mismatch what t)
  | _ => fail (c.mismatch what t)

/-- A value, or what stands for its absence. -/
def optional (r : Reader σ α) : Reader σ (Option α) := fun c t => do
  let t ← c.follow t
  match t with
  | .scalar s => if ← lift (c.dialect.isNull s) then pure none else some <$> r c t
  | .cut => fail .malformed
  | t => some <$> r c t

/-! ## containers -/

/-- The key of an entry, as a text. -/
def key (what : String) : Reader σ String := fun c t =>
  if c.dialect.textKeys then
    match t with
    | .scalar s =>
      match c.dialect.text? s with
      | .ok (some name) => pure name
      | _ => fail .malformed
    | _ => fail .malformed
  else textOf what c t

def list (r : Reader σ α) : Reader σ (List α) := fun c t => c.locate do
  let t ← c.follow t
  match t with
  | .list _ items whole => do
    let inner ← c.enter
    let values ← (items.zipIdx).mapM fun (item, i) => r (inner.child (.index i)) item
    if whole then pure values else fail .malformed
  | .scalar s => if c.dialect.isEmpty s then pure [] else fail (c.mismatch "a sequence" t)
  | _ => fail (c.mismatch "a sequence" t)

/-- A map with text keys; a later entry wins over an earlier one with its key. -/
def table (r : Reader σ α) : Reader σ (Table String α) := fun c t => c.locate do
  let t ← c.follow t
  match t with
  | .map _ entries whole => do
    let inner ← c.enter
    let values ← entries.foldlM (fun (acc : Table String α) (k, v) => do
      let name ← key "a string" inner k
      let value ← r (inner.child (c.keyStep k)) v
      pure (acc.insert name value)) Table.empty
    if whole then pure values else fail .malformed
  | .scalar s => if c.dialect.isEmpty s then pure .empty else fail (c.mismatch "a map" t)
  | _ => fail (c.mismatch "a map" t)

/-! ## records -/

/-- A field of a record `ρ`: how it is read into a record that holds defaults. -/
structure Field (σ ρ : Type) where
  name : String
  /-- must the field be there when the record is a map? -/
  required : Bool
  /-- must the field be there when the record is a list? -/
  positional : Bool
  read : ρ → Reader σ ρ

namespace Field

/-- A field that must be there. -/
def needed (name : String) (r : Reader σ α) (set : ρ → α → ρ) : Field σ ρ :=
  ⟨name, true, true, fun draft c t => set draft <$> r c t⟩

/-- A field that keeps its default where it is not there. -/
def defaulted (name : String) (r : Reader σ α) (set : ρ → α → ρ) : Field σ ρ :=
  ⟨name, false, false, fun draft c t => set draft <$> r c t⟩

/-- A field that may be left out of a map only. -/
def nullable (name : String) (r : Reader σ α) (set : ρ → Option α → ρ) : Field σ ρ :=
  ⟨name, false, true, fun draft c t => set draft <$> optional r c t⟩

end Field

/-- A count of elements in words: `1 element`, `2 elements`. -/
def elements (n : Nat) : String := toString n ++ (if n = 1 then " element" else " elements")

/-- One entry of a record in map form; `seen` are the fields read so far. -/
def recordEntry (fields : List (Field σ ρ)) (c : Cursor σ) (draft : ρ) (seen : List String)
    (k v : DataTree σ) : Read (ρ × List String) := do
  let name ← key "field identifier" c k
  match fields.find? (·.name == name) with
  | some f =>
    if seen.contains name then fail (.duplicateField name)
    let draft ← f.read draft (c.child (c.keyStep k)) v
    pure (draft, name :: seen)
  | none =>
    skip v
    pure (draft, seen)

/-- The fields that a list gives, in order from the `i`-th on. -/
def recordItems (what : String) (c : Cursor σ) (whole : Bool) (i : Nat) (draft : ρ) :
    List (Field σ ρ) → List (DataTree σ) → Read ρ
  | [], rest =>
    if !whole then fail .malformed
    else if rest.isEmpty then pure draft
    else fail (c.dialect.surplus i (i + rest.length))
  | f :: fields, item :: rest => do
    let draft ← f.read draft (c.child (.index i)) item
    recordItems what c whole (i + 1) draft fields rest
  | f :: fields, [] =>
    if !whole then fail .malformed
    else if f.positional then fail (.wrongLength i what)
    else recordItems what c whole (i + 1) draft fields []

/-- A record: a map of its fields, or a list of them in order.  `draft` holds the defaults. -/
def record (name : String) (fields : List (Field σ ρ)) (draft : ρ) : Reader σ ρ := fun c t =>
  c.locate do
    let t ← c.follow t
    let complete (seen : List String) (draft : ρ) : Read ρ :=
      match fields.find? fun f => f.required && !seen.contains f.name with
      | some f => fail (.missingField f.name)
      | none => pure draft
    match t with
    | .map _ entries whole => do
      let inner ← c.enter
      let (draft, seen) ← entries.foldlM
        (fun (draft, seen) (k, v) => recordEntry fields inner draft seen k v) (draft, [])
      if whole then complete seen draft else fail .malformed
    | .list _ items whole => do
      let inner ← c.enter
      recordItems ("struct " ++ name ++ " with " ++ elements fields.length) inner whole 0 draft
        fields items
    | .scalar s =>
      if c.dialect.isEmpty s then complete [] draft else fail (c.mismatch ("struct " ++ name) t)
    | _ => fail (c.mismatch ("struct " ++ name) t)

/-! ## nodes of any kind -/

/-- A node kept as it is. -/
inductive Content
  | scalar (f : Found)
  | list (items : List Content)
  | map (entries : List (Content × Content))

def Content.found : Content → Found
  | scalar f => f
  | list _ => .sequence
  | map _ => .map

/-- A scalar that a reader of anything takes; a tag of the document's own is no content. -/
def anyScalar (c : Cursor σ) (s : σ) : Read Found := do
  match ← lift (c.dialect.any s) with
  | .enumeration => fail .malformed
  | .wideInteger n => fail (.wrongType (.wideInteger n) "any value")
  | f => pure f

/-- A node whose containers are read by `deeper`, if they may be entered at all. -/
def contentWith (deeper : Option (Reader σ Content)) : Reader σ Content := fun c t => c.locate do
  let t ← c.follow t
  match t, deeper with
  | .scalar s, _ => Content.scalar <$> anyScalar c s
  | .list false items whole, some read => do
    let values ← (items.zipIdx).mapM fun (item, i) => read (c.child (.index i)) item
    if whole then pure (.list values) else fail .malformed
  | .map false entries whole, some read => do
    let values ← entries.mapM fun (k, v) => do
      let key ← read c k
      let value ← read (c.child (c.keyStep k)) v
      pure (key, value)
    if whole then pure (.map values) else fail .malformed
  | _, _ => fail .malformed

/-- A node in which at most so many containers stand inside one another. -/
def contentWithin : Nat → Reader σ Content
  | 0 => contentWith none
  | n + 1 => contentWith (some (contentWithin n))

def content : Reader σ Content := fun c t => contentWithin c.levels c t

/-! ## choices -/

/-- One of some names, as a text. -/
def variant (names : List String) : Reader σ String := fun c t => c.locate do
  let name ← textOf "variant identifier" c t
  if names.contains name then pure name else fail (.unknownVariant name names)

/-- One of some names: a text, or a map from it to nothing. -/
def choice (names : List String) : Reader σ String := fun c t => do
  match t with
  | .scalar s =>
    match ← lift (c.dialect.text? s) with
    | some _ => variant names c t
    | none => fail .malformed
  | .map _ ((k, v) :: rest) whole => do
    let inner ← c.enter
    let name ← variant names inner k
    match v with
    | .scalar s => if !(← lift (c.dialect.isNull s)) then fail (c.mismatch "unit" v)
    | _ => fail (c.mismatch "unit" v)
    if whole && rest.isEmpty then pure name else fail .malformed
  | _ => fail .malformed

/-- One entry of a form that is told by the name under `tag`; `found` is that name, and `rest` are the other entries, as
far as they were read. -/
def taggedEntry (tag : String) (names : List String) (c : Cursor σ) (found : Option String)
    (rest : List (Content × Content)) (k v : DataTree σ) : Read (Option String × List (Content × Content)) := do
  let key ← content c k
  let inside := c.child (c.keyStep k)
  let other : Read (Option String × List (Content × Content)) := do
    let value ← content inside v
    pure (found, rest ++ [(key, value)])
  match key with
  | .scalar (.text s) =>
    if s = tag then
      if found.isSome then fail (.duplicateField tag)
      let name ← variant names inside v
      pure (some name, rest)
    else other
  | _ => other

/-- A form told by the name under `tag`, with all its other entries; or that name and more items. -/
def tagged (type tag : String) (names : List String) : Reader σ (String × Content) := fun c t =>
  c.locate do
    let t ← c.follow t
    let expected := "internally tagged enum " ++ type
    match t with
    | .map false entries whole => do
      let inner ← c.enter
      let (found, rest) ← entries.foldlM (fun (found, rest) (k, v) => taggedEntry tag names inner found rest k v)
        (none, [])
      if !whole then fail .malformed
      match found with
      | some name => pure (name, .map rest)
      | none => fail (.missingField tag)
    | .list false (first :: rest) whole => do
      let inner ← c.enter
      let name ← variant names (inner.child (.index 0)) first
      let values ← (rest.zipIdx 1).mapM fun (item, i) => content (inner.child (.index i)) item
      if whole then pure (name, .list values) else fail .malformed
    | .list false [] whole => if whole then fail (.missingField tag) else fail .malformed
    | .list true .. | .map true .. => fail (.wrongType .enumeration expected)
    | .scalar s => do
      let f ← lift (c.dialect.any s)
      fail (.wrongType f expected)
    | _ => fail .malformed

/-! ## whole documents -/

/-- Reads a document from its root; nothing may follow it. -/
def Source.read (s : Source σ) (d : Dialect σ) (r : Reader σ α) : Except Problem α :=
  let c : Cursor σ := ⟨d, s.marked, [], d.levels⟩
  match (r c s.tree).run s.follows with
  | .ok (a, _) => if s.ends then .ok a else .error ⟨none, .malformed⟩
  | .error p => .error p

end DeviceSettings.Document

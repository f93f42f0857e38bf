/-!
# Documents

What the text of a document holds, before anybody asks what it means: scalars, lists and maps, as a
stream of `Event`s and as a `DataTree`.  A text may stop being a document somewhere.  Its tree then holds all
that comes before that point: the containers still open there are not `whole`, and `cut` stands where a
node should have begun.
-/

namespace DeviceSettings.Document

/-- One step of a document in reading order.  A node may carry a mark by which references find it, and a
container may carry a tag of the document's own. -/
inductive Event (σ : Type)
  | scalar (s : σ) (mark : Option Nat)
  | reference (mark : Nat)
  | openList (tagged : Bool) (mark : Option Nat)
  | openMap (tagged : Bool) (mark : Option Nat)
  | close

inductive DataTree (σ : Type)
  | scalar (s : σ)
  | list (tagged : Bool) (items : List (DataTree σ)) (whole : Bool)
  | map (tagged : Bool) (entries : List (DataTree σ × DataTree σ)) (whole : Bool)
  | reference (mark : Nat)
  | cut

/-- Was the node read to its end? -/
def DataTree.isWhole {σ : Type} : DataTree σ → Bool
  | list _ _ whole | map _ _ whole => whole
  | scalar _ | reference _ => true
  | cut => false

/-! ## building trees -/

/-- A container that is still open; what it holds is kept last first. -/
inductive Frame (σ : Type)
  | list (tagged : Bool) (mark : Option Nat) (items : List (DataTree σ))
  | map (tagged : Bool) (mark : Option Nat) (entries : List (DataTree σ × DataTree σ))
    (key : Option (DataTree σ))

/-- What a stream of events has built so far. -/
structure Builder (σ : Type) where
  frames : List (Frame σ)
  root : Option (DataTree σ)
  marked : List (Nat × DataTree σ)

namespace Builder
variable {σ : Type}

def start : Builder σ := ⟨[], none, []⟩

def record (b : Builder σ) (mark : Option Nat) (t : DataTree σ) : Builder σ :=
  match mark with
  | some m => { b with marked := (m, t) :: b.marked }
  | none => b

/-- A finished node goes into the innermost open container. -/
def add (b : Builder σ) (t : DataTree σ) : Builder σ :=
  match b.frames with
  | [] => { b with root := some t }
  | .list g m items :: rest => { b with frames := .list g m (t :: items) :: rest }
  | .map g m entries none :: rest => { b with frames := .map g m entries (some t) :: rest }
  | .map g m entries (some k) :: rest => { b with frames := .map g m ((k, t) :: entries) none :: rest }

/-- Ends the innermost open container. -/
def close (whole : Bool) (b : Builder σ) : Builder σ :=
  match b.frames with
  | [] => b
  | .list g m items :: rest =>
    let t := .list g items.reverse whole
    ({ b with frames := rest }.record m t).add t
  | .map g m entries key :: rest =>
    let entries := match key with
      | some k => (k, DataTree.cut) :: entries
      | none => entries
    let t := .map g entries.reverse whole
    ({ b with frames := rest }.record m t).add t

def step (b : Builder σ) : Event σ → Builder σ
  | .scalar s m => (b.record m (.scalar s)).add (.scalar s)
  | .reference m => b.add (.reference m)
  | .openList g m => { b with frames := .list g m [] :: b.frames }
  | .openMap g m => { b with frames := .map g m [] none :: b.frames }
  | .close => b.close true

/-- Ends all that is still open, as not whole. -/
def finish (b : Builder σ) : Builder σ := b.frames.foldl (fun b _ => b.close false) b

end Builder

/-- A document as read from a text: its tree, the nodes that carry marks, whether the text ended where
the document did, and how often references may be followed. -/
structure Source (σ : Type) where
  tree : DataTree σ
  marked : List (Nat × DataTree σ)
  ends : Bool
  follows : Nat

/-- The document of a stream of events. -/
def Source.ofEvents {σ : Type} (events : List (Event σ)) (ends : Bool) : Source σ :=
  let b := (events.foldl Builder.step Builder.start).finish
  { tree := b.root.getD .cut, marked := b.marked, ends, follows := events.length * 100 }

end DeviceSettings.Document

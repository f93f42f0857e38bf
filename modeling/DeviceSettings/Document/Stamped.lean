import DeviceSettings.Document.Reader
import DeviceSettings.Json.Source
import DeviceSettings.Timestamp

/-!
# Stamped documents

A stored table with the moment at which it was stored: the form of all documents that change while the program
runs.
-/

namespace DeviceSettings.Document

variable {σ : Type}

def timestamp : Reader σ Timestamp := fun c t => c.locate do
  match Timestamp.parse? (← textOf "an RFC 3339 formatted date and time string" c t) with
  | some moment => pure moment
  | none => fail .malformed

/-- A table and when it was stored. -/
structure Stamped (α : Type) where
  moment : Timestamp
  table : Table String α

/-- The names that a kind of stamped document uses. -/
structure StampedForm where
  record : String
  moment : String
  table : String

namespace Stamped
variable {α : Type}

def reader (form : StampedForm) (r : Reader σ α) : Reader σ (Stamped α) :=
  Document.record form.record
    [.needed form.moment timestamp fun s v => { s with moment := v },
     .defaulted form.table (Document.table r) fun s v => { s with table := v }]
    ⟨default, .empty⟩

def json (form : StampedForm) (write : α → Json.Value) (s : Stamped α) : Json.Value :=
  .object [(form.moment, .text s.moment.text),
    (form.table, .object (s.table.entries.map fun (k, a) => (k, write a)))]

/-- The document of a table as it is stored at a moment. -/
def print (form : StampedForm) (write : α → Json.Value) (s : Stamped α) : String :=
  (s.json form write).pretty

end Stamped

end DeviceSettings.Document

import DeviceSettings.CommandLine.Run
import DeviceSettings.Proofs.Document.Reading
import DeviceSettings.Proofs.Document.Stamped
import DeviceSettings.Proofs.Json.Compact
import DeviceSettings.Proofs.Text.Grid

/-!
# The rows of a printed panel

What is printed of a button panel holds its rows: as a document they are read back as they are (`panelLines_json`), as
a grid line by line, up to blanks at the ends of lines (`panelLines_grid`).
-/

namespace DeviceSettings.CommandLine

open Document (Fills Reads)
open Json (textDialect)

/-! ## rows in a document -/

/-- A text below each heading, added to the row read so far. -/
def cellFields (headings : List String) : List (Document.Field Json.Scalar (List String)) :=
  headings.map fun name => .needed name Document.text fun row cell => row ++ [cell]

/-- Reads a row from an object that has a text for each heading. -/
def rowReader (headings : List String) : Document.Reader Json.Scalar (List String) :=
  Document.record "Row" (cellFields headings) []

def rowsReader (headings : List String) : Document.Reader Json.Scalar (List (List String)) :=
  Document.list (rowReader headings)

/-- A row as an object. -/
def rowJson (headings cells : List String) : Json.Value :=
  .object ((headings.zip cells).map fun (name, cell) => (name, .text cell))

variable {headings : List String} {rows : List (List String)}

theorem fills_row {cells : List String} (h : cells.length = headings.length) (row : List String) :
    Fills textDialect 0 (cellFields headings) row
      (Json.Value.treeFields ((headings.zip cells).map fun (name, cell) => (name, .text cell))) (row ++ cells) := by
  induction headings generalizing cells row with
  | nil =>
    rw [List.eq_nil_of_length_eq_zero h, List.append_nil]
    exact .done
  | cons name headings ih =>
    obtain ⟨cell, cells, rfl⟩ := List.exists_cons_of_length_eq_add_one h
    have hrest := ih (Nat.succ.inj h) (row ++ [cell])
    rw [List.append_assoc, List.singleton_append] at hrest
    exact .present rfl ((Reads.textOf rfl _).map _) hrest

theorem reads_rows (hnodup : headings.Nodup) (h : ∀ row ∈ rows, row.length = headings.length) :
    Reads textDialect 2 (rowsReader headings) (Json.Value.list (rows.map (rowJson headings))).tree rows := by
  have hnames : ((cellFields headings).map Document.Field.name).Nodup := by
    rw [cellFields, List.map_map]
    exact (List.map_id headings).symm ▸ hnodup
  have hrow : ∀ row ∈ rows, Reads textDialect 1 (rowReader headings) (rowJson headings row).tree (id row) := by
    intro row hmem
    exact Reads.record (fills_row (h row hmem) []) hnames _
  have hlist := Reads.list hrow
  rw [List.map_id] at hlist
  rw [Json.Value.tree, Json.treeItems_eq_map, List.map_map]
  exact hlist

theorem isPlain_rowJson (headings cells : List String) : (rowJson headings cells).isPlain = true := by
  rw [rowJson, Json.Value.isPlain]
  exact Document.Stamped.plainFields_map fun _ _ => by rw [Json.Value.isPlain]

theorem isPlain_rows (headings : List String) (rows : List (List String)) :
    (Json.Value.list (rows.map (rowJson headings))).isPlain = true := by
  rw [Json.Value.isPlain]
  induction rows with
  | nil => rfl
  | cons row rows ih => rw [List.map_cons, Json.Value.plainItems, isPlain_rowJson, ih, Bool.true_and]

/-! ## what is printed -/

theorem length_of_mem_panelRows {p : Profile} {screen : Screen} :
    ∀ row ∈ panelRows p screen, row.length = panelHeadings.length := by
  intro row hrow
  obtain ⟨c, -, rfl⟩ := List.mem_map.mp hrow
  rfl

/-- The printed document is read back as the rows. -/
theorem panelLines_json (p : Profile) (savedAt : Option Timestamp) (screen : Screen) :
    ∃ text, panelLines p true savedAt screen = [text]
      ∧ Json.read (rowsReader panelHeadings) text = .ok (panelRows p screen) := by
  refine ⟨_, rfl, ?_⟩
  obtain ⟨follows, hsource⟩ := Json.source_pretty (isPlain_rows panelHeadings (panelRows p screen))
  show Json.read _ (Json.Value.list ((panelRows p screen).map (rowJson panelHeadings))).pretty = _
  rw [Json.read, hsource]
  exact Document.Source.read_of_reads (reads_rows (by decide) length_of_mem_panelRows) (by decide) _ _

/-- The printed grid holds the lines of the rows. -/
theorem panelLines_grid (p : Profile) (savedAt : Option Timestamp) (screen : Screen) :
    ∃ text note, panelLines p false savedAt screen = [text, note]
      ∧ Text.gridLines text = (panelRows p screen).flatMap Text.rowTexts :=
  ⟨_, _, rfl, Text.gridLines_grid (by decide) length_of_mem_panelRows⟩

end DeviceSettings.CommandLine

import DeviceSettings.Proofs.Path.Names
import DeviceSettings.Text.Grid
import Mathlib.Data.List.DropRight

/-!
# Grids read back

A grid holds its rows.  Its first rule shows how wide the columns are (`ruleWidths_ruleLine`), at these widths a line
falls into cells (`lineCells_flatMap`), and the lines of cells after the second rule are those of the rows, one row
after another (`gridLines_grid`).  What cannot be told is how many blanks a cell's line ended in: they look like those
that fill up its column.
-/

namespace DeviceSettings.Text

/-! ## widths -/

theorem foldl_width (n : Nat) (cs : List Char) :
    cs.foldl (fun n c => n + charWidth c) n = n + width cs := by
  induction cs generalizing n with
  | nil => rfl
  | cons c cs ih =>
    have hcons : width (c :: cs) = charWidth c + width cs := by
      rw [width, List.foldl_cons, ih, Nat.zero_add]
    rw [List.foldl_cons, ih, hcons, Nat.add_assoc]

theorem width_cons (c : Char) (cs : List Char) : width (c :: cs) = charWidth c + width cs := by
  rw [width, List.foldl_cons, foldl_width, Nat.zero_add]

theorem width_append (cs ds : List Char) : width (cs ++ ds) = width cs + width ds := by
  rw [width, List.foldl_append, foldl_width]
  rfl

theorem charWidth_blank : charWidth ' ' = 1 := by decide +kernel

theorem width_blanks (n : Nat) : width (blanks n) = n := by
  induction n with
  | zero => rfl
  | succ n ih =>
    rw [blanks, List.replicate_succ, width_cons, charWidth_blank, show List.replicate n ' ' = blanks n from rfl, ih]
    omega

theorem le_foldl_max {x : Nat} {xs : List Nat} {a : Nat} (h : x = a ∨ x ∈ xs) : x ≤ xs.foldl max a := by
  induction xs generalizing a x with
  | nil => exact le_of_eq (h.resolve_right List.not_mem_nil)
  | cons y ys ih =>
    rw [List.foldl_cons]
    have hbest : max a y ≤ ys.foldl max (max a y) := ih (.inl rfl)
    rcases h with rfl | hmem
    · omega
    · rcases List.mem_cons.mp hmem with rfl | hmem
      · omega
      · exact ih (.inr hmem)

/-- A column is as wide as the widest line in it. -/
theorem width_le_columnWidths {columns : Nat} {rows : List GridRow} {row : GridRow} (hrow : row ∈ rows)
    {w : Nat} {cell : List (List Char)} (hcell : (w, cell) ∈ (columnWidths columns rows).zip row) (i : Nat) :
    width (cell.getD i []) ≤ w := by
  obtain ⟨j, hj, hget⟩ := List.mem_iff_getElem.mp hcell
  rw [List.getElem_zip] at hget
  obtain ⟨rfl, rfl⟩ := Prod.mk.inj hget
  have hrowlen : j < row.length := by
    rw [List.length_zip] at hj
    omega
  have hcolumn : row.getD j [] = row[j] := by
    rw [List.getD_eq_getElem?_getD, List.getElem?_eq_getElem hrowlen, Option.getD_some]
  cases hline : row[j][i]? with
  | none =>
    rw [List.getD_eq_getElem?_getD, hline]
    exact Nat.zero_le _
  | some line =>
    rw [List.getD_eq_getElem?_getD, hline, Option.getD_some]
    simp only [columnWidths, List.getElem_map, List.getElem_range]
    have hmem : line ∈ row.getD j [] := hcolumn ▸ List.mem_of_getElem? hline
    exact (le_foldl_max (.inr (List.mem_map_of_mem hmem))).trans
      (le_foldl_max (.inr (List.mem_map_of_mem (f := fun row => ((row.getD j []).map width).foldl max 0) hrow)))

/-! ## reading -/

/-- The longest beginning of a text that takes at most so many columns. -/
def fitting : Nat → List Char → List Char
  | _, [] => []
  | n, c :: cs => if charWidth c ≤ n then c :: fitting (n - charWidth c) cs else []

/-- The cells of a line: a bar and a blank, as much as fits into the column, and a blank. -/
def lineCells : List Nat → List Char → List (List Char)
  | [], _ => []
  | w :: ws, cs =>
    let cell := fitting w (cs.drop 2)
    cell :: lineCells ws (cs.drop (cell.length + 3))

/-- The widths of the columns that a first rule shows. -/
def ruleWidths (rule : List Char) : List Nat :=
  (splitOn '┬' (rule.drop 1).dropLast).map fun dashes => dashes.length - 2

/-- A line without the blanks at its end. -/
def unpadded (cs : List Char) : String := .ofList (cs.rdropWhile (· == ' '))

/-- What stands in the cells of a grid below its headings, line by line. -/
def gridLines (text : String) : List (List String) :=
  let lines := splitOn '\n' text.toList
  let widths := ruleWidths (lines.headD [])
  ((lines.dropWhile fun line => line.head? != some '├').filter fun line => line.head? == some '│').map
    fun line => (lineCells widths line).map unpadded

/-- The lines of a row: of each cell the first, of each the second, and so on to the end of the longest. -/
def rowTexts (row : List String) : List (List String) :=
  (List.range (((gridRow row).map List.length).foldl max 1)).map fun i =>
    (gridRow row).map fun cell => unpadded (cell.getD i [])

/-! ## cells -/

/-- A text that fills its columns is all that fits, if what follows takes a column of its own. -/
theorem fitting_append {c : Char} (hc : charWidth c ≠ 0) (cs rest : List Char) :
    fitting (width cs) (cs ++ c :: rest) = cs := by
  induction cs with
  | nil => exact if_neg (by rw [width, List.foldl_nil]; omega)
  | cons d cs ih =>
    rw [List.cons_append, fitting, width_cons, if_pos (by omega), Nat.add_sub_cancel_left, ih]

theorem unpadded_blanks (cs : List Char) (n : Nat) : unpadded (cs ++ blanks n) = unpadded cs := by
  induction n with
  | zero => rw [blanks, List.replicate_zero, List.append_nil]
  | succ n ih =>
    rw [blanks, List.replicate_succ', ← List.append_assoc, unpadded, List.rdropWhile_concat_pos _ _ _ rfl]
    exact ih

/-- A cell's line with the blanks that fill up its column. -/
def filled (w : Nat) (line : List Char) : List Char := line ++ blanks (w - width line)

theorem width_filled {w : Nat} {line : List Char} (h : width line ≤ w) : width (filled w line) = w := by
  rw [filled, width_append, width_blanks]
  omega

theorem lineCells_flatMap {cells : List (Nat × List Char)} (h : ∀ e ∈ cells, width e.2 ≤ e.1) (rest : List Char) :
    lineCells (cells.map (·.1)) (cells.flatMap (fun e => '│' :: ' ' :: (filled e.1 e.2 ++ [' '])) ++ rest)
      = cells.map fun e => filled e.1 e.2 := by
  induction cells with
  | nil => rfl
  | cons e cells ih =>
    obtain ⟨he, hcells⟩ := List.forall_mem_cons.mp h
    have hfits (more : List Char) : fitting e.1 (filled e.1 e.2 ++ ' ' :: more) = filled e.1 e.2 := by
      have hfitting := fitting_append (c := ' ') (by rw [charWidth_blank]; decide) (filled e.1 e.2) more
      rwa [width_filled he] at hfitting
    rw [List.map_cons, List.map_cons, List.flatMap_cons, lineCells]
    have htext : '│' :: ' ' :: (filled e.1 e.2 ++ [' '])
          ++ cells.flatMap (fun e => '│' :: ' ' :: (filled e.1 e.2 ++ [' '])) ++ rest
        = '│' :: ' ' :: (filled e.1 e.2
          ++ ' ' :: (cells.flatMap (fun e => '│' :: ' ' :: (filled e.1 e.2 ++ [' '])) ++ rest)) := by simp
    have hrest (more : List Char) :
        ('│' :: ' ' :: (filled e.1 e.2 ++ ' ' :: more)).drop ((filled e.1 e.2).length + 3) = more := by
      simp [List.drop_append]
    rw [htext, List.drop_succ_cons, List.drop_succ_cons, List.drop_zero, hfits, hrest, ih hcells]

/-! ## lines -/

/-- Between two bars at the ends and one between each two is one before each and one at the end. -/
theorem bars_intercalate {cells : List (List Char)} (h : cells ≠ []) :
    '│' :: List.intercalate ['│'] cells ++ ['│'] = cells.flatMap ('│' :: ·) ++ ['│'] := by
  induction cells with
  | nil => exact absurd rfl h
  | cons cell cells ih =>
    cases cells with
    | nil => simp
    | cons next cells =>
      have hnext := ih (List.cons_ne_nil _ _)
      rw [List.intercalate_cons_cons, List.flatMap_cons, List.append_assoc ('│' :: cell), ← hnext]
      simp

variable {headings : List String} {rows : List (List String)} {widths : List Nat}

theorem rowLine_eq (widths : List Nat) (row : GridRow) (i : Nat) :
    rowLine widths row i = '│' :: List.intercalate ['│']
      ((widths.zip row).map fun e => ' ' :: (filled e.1 (e.2.getD i []) ++ [' '])) ++ ['│'] := by
  simp only [rowLine, filled, List.cons_append]

theorem lineCells_rowLine {row : GridRow} (hlen : row.length = widths.length) (hne : widths ≠ [])
    (hwide : ∀ i w cell, (w, cell) ∈ widths.zip row → width (cell.getD i []) ≤ w) (i : Nat) :
    (lineCells widths (rowLine widths row i)).map unpadded = row.map fun cell => unpadded (cell.getD i []) := by
  let cells : List (Nat × List Char) := (widths.zip row).map fun e => (e.1, e.2.getD i [])
  have hfst : cells.map (·.1) = widths := by
    rw [List.map_map]
    exact List.map_fst_zip (by omega)
  have hsnd : cells.map (·.2) = row.map (·.getD i []) := by
    rw [List.map_map]
    show (widths.zip row).map ((·.getD i []) ∘ Prod.snd) = _
    rw [← List.map_map, List.map_snd_zip (by omega)]
  have hline : rowLine widths row i = cells.flatMap (fun e => '│' :: ' ' :: (filled e.1 e.2 ++ [' '])) ++ ['│'] := by
    have hzip : widths.zip row ≠ [] := by
      intro hnil
      have hlength := congrArg List.length hnil
      rw [List.length_zip, hlen, Nat.min_self] at hlength
      exact hne (List.eq_nil_of_length_eq_zero hlength)
    rw [rowLine_eq, bars_intercalate (mt List.map_eq_nil_iff.mp hzip), List.flatMap_map, List.flatMap_map]
  have hcells : ∀ e ∈ cells, width e.2 ≤ e.1 := by
    intro e he
    obtain ⟨⟨w, cell⟩, hmem, rfl⟩ := List.mem_map.mp he
    exact hwide i w cell hmem
  have hread := lineCells_flatMap hcells ['│']
  rw [hfst, ← hline] at hread
  have hfilled : (unpadded ∘ fun e : Nat × List Char => filled e.1 e.2) = unpadded ∘ Prod.snd :=
    funext fun e => unpadded_blanks _ _
  rw [hread, List.map_map, hfilled, ← List.map_map, hsnd, List.map_map]
  rfl

theorem ruleWidths_ruleLine (left right : Char) (hne : widths ≠ []) :
    ruleWidths (ruleLine left '┬' right widths) = widths := by
  have hdashes : ∀ dashes ∈ widths.map fun w => List.replicate (w + 2) '─', '┬' ∉ dashes := by
    intro dashes hmem
    obtain ⟨w, -, rfl⟩ := List.mem_map.mp hmem
    exact fun h => absurd (List.eq_of_mem_replicate h) (by decide)
  rw [ruleWidths, ruleLine, List.cons_append, List.drop_succ_cons, List.drop_zero, List.dropLast_concat, splitOn_eq,
    List.splitOn_intercalate _ hdashes (mt List.map_eq_nil_iff.mp hne), List.map_map]
  refine (List.map_congr_left fun w _ => ?_).trans (List.map_id _)
  rw [Function.comp_apply, List.length_replicate]
  rfl

theorem not_mem_intercalate {c : Char} {sep : List Char} (hsep : c ∉ sep) {parts : List (List Char)}
    (h : ∀ part ∈ parts, c ∉ part) : c ∉ List.intercalate sep parts := by
  induction parts with
  | nil => exact List.not_mem_nil
  | cons part parts ih =>
    obtain ⟨hpart, hparts⟩ := List.forall_mem_cons.mp h
    cases parts with
    | nil => simpa using hpart
    | cons next parts =>
      rw [List.intercalate_cons_cons]
      simp only [List.mem_append, not_or]
      exact ⟨⟨hpart, hsep⟩, ih hparts⟩

theorem newLine_not_mem_ruleLine {left cross right : Char} (h : '\n' ∉ [left, cross, right]) (widths : List Nat) :
    '\n' ∉ ruleLine left cross right widths := by
  simp only [List.mem_cons, List.not_mem_nil, or_false, not_or] at h
  obtain ⟨hleft, hcross, hright⟩ := h
  have hdashes : '\n' ∉ List.intercalate [cross] (widths.map fun w => List.replicate (w + 2) '─') := by
    refine not_mem_intercalate (by simpa using hcross) fun part hpart => ?_
    obtain ⟨w, -, rfl⟩ := List.mem_map.mp hpart
    exact fun hmem => absurd (List.eq_of_mem_replicate hmem) (by decide)
  rw [ruleLine, List.cons_append, List.mem_cons, List.mem_append, List.mem_singleton]
  rintro (heq | hmem | heq)
  · exact hleft heq
  · exact hdashes hmem
  · exact hright heq

theorem newLine_not_mem_rowLine (widths : List Nat) (row : List String) (i : Nat) :
    '\n' ∉ rowLine widths (gridRow row) i := by
  have hcells : ∀ cell ∈ gridRow row, '\n' ∉ cell[i]?.getD [] := by
    intro cell hcell
    obtain ⟨text, -, rfl⟩ := List.mem_map.mp hcell
    cases hline : (splitOn '\n' text.toList)[i]? with
    | none => exact List.not_mem_nil
    | some line => exact not_mem_of_mem_splitOn (List.mem_of_getElem? hline)
  have hparts : '\n' ∉ List.intercalate ['│']
      ((widths.zip (gridRow row)).map fun e => ' ' :: (filled e.1 (e.2.getD i []) ++ [' '])) := by
    refine not_mem_intercalate (by decide) fun part hpart => ?_
    obtain ⟨⟨w, cell⟩, hmem, rfl⟩ := List.mem_map.mp hpart
    have hline := hcells cell (List.of_mem_zip hmem).2
    simp [filled, blanks, hline]
  rw [rowLine_eq, List.cons_append, List.mem_cons, List.mem_append, List.mem_singleton]
  rintro (heq | hmem | heq)
  · exact absurd heq (by decide)
  · exact hparts hmem
  · exact absurd heq (by decide)

/-! ## the whole -/

theorem splitOn_grid (headings : List String) (rows : List (List String)) :
    let head := gridRow headings
    let body := rows.map gridRow
    let widths := columnWidths headings.length (head :: body)
    splitOn '\n' (grid headings rows).toList = ruleLine '╭' '┬' '╮' widths :: (rowLines widths head
      ++ ruleLine '├' '┼' '┤' widths :: (body.flatMap (rowLines widths)
        ++ if body.isEmpty then [] else [ruleLine '╰' '┴' '╯' widths])) := by
  intro head body widths
  let lines := [ruleLine '╭' '┬' '╮' widths] ++ rowLines widths head ++ [ruleLine '├' '┼' '┤' widths]
    ++ body.flatMap (rowLines widths) ++ if body.isEmpty then [] else [ruleLine '╰' '┴' '╯' widths]
  have hrow (row : List String) : ∀ line ∈ rowLines widths (gridRow row), '\n' ∉ line := by
    intro line hline
    obtain ⟨i, -, rfl⟩ := List.mem_map.mp hline
    exact newLine_not_mem_rowLine widths row i
  have hlines : ∀ line ∈ lines, '\n' ∉ line := by
    intro line hline
    simp only [lines, List.mem_append, List.mem_singleton] at hline
    rcases hline with (((rfl | hline) | rfl) | hline) | hline
    · exact newLine_not_mem_ruleLine (by decide) widths
    · exact hrow headings line hline
    · exact newLine_not_mem_ruleLine (by decide) widths
    · obtain ⟨_, hmem, hline⟩ := List.mem_flatMap.mp hline
      obtain ⟨row, -, rfl⟩ := List.mem_map.mp hmem
      exact hrow row line hline
    · split at hline
      · cases hline
      · rw [List.mem_singleton.mp hline]
        exact newLine_not_mem_ruleLine (by decide) widths
  have hgrid : (grid headings rows).toList = List.intercalate ['\n'] lines := String.toList_ofList
  rw [hgrid, splitOn_eq, List.splitOn_intercalate _ hlines (by simp [lines])]
  simp [lines]

/-- The lines that hold rows are those with a bar below the second rule. -/
theorem filter_lines {top mid : List Char} {head body last : List (List Char)} (htop : top.head? = some '╭')
    (hhead : ∀ line ∈ head, line.head? = some '│') (hmid : mid.head? = some '├')
    (hbody : ∀ line ∈ body, line.head? = some '│') (hlast : ∀ line ∈ last, line.head? = some '╰') :
    ((top :: (head ++ mid :: (body ++ last))).dropWhile fun line => line.head? != some '├').filter
      (fun line => line.head? == some '│') = body := by
  have habove : ∀ line ∈ top :: head, (line.head? != some '├') = true := by
    intro line hline
    rcases List.mem_cons.mp hline with rfl | hline
    · rw [htop]
      rfl
    · rw [hhead line hline]
      rfl
  rw [← List.cons_append, List.dropWhile_append_of_pos habove, List.dropWhile_cons_of_neg (by simp [hmid]),
    List.filter_cons_of_neg (by simp [hmid]), List.filter_append]
  have hkept : body.filter (fun line => line.head? == some '│') = body :=
    List.filter_eq_self.mpr fun line hline => by rw [hbody line hline]; rfl
  have hnone : last.filter (fun line => line.head? == some '│') = [] :=
    List.filter_eq_nil_iff.mpr fun line hline => by rw [hlast line hline]; decide
  rw [hkept, hnone, List.append_nil]

theorem head?_rowLines {widths : List Nat} {row : GridRow} : ∀ line ∈ rowLines widths row, line.head? = some '│' := by
  intro line hline
  obtain ⟨i, -, rfl⟩ := List.mem_map.mp hline
  rfl

/-- **A grid holds its rows.**  What is read off it below its headings are the lines of the rows, row by row. -/
theorem gridLines_grid (hne : headings ≠ []) (hlen : ∀ row ∈ rows, row.length = headings.length) :
    gridLines (grid headings rows) = rows.flatMap rowTexts := by
  let body := rows.map gridRow
  let widths := columnWidths headings.length (gridRow headings :: body)
  have hwidths : widths.length = headings.length := (List.length_map _).trans List.length_range
  have hnonempty : widths ≠ [] := fun hnil => hne (List.eq_nil_of_length_eq_zero (by rw [← hwidths, hnil]; rfl))
  have hrow : ∀ row ∈ rows, (rowLines widths (gridRow row)).map (fun line => (lineCells widths line).map unpadded)
      = rowTexts row := by
    intro row hmem
    rw [rowLines, rowTexts, List.map_map]
    refine List.map_congr_left fun i _ => lineCells_rowLine ?_ hnonempty (fun i w cell hcell => ?_) i
    · rw [hwidths, ← hlen row hmem]
      exact List.length_map _
    · exact width_le_columnWidths (List.mem_cons_of_mem _ (List.mem_map_of_mem hmem)) hcell i
  have hbody : ∀ line ∈ body.flatMap (rowLines widths), line.head? = some '│' := by
    intro line hline
    obtain ⟨row, -, hline⟩ := List.mem_flatMap.mp hline
    exact head?_rowLines line hline
  have hlast : ∀ line ∈ if body.isEmpty then [] else [ruleLine '╰' '┴' '╯' widths], line.head? = some '╰' := by
    intro line hline
    split at hline
    · cases hline
    · rw [List.mem_singleton.mp hline]
      rfl
  rw [gridLines, splitOn_grid]
  dsimp only [List.headD_cons]
  rw [ruleWidths_ruleLine _ _ hnonempty, filter_lines rfl head?_rowLines rfl hbody hlast, List.map_flatMap,
    List.flatMap_map]
  exact List.flatMap_congr hrow

/-- A row takes as many lines as its tallest cell. -/
example : rowTexts ["a\nb", "c "] = [["a", "c"], ["b", ""]] := by decide +kernel

end DeviceSettings.Text

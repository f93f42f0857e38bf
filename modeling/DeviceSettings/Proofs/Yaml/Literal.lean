import DeviceSettings.Proofs.Yaml.Point
import DeviceSettings.Yaml.Token

/-!
# Literal blocks read back

A literal block is read up to the line after it (`blockScalar?_literal`).  Its lines are indented by `n`, empty ones
not at all, and the marks of the block say what the lines do not show: an indentation that its first line hides, and
how many of the breaks at its end count (`chompOf`).
-/

namespace DeviceSettings.Yaml

open Point (breakText)
open Printer (chompMark indentMark isPrintable literal literalFrom spaces)

/-! ## lines as they are written -/

section
variable {n : Nat} {line bs cs : List Char}

theorem literalFrom_line (h : ∀ c ∈ line, isBreak c = false) (cs : List Char) :
    literalFrom n false (line ++ cs) = line ++ literalFrom n false cs := by
  induction line with
  | nil => rfl
  | cons c line ih =>
    rw [List.cons_append, literalFrom, h c List.mem_cons_self, if_neg Bool.false_ne_true, if_neg Bool.false_ne_true,
      ih fun d hd => h d (List.mem_cons_of_mem _ hd)]
    rfl

theorem literalFrom_breaks (h : ∀ b ∈ bs, isBreak b = true) (cs : List Char) :
    literalFrom n true (bs ++ cs) = bs ++ literalFrom n true cs := by
  induction bs with
  | nil => rfl
  | cons b bs ih =>
    rw [List.cons_append, literalFrom, if_pos (h b List.mem_cons_self), ih fun d hd => h d (List.mem_cons_of_mem _ hd)]
    rfl

theorem literalFrom_indented (hne : cs ≠ []) (h : ∀ c ∈ cs.head?, isBreak c = false) :
    literalFrom n true cs = spaces n ++ literalFrom n false cs := by
  cases cs with
  | nil => exact absurd rfl hne
  | cons c cs =>
    rw [literalFrom, literalFrom, h c rfl, if_neg Bool.false_ne_true, if_neg Bool.false_ne_true, if_pos rfl,
      if_neg Bool.false_ne_true, List.nil_append]

/-- The lines of a block from its first one on, whose indentation was passed. -/
def linesFrom (n : Nat) (cs : List Char) : List Char :=
  literalFrom n false cs ++ if cs.getLast?.any isBreak then [] else ['\n']

end

/-! ## empty lines -/

/-- The line after empty ones: `j` spaces were passed, which are the indentation unless the line stands left of it. -/
structure IsLineStart (n j : Nat) (rest : List Char) : Prop where
  le : j ≤ n
  left : j < n → ∀ c ∈ rest.head?, isGap c = false
  starts : ∀ c ∈ rest.head?, isBreak c = false

section
variable {p : Point} {n j fuel widest : Nat} {bs rest : List Char}

theorem length_takeWhile_spaces (cs : List Char) :
    ((spaces j ++ cs).takeWhile (· == ' ')).length = j + (cs.takeWhile (· == ' ')).length := by
  rw [List.takeWhile_append_of_pos fun c hc => by rw [List.eq_of_mem_replicate hc]; rfl, List.length_append,
    length_spaces]

/-- No empty lines are left. -/
theorem emptyLines_start (hp : p.rest = spaces j ++ rest) (hcolumn : p.column = 0) (hrest : IsLineStart n j rest) :
    emptyLines (fuel + 1) (some n) widest p = some (max widest j, [], p.afterBreaks 0 j rest) := by
  have hmin : min (j + (rest.takeWhile (· == ' ')).length) (n - p.column) = j := by
    rcases Nat.lt_or_eq_of_le hrest.le with hlt | rfl
    · rw [takeWhile_none fun c hc => beq_false_of_ne (ne_space_of_isGap (hrest.left hlt c hc)), List.length_nil]
      omega
    · omega
  have htab : (decide (j < n) && decide (rest.head? = some '\t')) = false := by
    rw [Bool.and_eq_false_iff, decide_eq_false_iff_not, decide_eq_false_iff_not]
    by_cases hlt : j < n
    · right
      intro hhead
      exact absurd (hrest.left hlt _ hhead) (by decide)
    · exact .inl hlt
  have hbreak : rest.head?.any isBreak = false := by
    cases rest with
    | nil => rfl
    | cons c rest => exact hrest.starts c rfl
  unfold emptyLines
  dsimp only
  rw [hp, length_takeWhile_spaces, hmin, skip_spaces hp hcolumn]
  show (if (decide (j < n) && decide (rest.head? = some '\t')) = true then _ else
    if rest.head?.any isBreak then _ else _) = _
  rw [htab, if_neg Bool.false_ne_true, hbreak, if_neg Bool.false_ne_true]
  rfl

/-- A break that a block is written with. -/
def IsWrittenBreak (b : Char) : Prop := isBreak b = true ∧ isPrintable b = true

theorem IsWrittenBreak.ne_return {b : Char} (h : IsWrittenBreak b) : b ≠ '\r' := ne_of_isPrintable h.2 (by decide)

theorem IsWrittenBreak.breakText_eq {b : Char} (h : IsWrittenBreak b) : breakText b = [b] :=
  breakText_of_isPrintable h.2 h.1

/-- An empty line gives its break. -/
theorem emptyLines_break {b : Char} {r breaks : List Char} {w : Nat} {q : Point} (hp : p.rest = b :: r)
    (hb : IsWrittenBreak b)
    (hmore : emptyLines fuel (some n) (max widest p.column) p.afterBreak = some (w, breaks, q)) :
    emptyLines (fuel + 1) (some n) widest p = some (w, b :: breaks, q) := by
  have htab : (some b = some '\t') = False := by
    rw [eq_iff_iff, iff_false, Option.some_inj]
    rintro rfl
    exact absurd hb.1 (by decide)
  unfold emptyLines
  dsimp only
  rw [hp, List.takeWhile_cons_of_neg (by simpa using ne_space_of_isBreak hb.1), List.length_nil, Nat.zero_min,
    Point.skip_zero, hp, List.head?_cons]
  simp only [htab, Option.any_some, hb.1, decide_false, Bool.and_false, if_true,
    Point.passBreak_cons hp hb.1 hb.ne_return]
  rw [if_neg Bool.false_ne_true, hmore, hb.breakText_eq]
  rfl

/-- The empty lines of a block whose indentation is known. -/
theorem emptyLines_given (hp : p.rest = bs ++ (spaces j ++ rest)) (hcolumn : p.column = 0)
    (hbs : ∀ b ∈ bs, IsWrittenBreak b) (hrest : IsLineStart n j rest) (hfuel : bs.length < fuel) :
    ∃ w, emptyLines fuel (some n) widest p = some (w, bs, p.afterBreaks bs.length j rest) := by
  induction bs generalizing p fuel widest with
  | nil =>
    obtain ⟨fuel, rfl⟩ : ∃ m, fuel = m + 1 := ⟨fuel - 1, by omega⟩
    exact ⟨_, emptyLines_start hp hcolumn hrest⟩
  | cons b bs ih =>
    obtain ⟨fuel, rfl⟩ : ∃ m, fuel = m + 1 := ⟨fuel - 1, by omega⟩
    rw [List.cons_append] at hp
    have hnext : p.afterBreak.rest = bs ++ (spaces j ++ rest) := by rw [Point.afterBreak, hp, List.tail_cons]
    obtain ⟨w, hmore⟩ : ∃ w, emptyLines fuel (some n) (max widest p.column) p.afterBreak = some (w, _) :=
      ih hnext rfl (fun c hc => hbs c (List.mem_cons_of_mem _ hc)) (Nat.lt_of_succ_lt_succ hfuel)
    refine ⟨w, ?_⟩
    rw [emptyLines_break hp (hbs b List.mem_cons_self) hmore, Point.afterBreaks_afterBreak]
    rfl

/-- The first line of a block shows the indentation, unless it is empty or begins with a space. -/
theorem emptyLines_unknown (hp : p.rest = spaces n ++ rest) (hcolumn : p.column = 0)
    (hrest : ∀ c ∈ rest.head?, isGap c = false) :
    emptyLines (fuel + 1) none 0 p = some (n, [], p.afterBreaks 0 n rest) := by
  have htab : rest.head? ≠ some '\t' := fun hhead => absurd (hrest _ hhead) (by decide)
  unfold emptyLines
  dsimp only
  rw [hp, length_takeWhile_spaces, takeWhile_none fun c hc => beq_false_of_ne (ne_space_of_isGap (hrest c hc)),
    List.length_nil, Nat.add_zero, skip_spaces hp hcolumn]
  show (if (true && decide (rest.head? = some '\t')) = true then _ else if rest.head?.any isBreak then _ else _) = _
  rw [decide_eq_false htab, Bool.and_false, if_neg Bool.false_ne_true, any_isBreak_head? hrest,
    if_neg Bool.false_ne_true]
  show some (max 0 n, _, _) = _
  rw [Nat.zero_max]

/-! ## lines -/

variable {w cs first more : List Char} {g : Char} {blankLine : Bool}

theorem blockLines_end (h : p.column ≠ n ∨ p.rest = []) :
    blockLines fuel true n first more blankLine p = some ([], first, more, p) := by
  unfold blockLines
  split
  next hp =>
    have hcolumn := h.resolve_right (by rw [hp]; exact List.cons_ne_nil _ _)
    rw [if_pos hcolumn]
  next => rfl

/-- A line with the empty ones after it. -/
theorem blockLines_line (hw : ∀ c ∈ w, isBreak c = false) (hne : w ≠ []) (hcolumn : p.column = n)
    (hp : p.rest = w ++ g :: (bs ++ (spaces j ++ rest))) (hbs : ∀ b ∈ g :: bs, IsWrittenBreak b)
    (hrest : IsLineStart n j rest) (hfuel : bs.length < fuel + 1) :
    ∃ blank, blockLines (fuel + 1) true n first more blankLine p =
      (blockLines fuel true n [g] bs blank
        ((p.skip w.length).afterBreaks (bs.length + 1) j rest)).bind fun (text, lastBreak, last, q) =>
          some (first ++ more ++ w ++ text, lastBreak, last, q) := by
  obtain ⟨c, w, rfl⟩ := List.exists_cons_of_ne_nil hne
  have hg := hbs g List.mem_cons_self
  have hline : p.rest.takeWhile (fun c => !isBreak c) = c :: w := by
    rw [hp]
    exact takeWhile_run (fun d hd => by simpa using hw d hd) (by rintro d ⟨⟩; simpa using hg.1)
  have hskip := Point.rest_skip hp
  have hnext : (p.skip (c :: w).length).afterBreak.rest = bs ++ (spaces j ++ rest) := by
    rw [Point.afterBreak, hskip, List.tail_cons]
  obtain ⟨widest, hempty⟩ : ∃ widest, emptyLines (fuel + 1) (some n) 0 (p.skip (c :: w).length).afterBreak
      = some (widest, _) :=
    emptyLines_given hnext rfl (fun b hb => hbs b (List.mem_cons_of_mem _ hb)) hrest hfuel
  rw [Point.afterBreaks_afterBreak] at hempty
  refine ⟨isBlank c, ?_⟩
  rw [blockLines.eq_1 true n first more blankLine p fuel c _ hp, if_neg (not_not.mpr hcolumn), hline]
  dsimp only
  rw [Point.passBreak_cons hskip hg.1 hg.ne_return]
  dsimp only
  rw [hempty, hg.breakText_eq]
  rfl

end

/-! ## ends -/

/-- What the mark of a block makes of the breaks at its end. -/
def chompOf (marks : List Char) : Chomp := if marks = ['-'] then .strip else if marks = ['+'] then .keep else .clip

def Chomp.text (body lastBreak last : List Char) : Chomp → List Char
  | .strip => body
  | .clip => body ++ lastBreak
  | .keep => body ++ lastBreak ++ last

theorem Chomp.text_append (xs body lastBreak last : List Char) (c : Chomp) :
    c.text (xs ++ body) lastBreak last = xs ++ c.text body lastBreak last := by
  cases c <;> simp only [Chomp.text, List.append_assoc]

theorem chompMark_concat (xs : List Char) (c : Char) :
    chompMark (xs ++ [c]) = if !isBreak c then ['-'] else if xs.getLast?.all isBreak then ['+'] else [] := by
  simp [chompMark]

section
variable {w gs xs cs : List Char} {g : Char}

theorem chompOf_line (hw : ∀ c ∈ w, isBreak c = false) (hne : w ≠ []) : chompOf (chompMark w) = .strip := by
  rw [← List.dropLast_concat_getLast hne, chompMark_concat, hw _ (List.getLast_mem hne)]
  rfl

theorem chompOf_break (hw : ∀ c ∈ w, isBreak c = false) (hne : w ≠ []) (hg : isBreak g = true) :
    chompOf (chompMark (w ++ [g])) = .clip := by
  rw [chompMark_concat, hg, List.getLast?_eq_some_getLast hne, Option.all_some, hw _ (List.getLast_mem hne)]
  rfl

theorem chompOf_breaks (hgs : ∀ b ∈ gs, isBreak b = true) (hne : gs ≠ []) (hlast : xs.getLast?.all isBreak = true) :
    chompOf (chompMark (xs ++ gs)) = .keep := by
  have hall : (xs ++ gs.dropLast).getLast?.all isBreak = true := by
    rw [List.getLast?_append]
    cases hd : gs.dropLast.getLast? with
    | none => exact hlast
    | some b => exact hgs b ((List.dropLast_sublist gs).subset (List.mem_of_getLast? hd))
  rw [← List.dropLast_concat_getLast hne, ← List.append_assoc, chompMark_concat, hgs _ (List.getLast_mem hne), hall]
  rfl

/-- The breaks after the last line of a block come back. -/
theorem Chomp.text_breaks (hw : ∀ c ∈ w, isBreak c = false) (hne : w ≠ []) (hgs : ∀ b ∈ g :: gs, isBreak b = true) :
    (chompOf (chompMark (w ++ g :: gs))).text w [g] gs = w ++ g :: gs := by
  obtain ⟨hg, hgs⟩ := List.forall_mem_cons.mp hgs
  cases gs with
  | nil =>
    rw [chompOf_break hw hne hg]
    rfl
  | cons b bs =>
    have hassoc : w ++ g :: b :: bs = (w ++ [g]) ++ b :: bs := by rw [List.append_assoc, List.singleton_append]
    rw [hassoc, chompOf_breaks hgs (List.cons_ne_nil b bs) (by simp [hg])]
    rfl

theorem chompMark_append (hne : cs ≠ []) (hhead : ∀ c ∈ cs.head?, isBreak c = false) :
    chompMark (xs ++ cs) = chompMark cs := by
  obtain rfl | ⟨ys, c, rfl⟩ := List.eq_nil_or_concat cs
  · exact absurd rfl hne
  rw [List.concat_eq_append] at hhead ⊢
  rw [← List.append_assoc, chompMark_concat, chompMark_concat]
  cases ys with
  | nil =>
    rw [hhead c rfl]
    rfl
  | cons d ds => rw [List.getLast?_append, List.getLast?_eq_some_getLast (List.cons_ne_nil d ds), Option.some_or]

end

/-! ## the lines of a block -/

theorem linesFrom_line {n : Nat} {w : List Char} (hw : ∀ c ∈ w, isBreak c = false) (hne : w ≠ []) :
    linesFrom n w = w ++ ['\n'] := by
  have hlast : w.getLast?.any isBreak = false := by
    rw [List.getLast?_eq_some_getLast hne]
    exact hw _ (List.getLast_mem hne)
  have hlines := literalFrom_line (n := n) hw []
  rw [List.append_nil] at hlines
  rw [linesFrom, hlast, hlines, literalFrom, List.append_nil]
  rfl

section
variable {n k fuel : Nat} {w bs gs cs first more rest : List Char} {g : Char} {blankLine : Bool} {p : Point}

/-- The empty lines that a text begins with, and then nothing or its first line. -/
theorem literalFrom_leading (hbs : ∀ b ∈ bs, isBreak b = true) (hhead : ∀ c ∈ cs.head?, isBreak c = false)
    (hne : bs ++ cs ≠ []) :
    (literalFrom n true (bs ++ cs) ++ if (bs ++ cs).getLast?.any isBreak then [] else ['\n'])
      = bs ++ if cs = [] then [] else spaces n ++ linesFrom n cs := by
  rw [literalFrom_breaks hbs]
  by_cases hcs : cs = []
  · subst hcs
    rw [List.append_nil] at hne ⊢
    rw [List.getLast?_eq_some_getLast hne, Option.any_some, hbs _ (List.getLast_mem hne), literalFrom, if_pos rfl,
      if_pos rfl]
    simp only [List.append_nil]
  · have hlast : (bs ++ cs).getLast? = cs.getLast? := by
      rw [List.getLast?_append, List.getLast?_eq_some_getLast hcs, Option.some_or]
    rw [hlast, literalFrom_indented hcs hhead, linesFrom, if_neg hcs]
    simp only [List.append_assoc]

/-- A line, its break and those of the empty lines after it; then comes nothing or the next line. -/
theorem linesFrom_breaks (hw : ∀ c ∈ w, isBreak c = false) (hgs : ∀ b ∈ g :: gs, isBreak b = true)
    (hhead : ∀ c ∈ cs.head?, isBreak c = false) :
    linesFrom n (w ++ g :: (gs ++ cs)) =
      w ++ g :: (gs ++ if cs = [] then [] else spaces n ++ linesFrom n cs) := by
  have hlast : (w ++ g :: (gs ++ cs)).getLast? = (g :: gs ++ cs).getLast? := by
    rw [List.getLast?_append, List.cons_append, List.getLast?_cons, Option.some_or]
  have hfirst : literalFrom n false (g :: (gs ++ cs)) = literalFrom n true (g :: gs ++ cs) := by
    rw [List.cons_append, literalFrom, literalFrom, if_pos (hgs g List.mem_cons_self),
      if_pos (hgs g List.mem_cons_self)]
  rw [linesFrom, literalFrom_line hw, hlast, hfirst, List.append_assoc,
    literalFrom_leading hgs hhead (List.cons_ne_nil g _)]
  rfl

theorem isLineStart_next (hk : k < n) (hrest : ∀ c ∈ rest.head?, isGap c = false) : IsLineStart n k rest :=
  ⟨Nat.le_of_lt hk, fun _ => hrest, fun c hc => isBreak_eq_false_of_isGap (hrest c hc)⟩

theorem head?_linesFrom (hne : cs ≠ []) (hhead : ∀ c ∈ cs.head?, isBreak c = false) :
    (linesFrom n cs ++ rest).head? = cs.head? := by
  obtain ⟨c, cs, rfl⟩ := List.exists_cons_of_ne_nil hne
  rw [linesFrom, literalFrom, hhead c rfl, if_neg Bool.false_ne_true]
  rfl

theorem isLineStart_line {cs : List Char} (hne : cs ≠ []) (hhead : ∀ c ∈ cs.head?, isBreak c = false)
    (rest : List Char) :
    IsLineStart n n (linesFrom n cs ++ rest) := by
  refine ⟨Nat.le_refl n, fun hlt => absurd hlt (Nat.lt_irrefl n), ?_⟩
  rw [head?_linesFrom hne hhead]
  exact hhead

/-- The last line of a block, with the breaks after it. -/
theorem blockLines_last (hw : ∀ c ∈ w, isBreak c = false) (hne : w ≠ []) (hcolumn : p.column = n)
    (hp : p.rest = w ++ g :: (bs ++ (spaces k ++ rest))) (hbs : ∀ b ∈ g :: bs, IsWrittenBreak b)
    (hk : k < n) (hrest : ∀ c ∈ rest.head?, isGap c = false) (hfuel : bs.length < fuel + 1) :
    blockLines (fuel + 1) true n first more blankLine p = some (first ++ more ++ w, [g], bs,
      (p.skip w.length).afterBreaks (bs.length + 1) k rest) := by
  obtain ⟨blank, hread⟩ : ∃ blank, blockLines (fuel + 1) true n first more blankLine p = _ :=
    blockLines_line hw hne hcolumn hp hbs (isLineStart_next hk hrest) hfuel
  have hend : blockLines fuel true n [g] bs blank
      ((p.skip w.length).afterBreaks (bs.length + 1) k rest) = _ :=
    blockLines_end (.inl (Nat.ne_of_lt hk))
  rw [hread, hend, Option.bind_some]
  dsimp only
  rw [List.append_nil]

/-- The lines of a block give its text: what they give apart at the end is what the mark makes of it. -/
theorem blockLines_lines (hprint : ∀ c ∈ cs, isPrintable c = true) (hne : cs ≠ [])
    (hhead : ∀ c ∈ cs.head?, isBreak c = false) (hcolumn : p.column = n) (hk : k < n)
    (hrest : ∀ c ∈ rest.head?, isGap c = false) (hp : p.rest = linesFrom n cs ++ (spaces k ++ rest))
    (hfuel : p.rest.length < fuel) :
    ∃ body lastBreak last q, blockLines fuel true n first more blankLine p
      = some (first ++ more ++ body, lastBreak, last, q)
      ∧ (chompOf (chompMark cs)).text body lastBreak last = cs ∧ q.rest = rest ∧ q.column = k ∧ p.line < q.line := by
  induction cs using gap_induction isBreak generalizing p fuel first more blankLine with
  | word w hw =>
    obtain ⟨fuel, rfl⟩ : ∃ m, fuel = m + 1 := ⟨fuel - 1, by omega⟩
    have hline : p.rest = w ++ '\n' :: ([] ++ (spaces k ++ rest)) := by
      rw [hp, linesFrom_line hw hne, List.append_assoc]
      rfl
    have hfeed : ∀ b ∈ ['\n'], IsWrittenBreak b := List.forall_mem_singleton.mpr ⟨rfl, rfl⟩
    have hread : blockLines (fuel + 1) true n first more blankLine p = _ :=
      blockLines_last hw hne hcolumn hline hfeed hk hrest (Nat.succ_pos fuel)
    refine ⟨w, ['\n'], [], _, hread, ?_, rfl, rfl, Nat.lt_succ_self p.line⟩
    rw [chompOf_line hw hne]
    rfl
  | gapped w g gs cs hw hg hgs hnext ih =>
    obtain ⟨fuel, rfl⟩ : ∃ m, fuel = m + 1 := ⟨fuel - 1, by omega⟩
    have hbreaks : ∀ b ∈ g :: gs, isBreak b = true := List.forall_mem_cons.mpr ⟨hg, hgs⟩
    have hwritten : ∀ b ∈ g :: gs, IsWrittenBreak b := fun b hb => ⟨hbreaks b hb, hprint b (by
      rw [← List.cons_append]
      exact List.mem_append_right _ (List.mem_append_left _ hb))⟩
    have hword : w ≠ [] := by
      rintro rfl
      exact absurd hg (Bool.not_eq_true _ ▸ hhead g rfl)
    rw [linesFrom_breaks hw hbreaks hnext, List.append_assoc, List.cons_append, List.append_assoc] at hp
    have hlen := congrArg List.length hp
    rw [List.length_append, List.length_cons, List.length_append] at hlen
    have hline : p.line < p.line + (gs.length + 1) := Nat.lt_add_of_pos_right (Nat.succ_pos _)
    by_cases hcs : cs = []
    · subst hcs
      rw [if_pos rfl, List.nil_append] at hp
      refine ⟨w, [g], gs, _, blockLines_last hw hword hcolumn hp hwritten hk hrest (by omega), ?_, rfl, rfl, hline⟩
      rw [List.append_nil]
      exact Chomp.text_breaks hw hword hbreaks
    · rw [if_neg hcs, List.append_assoc] at hp
      obtain ⟨blank, hread⟩ : ∃ blank, blockLines (fuel + 1) true n first more blankLine p = _ :=
        blockLines_line hw hword hcolumn hp hwritten (isLineStart_line hcs hnext _) (by omega)
      rw [if_neg hcs] at hlen
      simp only [List.length_append] at hlen
      have hfuel' : (linesFrom n cs ++ (spaces k ++ rest)).length < fuel := by
        simp only [List.length_append]
        omega
      obtain ⟨body, lastBreak, last, q, hmore, hchomp, hq, hqcolumn, hqline⟩ :
          ∃ body lastBreak last q, blockLines fuel true n [g] gs blank
            ((p.skip w.length).afterBreaks (gs.length + 1) n _)
            = some ([g] ++ gs ++ body, lastBreak, last, q) ∧ _ :=
        ih (fun c hc => hprint c (by simp [hc])) hcs hnext rfl rfl hfuel'
      refine ⟨w ++ ([g] ++ gs ++ body), lastBreak, last, q, ?_, ?_, hq, hqcolumn, Nat.lt_trans hline hqline⟩
      · rw [hread, hmore, Option.bind_some]
        simp only [List.append_assoc]
      · have hassoc : w ++ g :: (gs ++ cs) = (w ++ g :: gs) ++ cs := by rw [List.append_assoc, List.cons_append]
        rw [hassoc, chompMark_append hcs hnext, ← List.append_assoc, Chomp.text_append, hchomp]
        rfl

end

/-! ## blocks -/

section
variable {p : Point} {cs rest : List Char} {n outer k : Nat}

theorem chompMark_cases (cs : List Char) : chompMark cs = ['-'] ∨ chompMark cs = [] ∨ chompMark cs = ['+'] := by
  unfold chompMark
  split
  · exact .inl rfl
  · split
    · exact .inl rfl
    · split
      · exact .inr (.inr rfl)
      · exact .inr (.inl rfl)

/-- The indentation that a block gives. -/
def givenIndent? (cs : List Char) : Option Nat := if indentMark cs = [] then none else some 2

theorem blockHeader?_marks {r : List Char} (hr : r ≠ []) (hp : p.rest = indentMark cs ++ (chompMark cs ++ '\n' :: r)) :
    blockHeader? p = some (chompOf (chompMark cs), givenIndent? cs, p.skip (indentMark cs ++ chompMark cs).length) := by
  obtain ⟨c, r, rfl⟩ := List.exists_cons_of_ne_nil hr
  have hindent : indentMark cs = ['2'] ∨ indentMark cs = [] := by
    unfold indentMark
    exact ite_eq_or_eq _ _ _
  rw [givenIndent?]
  rcases hindent with hi | hi <;> rcases chompMark_cases cs with hm | hm | hm <;> rw [hi, hm] at hp ⊢ <;>
    unfold blockHeader? <;> rw [hp] <;> rfl

theorem endLine?_feed {r : List Char} (hp : p.rest = '\n' :: r) : p.endLine? = some p.afterBreak := by
  have hblanks : p.skipBlanks = p := Point.skipWhile_none (by rw [hp]; rintro d ⟨⟩; decide)
  have hcomment : p.skipComment = p := by
    rw [Point.skipComment, hp, if_neg (by simp)]
  rw [Point.endLine?, hblanks, hcomment, Point.passBreak_cons hp rfl (by decide)]
  dsimp only
  rw [hp]
  rfl

/-- The indentation that a block gives, inside a collection at the column `outer`. -/
theorem givenIndent?_inside (cs : List Char) (outer : Nat) :
    ((givenIndent? cs).map fun n => if 0 ≤ (outer : Int) then (outer : Int).toNat + n else n) =
      if indentMark cs = [] then none else some (outer + 2) := by
  rw [givenIndent?]
  by_cases h : indentMark cs = []
  · rw [if_pos h, if_pos h, Option.map_none]
  · rw [if_neg h, if_neg h, Option.map_some, if_pos (Int.natCast_nonneg outer), Int.toNat_natCast]

/-- A block from its parts: its header, its empty lines and then the others. -/
theorem blockScalar?_parts {p' q q' e : Point} {chomp : Chomp} {digit given : Option Nat} {widest : Nat}
    {more text lastBreak last : List Char} (hheader : blockHeader? p = some (chomp, digit, p'))
    (hend : p'.endLine? = some q)
    (hgiven : (digit.map fun n => if 0 ≤ (outer : Int) then (outer : Int).toNat + n else n) = given)
    (hempty : emptyLines (q.rest.length + 1) given 0 q = some (widest, more, q'))
    (hindent : given.getD (max widest (max ((outer : Int) + 1) 1).toNat) = n)
    (hlines : blockLines (q'.rest.length + 1) true n [] more false q' = some (text, lastBreak, last, e)) :
    blockScalar? true outer p = some (chomp.text text lastBreak last, e) := by
  unfold blockScalar?
  rw [hheader]
  show (p'.endLine?).bind _ = _
  rw [hend]
  show (emptyLines _ _ _ _).bind _ = _
  rw [hgiven, hempty]
  show (blockLines _ _ _ _ _ _ _).bind _ = _
  rw [hindent, hlines]
  cases chomp <;> rfl

/-- The empty lines of a block that has others. -/
theorem emptyLines_literal {bs ls : List Char} (hprint : ∀ c ∈ bs ++ ls, isPrintable c = true)
    (hbs : ∀ b ∈ bs, isBreak b = true) (hls : ls ≠ []) (hnext : ∀ c ∈ ls.head?, isBreak c = false)
    (hp : p.rest = bs ++ (spaces (outer + 2) ++ (linesFrom (outer + 2) ls ++ rest))) (hcolumn : p.column = 0) :
    ∃ widest, emptyLines (p.rest.length + 1) (if indentMark (bs ++ ls) = [] then none else some (outer + 2)) 0 p
        = some (widest, bs, p.afterBreaks bs.length (outer + 2) (linesFrom (outer + 2) ls ++ rest))
      ∧ (if indentMark (bs ++ ls) = [] then none else some (outer + 2)).getD
          (max widest (max ((outer : Int) + 1) 1).toNat) = outer + 2 := by
  by_cases hmark : indentMark (bs ++ ls) = []
  · have hfirst : (bs ++ ls).head?.any (fun c => c == ' ' || isBreak c) = false := by
      rw [indentMark] at hmark
      split at hmark
      · cases hmark
      next h => simpa using h
    obtain rfl : bs = [] := by
      cases bs with
      | nil => rfl
      | cons b bs =>
        rw [List.cons_append, List.head?_cons, Option.any_some, hbs b List.mem_cons_self, Bool.or_true] at hfirst
        cases hfirst
    have hgap : ∀ c ∈ (linesFrom (outer + 2) ls ++ rest).head?, isGap c = false := fun c hc => by
      rw [head?_linesFrom hls hnext] at hc
      rw [List.nil_append, Option.mem_def.mp hc] at hfirst
      rw [isGap_of_isPrintable (hprint c (List.mem_of_mem_head? hc))]
      exact hfirst
    refine ⟨outer + 2, ?_, ?_⟩
    · rw [if_pos hmark]
      exact emptyLines_unknown hp hcolumn hgap
    · rw [if_pos hmark, Option.getD_none]
      omega
  · have hwritten : ∀ b ∈ bs, IsWrittenBreak b := fun b hb => ⟨hbs b hb, hprint b (List.mem_append_left _ hb)⟩
    have hlen := congrArg List.length hp
    rw [List.length_append] at hlen
    obtain ⟨widest, hempty⟩ : ∃ w, emptyLines (p.rest.length + 1) (some (outer + 2)) 0 p = some (w, _) :=
      emptyLines_given hp hcolumn hwritten (isLineStart_line hls hnext rest) (by omega)
    refine ⟨widest, ?_, ?_⟩
    · rw [if_neg hmark]
      exact hempty
    · rw [if_neg hmark, Option.getD_some]

/-- The header of a block, its mark passed, is read up to the lines of the block. -/
theorem blockHeader?_literal {bs ls tail : List Char} (hbs : ∀ b ∈ bs, isBreak b = true)
    (hnext : ∀ c ∈ ls.head?, isBreak c = false) (hne : bs ++ ls ≠ [])
    (hp : '|' :: p.rest = literal n (bs ++ ls) ++ tail) :
    ∃ p' q, blockHeader? p = some (chompOf (chompMark (bs ++ ls)), givenIndent? (bs ++ ls), p')
      ∧ p'.endLine? = some q ∧ q.rest = bs ++ ((if ls = [] then [] else spaces n ++ linesFrom n ls) ++ tail)
      ∧ q.column = 0 ∧ q.line = p.line + 1 := by
  obtain ⟨r, hr⟩ : ∃ r, r = bs ++ ((if ls = [] then [] else spaces n ++ linesFrom n ls) ++ tail) := ⟨_, rfl⟩
  have hrne : r ≠ [] := by
    rintro rfl
    obtain ⟨rfl, hlines⟩ := List.append_eq_nil_iff.mp hr.symm
    rw [List.nil_append] at hne
    rw [if_neg hne, List.append_assoc, List.append_eq_nil_iff] at hlines
    have hhead : (linesFrom n ls ++ tail).head? = ls.head? := head?_linesFrom hne hnext
    rw [hlines.2] at hhead
    exact hne (List.head?_eq_none_iff.mp hhead.symm)
  have hmarks : p.rest = indentMark (bs ++ ls) ++ (chompMark (bs ++ ls) ++ '\n' :: r) := by
    have htext := literalFrom_leading (n := n) hbs hnext hne
    rw [hr, ← List.append_assoc bs, ← htext]
    simpa [literal] using hp
  have hheader := blockHeader?_marks hrne hmarks
  rw [← List.append_assoc] at hmarks
  have hfeed := Point.rest_skip hmarks
  exact ⟨_, _, hheader, endLine?_feed hfeed, (congrArg List.tail hfeed).trans hr, rfl, rfl⟩

/-- A block of empty lines only. -/
theorem blockScalar?_breaks {bs : List Char} {p' q : Point} (hbs : ∀ b ∈ bs, IsWrittenBreak b) (hne : bs ≠ [])
    (hheader : blockHeader? p = some (chompOf (chompMark bs), givenIndent? bs, p')) (hend : p'.endLine? = some q)
    (hq : q.rest = bs ++ (spaces k ++ rest)) (hcolumn : q.column = 0) (hk : k < outer + 2)
    (hrest : ∀ c ∈ rest.head?, isGap c = false) :
    blockScalar? true outer p = some (bs, q.afterBreaks bs.length k rest) := by
  have hmark : indentMark bs ≠ [] := by
    obtain ⟨b, bs, rfl⟩ := List.exists_cons_of_ne_nil hne
    rw [indentMark, List.head?_cons, Option.any_some, (hbs b List.mem_cons_self).1, Bool.or_true, if_pos rfl]
    exact List.cons_ne_nil _ _
  have hlen := congrArg List.length hq
  rw [List.length_append] at hlen
  obtain ⟨widest, hempty⟩ : ∃ w, emptyLines (q.rest.length + 1) (some (outer + 2)) 0 q = some (w, _) :=
    emptyLines_given hq hcolumn hbs (isLineStart_next hk hrest) (by omega)
  have hgiven := givenIndent?_inside bs outer
  rw [if_neg hmark] at hgiven
  rw [blockScalar?_parts hheader hend hgiven hempty rfl (blockLines_end (.inl (Nat.ne_of_lt hk))),
    ← List.nil_append bs, chompOf_breaks (fun b hb => (hbs b hb).1) hne rfl]
  rfl

/-- A block with its mark passed, inside a collection at the column `outer`, is read up to the line after it. -/
theorem blockScalar?_literal (hprint : ∀ c ∈ cs, isPrintable c = true) (hne : cs ≠ [])
    (hp : '|' :: p.rest = literal (outer + 2) cs ++ (spaces k ++ rest)) (hk : k ≤ outer)
    (hrest : ∀ c ∈ rest.head?, isGap c = false) :
    ∃ q, blockScalar? true outer p = some (cs, q) ∧ q.rest = rest ∧ q.column = k ∧ p.line < q.line := by
  obtain ⟨bs, ls, rfl, hbs, hnext⟩ := exists_leading isBreak cs
  obtain ⟨p', q, hheader, hend, hq, hcolumn, hline⟩ := blockHeader?_literal hbs hnext hne hp
  have hk' : k < outer + 2 := by omega
  by_cases hls : ls = []
  · subst hls
    rw [List.append_nil] at hne hprint hheader ⊢
    rw [if_pos rfl, List.nil_append] at hq
    refine ⟨_, blockScalar?_breaks (fun b hb => ⟨hbs b hb, hprint b hb⟩) hne hheader hend hq hcolumn hk' hrest, rfl,
      rfl, ?_⟩
    show p.line < q.line + bs.length
    omega
  · rw [if_neg hls, List.append_assoc] at hq
    obtain ⟨widest, hempty, hindent⟩ := emptyLines_literal hprint hbs hls hnext hq hcolumn
    obtain ⟨body, lastBreak, last, e, hlines, htext, he, hecolumn, heline⟩ :
        ∃ body lastBreak last e, blockLines _ true (outer + 2) [] bs false
            (q.afterBreaks bs.length (outer + 2) (linesFrom (outer + 2) ls ++ (spaces k ++ rest)))
          = some ([] ++ bs ++ body, lastBreak, last, e) ∧ _ :=
      blockLines_lines (fun c hc => hprint c (List.mem_append_right _ hc)) hls hnext rfl hk' hrest rfl
        (Nat.lt_succ_self _)
    refine ⟨e, ?_, he, hecolumn, Nat.lt_of_le_of_lt (show p.line ≤ q.line + bs.length by omega) heline⟩
    rw [blockScalar?_parts hheader hend (givenIndent?_inside _ outer) hempty hindent hlines,
      chompMark_append hls hnext, List.nil_append, Chomp.text_append, htext]

end

end DeviceSettings.Yaml

import DeviceSettings.Yaml.Printer
import Mathlib.Data.List.TakeWhile

/-!
# Points in what is written

The characters that are written are allowed ones, of which few are gaps (`isGap_of_isPrintable`).  Texts are taken
apart at their gaps (`gap_induction`), and points move over what was written: along a line by `skip`, over the gap to
the next word by `gap?`.
-/

namespace DeviceSettings.Yaml

open Printer (anyBetween isPrintable spaces)

/-! ## characters -/

theorem isAllowed_of_isPrintable {c : Char} (h : isPrintable c = true) : isAllowed c = true := by
  simp only [isPrintable, Bool.or_eq_true, Bool.and_eq_true, decide_eq_true_eq, beq_iff_eq, bne_iff_ne] at h
  simp only [isAllowed, Bool.or_eq_true, Bool.and_eq_true, decide_eq_true_eq, beq_iff_eq]
  omega

theorem ne_of_isPrintable {c d : Char} (h : isPrintable c = true) (hd : isPrintable d = false) : c ≠ d := by
  rintro rfl
  rw [h] at hd
  cases hd

/-- A tab is written as an escape, so blanks are spaces. -/
theorem isBlank_of_isPrintable {c : Char} (h : isPrintable c = true) : isBlank c = (c == ' ') := by
  rw [isBlank, beq_false_of_ne (ne_of_isPrintable h (by decide : isPrintable '\t' = false)), Bool.or_false]

theorem isGap_of_isPrintable {c : Char} (h : isPrintable c = true) : isGap c = (c == ' ' || isBreak c) := by
  rw [isGap, isBlank_of_isPrintable h]

/-- The breaks that are written are line feeds and separators. -/
theorem isBreak_of_isPrintable {c : Char} (h : isPrintable c = true) :
    isBreak c = (c == '\n' || isSeparator c) := by
  rw [isBreak, beq_false_of_ne (ne_of_isPrintable h (by decide : isPrintable '\r' = false)),
    beq_false_of_ne (ne_of_isPrintable h (by decide : isPrintable '\u0085' = false)), Bool.or_false, Bool.or_false]

theorem isGap_of_isBreak {c : Char} (h : isBreak c = true) : isGap c = true := by
  rw [isGap, h, Bool.or_true]

theorem isBreak_eq_false_of_isGap {c : Char} (h : isGap c = false) : isBreak c = false := by
  rw [isGap, Bool.or_eq_false_iff] at h
  exact h.2

theorem isBlank_eq_false_of_isGap {c : Char} (h : isGap c = false) : isBlank c = false := by
  rw [isGap, Bool.or_eq_false_iff] at h
  exact h.1

theorem isBlank_eq_false_of_isBreak {c : Char} (h : isBreak c = true) : isBlank c = false := by
  simp only [isBreak, isSeparator, Bool.or_eq_true, beq_iff_eq] at h
  rcases h with ((rfl | rfl) | rfl) | rfl | rfl <;> decide

theorem ne_space_of_isGap {c : Char} (h : isGap c = false) : c ≠ ' ' := by
  rintro rfl
  exact absurd h (by decide)

theorem ne_space_of_isBreak {c : Char} (h : isBreak c = true) : c ≠ ' ' := by
  rintro rfl
  exact absurd h (by decide)

/-! ## neighbours -/

/-- What no character between its neighbours is, is none of a later part either. -/
theorem anyBetween_append {test : Option Char → Char → Option Char → Bool} {before : Option Char} {xs ys : List Char}
    (h : anyBetween test before (xs ++ ys) = false) : anyBetween test (xs.getLast?.or before) ys = false := by
  induction xs generalizing before with
  | nil => exact h
  | cons x xs ih =>
    rw [List.cons_append, anyBetween, Bool.or_eq_false_iff] at h
    have hrest := ih h.2
    rw [List.getLast?_cons]
    cases hlast : xs.getLast? <;> rw [hlast] at hrest <;> exact hrest

theorem anyBetween_cons {test : Option Char → Char → Option Char → Bool} {before : Option Char} {c : Char}
    {cs : List Char} (h : anyBetween test before (c :: cs) = false) :
    test before c cs.head? = false ∧ anyBetween test (some c) cs = false := by
  rwa [anyBetween, Bool.or_eq_false_iff] at h

/-! ## runs -/

section
variable {α : Type} {ok : α → Bool} {xs ys : List α}

theorem takeWhile_run (hx : ∀ x ∈ xs, ok x = true) (hy : ∀ y ∈ ys.head?, ok y = false) :
    (xs ++ ys).takeWhile ok = xs := by
  rw [List.takeWhile_append_of_pos hx]
  cases ys with
  | nil => rw [List.takeWhile_nil, List.append_nil]
  | cons y ys => rw [List.takeWhile_cons_of_neg (by simp [hy y rfl]), List.append_nil]

theorem takeWhile_none (hy : ∀ y ∈ ys.head?, ok y = false) : ys.takeWhile ok = [] := by
  have hrun : ([] ++ ys).takeWhile ok = [] := takeWhile_run nofun hy
  exact hrun

end

/-- The characters of a class that a text begins with. -/
theorem exists_leading (ok : Char → Bool) (cs : List Char) :
    ∃ xs ys, cs = xs ++ ys ∧ (∀ c ∈ xs, ok c = true) ∧ ∀ c ∈ ys.head?, ok c = false := by
  refine ⟨cs.takeWhile ok, cs.dropWhile ok, List.takeWhile_append_dropWhile.symm, fun c hc => List.mem_takeWhile_imp hc,
    fun c hc => ?_⟩
  have hhead := List.head?_dropWhile_not ok cs
  rw [Option.mem_def.mp hc] at hhead
  simpa using hhead

/-- A text is a word, or a word and a gap before another text that begins with a word. -/
theorem gap_induction (gap : Char → Bool) {P : List Char → Prop} (word : ∀ w, (∀ c ∈ w, gap c = false) → P w)
    (gapped : ∀ w g gs cs, (∀ c ∈ w, gap c = false) → gap g = true → (∀ c ∈ gs, gap c = true) →
      (∀ c ∈ cs.head?, gap c = false) → P cs → P (w ++ g :: (gs ++ cs))) (cs : List Char) : P cs := by
  induction hn : cs.length using Nat.strongRecOn generalizing cs with
  | _ n ih =>
    obtain ⟨w, rest, rfl, hw, hrest⟩ := exists_leading (fun c => !gap c) cs
    have hw' : ∀ c ∈ w, gap c = false := fun c hc => by simpa using hw c hc
    cases rest with
    | nil =>
      rw [List.append_nil]
      exact word w hw'
    | cons g rest =>
      obtain ⟨gs, cs, rfl, hgs, hnext⟩ := exists_leading gap rest
      simp only [List.length_append, List.length_cons] at hn
      exact gapped w g gs cs hw' (by simpa using hrest g rfl) hgs hnext (ih cs.length (by omega) cs rfl)

theorem eq_spaces {cs : List Char} (h : ∀ c ∈ cs, c = ' ') : cs = spaces cs.length :=
  List.eq_replicate_iff.mpr ⟨rfl, h⟩

/-- A text of words with spaces between them. -/
theorem space_induction {P : List Char → Prop} (word : ∀ w, (∀ c ∈ w, c ≠ ' ') → P w)
    (spaced : ∀ w n cs, (∀ c ∈ w, c ≠ ' ') → (∀ c ∈ cs.head?, c ≠ ' ') → P cs → P (w ++ (spaces (n + 1) ++ cs)))
    (cs : List Char) : P cs := by
  induction cs using gap_induction (· == ' ') with
  | word w hw => exact word w fun c hc => by simpa using hw c hc
  | gapped w g gs cs hw hg hgs hnext ih =>
    have hspaces : g :: gs = spaces (gs.length + 1) := eq_spaces fun c hc => by
      rcases List.mem_cons.mp hc with rfl | hc
      · simpa using hg
      · simpa using hgs c hc
    have hsplit := spaced w gs.length cs (fun c hc => by simpa using hw c hc) (fun c hc => by simpa using hnext c hc) ih
    rwa [← hspaces] at hsplit

theorem getLast?_spaces (w : List Char) (n : Nat) : (w ++ spaces (n + 1)).getLast? = some ' ' := by
  rw [List.getLast?_append, spaces, List.getLast?_replicate, if_neg (Nat.succ_ne_zero n), Option.some_or]

theorem getLast?_breaks {g : Char} {gs : List Char} (h : ∀ b ∈ g :: gs, isBreak b = true) (w : List Char) :
    ∃ b, isBreak b = true ∧ (w ++ g :: gs).getLast? = some b := by
  refine ⟨(g :: gs).getLast (List.cons_ne_nil _ _), h _ (List.getLast_mem _), ?_⟩
  rw [List.getLast?_append, List.getLast?_eq_some_getLast (List.cons_ne_nil _ _), Option.some_or]

/-! ## points -/

namespace Point

variable {p : Point} {xs ys : List Char}

theorem rest_skip (h : p.rest = xs ++ ys) : (p.skip xs.length).rest = ys := by
  show p.rest.drop xs.length = ys
  rw [h, List.drop_left]

theorem rest_skip_one {c : Char} {r : List Char} (h : p.rest = c :: r) : (p.skip 1).rest = r := by
  show p.rest.drop 1 = r
  rw [h, List.drop_one, List.tail_cons]

theorem skip_zero (p : Point) : p.skip 0 = p := rfl

theorem skip_skip (p : Point) (m n : Nat) : (p.skip m).skip n = p.skip (m + n) := by
  simp [skip, Nat.add_assoc]

theorem skipWhile_run {ok : Char → Bool} (h : p.rest = xs ++ ys) (hx : ∀ x ∈ xs, ok x = true)
    (hy : ∀ y ∈ ys.head?, ok y = false) : p.skipWhile ok = p.skip xs.length := by
  rw [skipWhile, h, takeWhile_run hx hy]

theorem skipWhile_none {ok : Char → Bool} (hy : ∀ y ∈ p.rest.head?, ok y = false) : p.skipWhile ok = p := by
  rw [skipWhile, takeWhile_none hy]
  rfl

/-- What a break counts as. -/
def breakText (c : Char) : List Char := [if isSeparator c then c else '\n']

/-- The point after a break. -/
def afterBreak (p : Point) : Point := ⟨p.rest.tail, p.index + 1, p.line + 1, 0⟩

theorem passBreak_cons {c : Char} {r : List Char} (h : p.rest = c :: r) (hc : isBreak c = true)
    (hr : c ≠ '\r') : p.passBreak = (breakText c, p.afterBreak) := by
  unfold passBreak
  rw [h]
  split
  next heq => exact absurd (List.cons.inj heq).1 hr
  next heq =>
    obtain ⟨rfl, rfl⟩ := List.cons.inj heq
    rw [if_pos hc, afterBreak, h]
    rfl
  next heq => cases heq

end Point

/-! ## gaps -/

open Point (breakText)

namespace Point

/-- Where a text goes on after the breaks of a gap and the blanks of the next line. -/
def afterBreaks (p : Point) (breaks blanks : Nat) (rest : List Char) : Point :=
  ⟨rest, p.index + breaks + blanks, p.line + breaks, blanks⟩

theorem afterBreaks_afterBreak (p : Point) (breaks blanks : Nat) (rest : List Char) :
    p.afterBreak.afterBreaks breaks blanks rest = p.afterBreaks (breaks + 1) blanks rest := by
  simp [afterBreaks, afterBreak, Nat.add_assoc, Nat.add_comm 1]

end Point

theorem breakText_of_isSeparator {c : Char} (h : isSeparator c = true) : breakText c = [c] := by
  rw [breakText, if_pos h]

/-- The breaks that are written count as themselves. -/
theorem breakText_of_isPrintable {c : Char} (h : isPrintable c = true) (hc : isBreak c = true) : breakText c = [c] := by
  rw [isBreak_of_isPrintable h, Bool.or_eq_true, beq_iff_eq] at hc
  rcases hc with rfl | hc
  · rfl
  · exact breakText_of_isSeparator hc

theorem flatMap_breakText {bs : List Char} (h : ∀ b ∈ bs, breakText b = [b]) : bs.flatMap breakText = bs := by
  induction bs with
  | nil => rfl
  | cons b bs ih =>
    rw [List.flatMap_cons, ih fun c hc => h c (List.mem_cons_of_mem _ hc), h b List.mem_cons_self]
    rfl

theorem length_spaces (n : Nat) : (spaces n).length = n := List.length_replicate

theorem isBlank_of_mem_spaces {n : Nat} {c : Char} (h : c ∈ spaces n) : isBlank c = true := by
  rw [List.eq_of_mem_replicate h]
  rfl

theorem any_isBreak_head? {cs : List Char} (h : ∀ c ∈ cs.head?, isGap c = false) : cs.head?.any isBreak = false := by
  cases cs with
  | nil => rfl
  | cons c cs => exact isBreak_eq_false_of_isGap (h c rfl)

section
variable {p : Point} {n k fuel : Nat} {rest : List Char}

theorem rest_skip_spaces (h : p.rest = spaces n ++ rest) : (p.skip n).rest = rest := by
  have hskip := Point.rest_skip h
  rwa [length_spaces] at hskip

theorem skip_spaces (h : p.rest = spaces n ++ rest) (hcolumn : p.column = 0) : p.skip n = p.afterBreaks 0 n rest := by
  rw [Point.afterBreaks, ← rest_skip_spaces h, Point.skip, hcolumn, Nat.zero_add]
  rfl

theorem takeWhile_spaces (hrest : ∀ c ∈ rest.head?, isGap c = false) :
    (spaces n ++ rest).takeWhile isBlank = spaces n :=
  takeWhile_run (fun _ => isBlank_of_mem_spaces) fun c hc => isBlank_eq_false_of_isGap (hrest c hc)

theorem contains_tab_take_spaces : ((spaces n).take k).contains '\t' = false := by
  rw [List.contains_eq_mem, decide_eq_false_iff_not]
  intro h
  exact absurd (List.eq_of_mem_replicate (List.mem_of_mem_take h)) (by decide)

variable (least : Int)

/-- Blanks between words of one line. -/
theorem gap?_blanks (h : p.rest = spaces n ++ rest) (hrest : ∀ c ∈ rest.head?, isGap c = false) :
    gap? fuel least p = some (.blanks (spaces n), p.skip n) := by
  rw [gap?, h, takeWhile_spaces hrest]
  dsimp only
  rw [length_spaces, rest_skip_spaces h, any_isBreak_head? hrest, if_neg Bool.false_ne_true]

/-- The breaks of empty lines and the blanks of the line after them. -/
theorem breaksFrom_breaks {bs : List Char} (h : p.rest = bs ++ (spaces n ++ rest)) (hp : p.column = 0)
    (hbs : ∀ b ∈ bs, isBreak b = true ∧ b ≠ '\r') (hrest : ∀ c ∈ rest.head?, isGap c = false)
    (hfuel : bs.length ≤ fuel) :
    breaksFrom fuel least p = some (bs.flatMap breakText, p.afterBreaks bs.length n rest) := by
  induction bs generalizing p fuel with
  | nil =>
    rw [List.nil_append] at h
    unfold breaksFrom
    dsimp only
    rw [h, takeWhile_spaces hrest, contains_tab_take_spaces, if_neg Bool.false_ne_true, length_spaces,
      rest_skip_spaces h, any_isBreak_head? hrest, if_neg Bool.false_ne_true, skip_spaces h hp]
    rfl
  | cons b bs ih =>
    obtain ⟨fuel, rfl⟩ : ∃ m, fuel = m + 1 := ⟨fuel - 1, by rw [List.length_cons] at hfuel; omega⟩
    obtain ⟨hb, hr⟩ := hbs b List.mem_cons_self
    rw [List.cons_append] at h
    have hnext : p.afterBreak.rest = bs ++ (spaces n ++ rest) := by rw [Point.afterBreak, h, List.tail_cons]
    have hmore := ih hnext rfl (fun c hc => hbs c (List.mem_cons_of_mem _ hc)) (Nat.le_of_succ_le_succ hfuel)
    unfold breaksFrom
    dsimp only
    rw [h, List.takeWhile_cons_of_neg (by simp [isBlank_eq_false_of_isBreak hb]), List.take_nil, List.length_nil,
      Point.skip_zero, h, List.head?_cons, Option.any_some, hb, if_pos rfl, Point.passBreak_cons h hb hr]
    dsimp only
    rw [hmore, Point.afterBreaks_afterBreak, List.flatMap_cons]
    rfl

/-- A break, those of empty lines, and the blanks of the next line. -/
theorem gap?_breaks {b : Char} {bs : List Char} (h : p.rest = b :: (bs ++ (spaces n ++ rest)))
    (hbs : ∀ c ∈ b :: bs, isBreak c = true ∧ c ≠ '\r') (hrest : ∀ c ∈ rest.head?, isGap c = false)
    (hfuel : bs.length ≤ fuel) :
    gap? fuel least p = some (.breaks (breakText b) (bs.flatMap breakText), p.afterBreaks (bs.length + 1) n rest) := by
  obtain ⟨hb, hr⟩ := hbs b List.mem_cons_self
  have hnext : p.afterBreak.rest = bs ++ (spaces n ++ rest) := by rw [Point.afterBreak, h, List.tail_cons]
  have hmore := breaksFrom_breaks least hnext rfl (fun c hc => hbs c (List.mem_cons_of_mem _ hc)) hrest hfuel
  rw [gap?, h, List.takeWhile_cons_of_neg (by simp [isBlank_eq_false_of_isBreak hb])]
  dsimp only
  rw [List.length_nil, Point.skip_zero, h, List.head?_cons, Option.any_some, hb, if_pos rfl,
    Point.passBreak_cons h hb hr]
  dsimp only
  rw [hmore, Point.afterBreaks_afterBreak]
  rfl

end

end DeviceSettings.Yaml

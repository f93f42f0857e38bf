import DeviceSettings.Proofs.Text.Numeral
import DeviceSettings.Proofs.Yaml.Scanning

/-!
# What is written

The lines of values: how they begin, which of them a reader takes as one word, and that every character of them is
printable whatever the texts of a value hold (`Printer.all_entryLines`), so that a written document never has a
character that a reader refuses.
-/

namespace DeviceSettings.Yaml

open Printer (afterKey afterMark entryLines isPrintable itemLines spaces style)

/-! ## plain words -/

theorem toNat_of_isDigit {c : Char} (h : c.isDigit = true) : 48 ≤ c.toNat ∧ c.toNat ≤ 57 := by
  simpa [Char.isDigit, UInt32.le_iff_toNat_le] using h

theorem ne_of_isDigit {c d : Char} (h : c.isDigit = true) (hd : d.isDigit = false) : c ≠ d := by
  rintro rfl
  rw [h] at hd
  cases hd

theorem isPlain_boolean (b : Bool) : IsPlain (if b then "true" else "false").toList := by
  cases b
  · exact isPlain_of_mayBePlain (by decide) (by decide)
  · exact isPlain_of_mayBePlain (by decide) (by decide)

theorem not_isIndicator_of_isDigit {c : Char} (h : c.isDigit = true) (before after : Option Char) :
    Printer.isIndicator before c after = false := by
  have hne (d : Char) (hd : d.isDigit = false) : c ≠ d := ne_of_isDigit h hd
  cases before <;> simp [Printer.isIndicator, Printer.isMark, hne]

theorem anyBetween_digits {cs : List Char} (h : ∀ c ∈ cs, c.isDigit = true) (before : Option Char) :
    Printer.anyBetween Printer.isIndicator before cs = false := by
  induction cs generalizing before with
  | nil => rfl
  | cons c cs ih =>
    rw [Printer.anyBetween, not_isIndicator_of_isDigit (h c List.mem_cons_self),
      ih fun d hd => h d (List.mem_cons_of_mem _ hd)]
    rfl

theorem isPlain_digits {cs : List Char} (hne : cs ≠ []) (h : ∀ c ∈ cs, c.isDigit = true) : IsPlain cs := by
  have hline (c : Char) (hc : c ∈ cs) : isPrintable c = true ∧ isBreak c = false := by
    have hne (d : Char) (hd : d.isDigit = false) : c ≠ d := ne_of_isDigit (h c hc) hd
    have hdigit := toNat_of_isDigit (h c hc)
    constructor
    · simp only [isPrintable, Bool.or_eq_true, Bool.and_eq_true, decide_eq_true_eq, beq_iff_eq]
      omega
    · simp [isBreak, isSeparator, hne]
  have hlast : cs.getLast? ≠ some ' ' := fun hlast =>
    absurd (h ' ' (List.mem_of_getLast? hlast)) (by decide)
  have hmarker (c : Char) (hc : c.isDigit = false) : cs.take 3 ≠ [c, c, c] := by
    obtain ⟨d, ds, rfl⟩ := List.exists_cons_of_ne_nil hne
    intro heq
    exact ne_of_isDigit (h d List.mem_cons_self) hc (List.cons.inj heq).1
  refine ⟨hne, hline, fun c hc => ne_of_isDigit (h c (List.mem_of_mem_head? hc)) (by decide), hlast,
    anyBetween_digits h none, ?_⟩
  rw [Printer.isMarkerLike, beq_false_of_ne (hmarker '-' (by decide)), beq_false_of_ne (hmarker '.' (by decide))]
  rfl

theorem toList_toString (n : Nat) : (toString n).toList = Nat.toDigits 10 n := by
  simp

theorem isPlain_natural (n : Nat) : IsPlain (toString n).toList := by
  rw [toList_toString]
  exact isPlain_digits Nat.toDigits_ne_nil fun c hc => Nat.isDigit_of_mem_toDigits (by decide) (by decide) hc

/-! ## lines -/

section
variable {col outer k : Nat} {v : Value} {vs : List Value} {e : String × Value} {es : List (String × Value)}

theorem itemLines_indented : itemLines col true (v :: vs) = spaces col ++ itemLines col false (v :: vs) := by
  simp [itemLines]

theorem entryLines_indented : entryLines col true (e :: es) = spaces col ++ entryLines col false (e :: es) := by
  obtain ⟨key, v⟩ := e
  simp [entryLines]

theorem isStart_itemLines (rest : List Char) : IsStart (itemLines col false (v :: vs) ++ rest) := by
  rw [itemLines]
  exact isStart_cons (by decide) _

theorem isStart_of_isPlain {cs : List Char} (h : IsPlain cs) (rest : List Char) : IsStart (cs ++ rest) := by
  obtain ⟨c, cs, rfl⟩ := List.exists_cons_of_ne_nil h.ne_nil
  refine isStart_cons ⟨isGap_of_mem h.line List.mem_cons_self (h.head c rfl), ?_, ?_⟩ _
  · have hsign : ((c :: cs) ++ []).head? ≠ some '#' :=
      head?_ne_numberSign (.inl rfl) (by rw [List.append_nil]; exact h.within) (List.cons_ne_nil c cs)
    rintro rfl
    exact hsign rfl
  · exact ne_of_isPrintable (h.line c List.mem_cons_self).1 (by decide)

theorem isStart_simpleKey (key : String) (rest : List Char) : IsStart (Printer.simpleKey key ++ rest) := by
  unfold Printer.simpleKey
  dsimp only
  rcases Stream.style_cases key with ⟨hstyle, hcs⟩ | ⟨hstyle, -⟩ | ⟨hstyle, -⟩ | hstyle <;> rw [hstyle]
  · exact isStart_of_isPlain hcs rest
  · exact isStart_cons (by decide) _
  · exact isStart_cons (by decide) _
  · exact isStart_cons (by decide) _

theorem isStart_textLine (s : String) (rest : List Char) : IsStart (Printer.textLine outer s ++ rest) := by
  unfold Printer.textLine
  dsimp only
  rcases Stream.style_cases s with ⟨hstyle, hcs⟩ | ⟨hstyle, -⟩ | ⟨hstyle, -⟩ | hstyle <;> rw [hstyle]
  · rw [List.append_assoc]
    exact isStart_of_isPlain hcs _
  · exact isStart_cons (by decide) _
  · exact isStart_cons (by decide) _
  · exact isStart_cons (by decide) _

theorem isStart_entryLines (rest : List Char) : IsStart (entryLines col false (e :: es) ++ rest) := by
  obtain ⟨key, v⟩ := e
  rw [entryLines, if_neg Bool.false_ne_true, List.nil_append]
  split
  · rw [List.append_assoc, List.append_assoc]
    exact isStart_simpleKey key _
  · exact isStart_cons (by decide) _

theorem itemLines_cons : itemLines col false (v :: vs) = '-' :: (afterMark col v ++ itemLines col true vs) := by
  rw [itemLines]
  rfl

theorem entryLines_cons : entryLines col false (e :: es) = entryLines col false [e] ++ entryLines col true es := by
  obtain ⟨key, v⟩ := e
  rw [entryLines, entryLines, entryLines, List.append_nil]

theorem afterMark_list : afterMark outer (.list (v :: vs)) = ' ' :: itemLines (outer + 2) false (v :: vs) := by
  rw [afterMark]
  exact List.cons_ne_nil v vs

theorem afterMark_map : afterMark outer (.map (e :: es)) = ' ' :: entryLines (outer + 2) false (e :: es) := by
  rw [afterMark]
  exact List.cons_ne_nil e es

theorem afterKey_list :
    afterKey outer (.list (v :: vs)) = '\n' :: (spaces outer ++ itemLines outer false (v :: vs)) := by
  rw [afterKey, itemLines_indented]
  exact List.cons_ne_nil v vs

theorem afterKey_map :
    afterKey outer (.map (e :: es)) = '\n' :: (spaces (outer + 2) ++ entryLines (outer + 2) false (e :: es)) := by
  rw [afterKey, entryLines_indented]
  exact List.cons_ne_nil e es

theorem afterMark_cons (v : Value) : ∃ cs, afterMark outer v = ' ' :: cs := by
  match v with
  | .boolean _ | .natural _ | .text _ | .list [] | .map [] =>
    rw [afterMark]
    exact ⟨_, rfl⟩
  | .list (_ :: _) => exact ⟨_, afterMark_list⟩
  | .map (_ :: _) => exact ⟨_, afterMark_map⟩

theorem gapNext_afterKey (v : Value) (rest : List Char) : gapNext (afterKey outer v ++ rest) = true := by
  match v with
  | .boolean _ | .natural _ | .text _ | .list [] | .map [] =>
    rw [afterKey]
    rfl
  | .list (_ :: _) =>
    rw [afterKey_list]
    rfl
  | .map (_ :: _) =>
    rw [afterKey_map]
    rfl

end

namespace Printer

/-! ## characters -/

section
variable {cs : List Char} {n : Nat}

@[simp] theorem all_spaces (n : Nat) : (spaces n).all isPrintable = true := by
  rw [List.all_eq_true]
  intro c hc
  rw [List.eq_of_mem_replicate hc]
  rfl

theorem all_indent (n : Nat) (indented : Bool) : (if indented then spaces n else []).all isPrintable = true := by
  cases indented
  · rfl
  · exact all_spaces n

theorem all_hex (upper : Bool) (width n : Nat) : (Text.hex upper width n).all isPrintable = true := by
  induction width with
  | zero => rfl
  | succ width ih => rw [hex_succ, List.all_cons, isPrintable_hexChar, ih, Bool.and_self]

theorem all_doubleQuotedChar (c : Char) : (doubleQuotedChar c).all isPrintable = true := by
  unfold doubleQuotedChar
  split
  next hplain =>
    simp only [Bool.and_eq_true] at hplain
    rw [List.all_cons, hplain.1.1.1, List.all_nil, Bool.and_self]
  next =>
    split
    next e he =>
      obtain ⟨-, -, -, hprint⟩ := unescape?_shortEscape? he
      rw [List.all_cons, List.all_cons, hprint]
      rfl
    next =>
      dsimp only
      split
      · rw [List.all_cons, List.all_cons, all_hex]
        rfl
      split <;>
      · rw [List.all_cons, List.all_cons, all_hex]
        rfl

@[simp] theorem all_doubleQuoted (cs : List Char) : (doubleQuoted cs).all isPrintable = true := by
  have hinside : (cs.flatMap doubleQuotedChar).all isPrintable = true := by
    rw [List.all_flatMap, List.all_eq_true]
    exact fun c _ => all_doubleQuotedChar c
  rw [doubleQuoted, List.all_append, List.all_cons, hinside]
  rfl

theorem all_singleQuotedFrom (h : cs.all isPrintable = true) (broken : Bool) :
    (singleQuotedFrom n broken cs).all isPrintable = true := by
  induction cs generalizing broken with
  | nil =>
    rw [singleQuotedFrom]
    exact all_indent n broken
  | cons c cs ih =>
    rw [List.all_cons, Bool.and_eq_true] at h
    have hchar : (if c = '\x27' then ['\x27', '\x27'] else [c]).all isPrintable = true := by
      split
      · rfl
      · rw [List.all_cons, h.1, List.all_nil, Bool.and_self]
    rw [singleQuotedFrom]
    split
    · rw [List.all_cons, h.1, ih h.2, Bool.and_self]
    · rw [List.all_append, List.all_append, all_indent, hchar, ih h.2]
      rfl

theorem all_singleQuoted (h : cs.all isPrintable = true) : (singleQuoted n cs).all isPrintable = true := by
  rw [singleQuoted, List.all_append, List.all_cons, all_singleQuotedFrom h]
  rfl

theorem all_literalFrom (h : cs.all isPrintable = true) (broken : Bool) :
    (literalFrom n broken cs).all isPrintable = true := by
  induction cs generalizing broken with
  | nil => rfl
  | cons c cs ih =>
    rw [List.all_cons, Bool.and_eq_true] at h
    rw [literalFrom]
    split
    · rw [List.all_cons, h.1, ih h.2, Bool.and_self]
    · rw [List.all_append, List.all_cons, h.1, ih h.2, all_indent]
      rfl

theorem all_literal (h : cs.all isPrintable = true) : (literal n cs).all isPrintable = true := by
  have hindent : (indentMark cs).all isPrintable = true := by
    unfold indentMark
    split <;> rfl
  have hchomp : (chompMark cs).all isPrintable = true := by
    rcases chompMark_cases cs with hcs | hcs | hcs <;> rw [hcs] <;> rfl
  have hend : (if cs.getLast?.any isBreak then [] else ['\n']).all isPrintable = true := by
    split <;> rfl
  rw [literal, List.all_append, List.all_append, List.all_cons, List.all_append, List.all_cons, hindent, hchomp,
    all_literalFrom h, hend]
  rfl

end

@[simp] theorem all_textLine (n : Nat) (s : String) : (textLine n s).all isPrintable = true := by
  have hend : ['\n'].all isPrintable = true := rfl
  unfold textLine
  dsimp only
  rcases Stream.style_cases s with ⟨hstyle, hcs⟩ | ⟨hstyle, hcs, -⟩ | ⟨hstyle, -, hcs⟩ | hstyle <;> rw [hstyle]
  · rw [List.all_append, hend, List.all_eq_true.mpr fun c hc => (hcs.line c hc).1, Bool.and_self]
  · rw [mayBeSingle, Bool.and_eq_true, Bool.and_eq_true] at hcs
    rw [List.all_append, hend, all_singleQuoted hcs.1.1, Bool.and_self]
  · exact all_literal (List.all_eq_true.mpr hcs)
  · rw [List.all_append, hend, all_doubleQuoted, Bool.and_self]

@[simp] theorem all_simpleKey (s : String) : (simpleKey s).all isPrintable = true := by
  unfold simpleKey
  dsimp only
  rcases Stream.style_cases s with ⟨hstyle, hcs⟩ | ⟨hstyle, hcs, -⟩ | ⟨hstyle, -⟩ | hstyle <;> rw [hstyle]
  · exact List.all_eq_true.mpr fun c hc => (hcs.line c hc).1
  · rw [mayBeSingle, Bool.and_eq_true, Bool.and_eq_true] at hcs
    exact all_singleQuoted hcs.1.1
  · exact all_doubleQuoted _
  · exact all_doubleQuoted _

mutual

theorem all_afterKey (n : Nat) (v : Value) : (afterKey n v).all isPrintable = true := by
  match v with
  | .boolean b => cases b <;> rfl
  | .natural m =>
    rw [afterKey, List.all_append, List.all_cons, List.all_eq_true.mpr fun c hc => ((isPlain_natural m).line c hc).1]
    rfl
  | .text s =>
    rw [afterKey, List.all_cons, all_textLine]
    rfl
  | .list [] => rfl
  | .map [] => rfl
  | .list (v :: vs) =>
    rw [afterKey, List.all_cons, all_itemLines n true (v :: vs)]
    · rfl
    · exact List.cons_ne_nil v vs
  | .map (e :: es) =>
    rw [afterKey, List.all_cons, all_entryLines (n + 2) true (e :: es)]
    · rfl
    · exact List.cons_ne_nil e es

theorem all_afterMark (n : Nat) (v : Value) : (afterMark n v).all isPrintable = true := by
  match v with
  | .boolean b => cases b <;> rfl
  | .natural m =>
    rw [afterMark, List.all_append, List.all_cons, List.all_eq_true.mpr fun c hc => ((isPlain_natural m).line c hc).1]
    rfl
  | .text s =>
    rw [afterMark, List.all_cons, all_textLine]
    rfl
  | .list [] => rfl
  | .map [] => rfl
  | .list (v :: vs) =>
    rw [afterMark, List.all_cons, all_itemLines (n + 2) false (v :: vs)]
    · rfl
    · exact List.cons_ne_nil v vs
  | .map (e :: es) =>
    rw [afterMark, List.all_cons, all_entryLines (n + 2) false (e :: es)]
    · rfl
    · exact List.cons_ne_nil e es

theorem all_itemLines (n : Nat) (indented : Bool) (vs : List Value) :
    (itemLines n indented vs).all isPrintable = true := by
  match vs with
  | [] => rfl
  | v :: vs =>
    rw [itemLines, List.all_append, List.all_append, List.all_cons, all_indent, all_afterMark n v,
      all_itemLines n true vs]
    rfl

theorem all_entryLines (n : Nat) (indented : Bool) (es : List (String × Value)) :
    (entryLines n indented es).all isPrintable = true := by
  match es with
  | [] => rfl
  | (key, v) :: es =>
    rw [entryLines, List.all_append, List.all_append, all_indent, all_entryLines n true es]
    split
    · rw [List.all_append, List.all_cons, all_simpleKey, all_afterKey n v]
      rfl
    · simp only [List.all_append, List.all_cons, all_textLine, all_spaces, all_afterMark n v]
      rfl

end

end Printer

end DeviceSettings.Yaml

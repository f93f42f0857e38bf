import DeviceSettings.Proofs.Document.Reading
import DeviceSettings.Proofs.Yaml.Events

/-!
# Written values that are read

What the readers get from the trees of written values.  A text is written plain only where it does not spell anything
else, so it is found as that text however it is written (`found_text`), and what spells a truth value is one only
if it was written as one.
-/

namespace DeviceSettings.Yaml

open Document (DataTree Found Mismatch Reader Reads)
open Printer (readsOtherwise style)

variable {α : Type} {n : Nat}

/-! ## trees -/

theorem treeItems_eq_map (items : List Value) : Value.treeItems items = items.map Value.tree := by
  induction items with
  | nil => rfl
  | cons v items ih => rw [Value.treeItems, ih, List.map_cons]

theorem treeEntries_eq_map (entries : List (String × Value)) :
    Value.treeEntries entries = entries.map fun (k, v) => (DataTree.scalar ⟨k, style k, none⟩, v.tree) := by
  induction entries with
  | nil => rfl
  | cons e entries ih =>
    obtain ⟨k, v⟩ := e
    rw [Value.treeEntries, ih, List.map_cons]

/-! ## texts -/

theorem resolve_text {s t : String} (h : resolve s = .text t) :
    t = s ∧ s ≠ "" ∧ isNullText s = false := by
  unfold resolve at h
  dsimp only at h
  split at h
  · cases h
  next hnull =>
    rw [Bool.or_eq_true, decide_eq_true_eq, not_or] at hnull
    have htext : t = s := by
      split at h
      · cases h
      split at h
      · split at h <;> cases h
      split at h
      · exact (Found.text.inj h).symm
      split at h
      · cases h
      · exact (Found.text.inj h).symm
    exact ⟨htext, hnull.1, by simpa using hnull.2⟩

/-- A text that is written plain spells nothing else. -/
theorem resolve_of_style {s : String} (h : style s = .plain) : resolve s = .text s := by
  have hreads : readsOtherwise s = false := by
    unfold style at h
    dsimp only at h
    split at h
    · split at h <;> cases h
    split at h
    next hplain => simpa using (Bool.and_eq_true_iff.mp hplain).1
    next => split at h <;> cases h
  unfold readsOtherwise at hreads
  split at hreads
  next t htext => rw [htext, (resolve_text htext).1]
  next => cases hreads

theorem found_text (s : String) : Scalar.found ⟨s, style s, none⟩ = .ok (.text s) := by
  show Except.ok (if style s = .plain then resolve s else .text s) = _
  split
  next h => rw [resolve_of_style h]
  next => rfl

theorem any_text (s : String) : dialect.any ⟨s, style s, none⟩ = .ok (.text s) := found_text s

theorem isNull_text (s : String) : dialect.isNull ⟨s, style s, none⟩ = .ok false := by
  show Scalar.isNull _ = _
  unfold Scalar.isNull
  dsimp only
  split
  · rfl
  next h =>
    obtain ⟨-, hempty, hnull⟩ := resolve_text (resolve_of_style (not_not.mp h))
    rw [hnull, beq_false_of_ne hempty]
    rfl

/-! ## numbers -/

theorem dropSign_digits {c : Char} (h : c.isDigit = true) (cs : List Char) : dropSign (c :: cs) = c :: cs := by
  have hsign : isSign c = false := by
    have hne (d : Char) (hd : d.isDigit = false) : c ≠ d := ne_of_isDigit h hd
    simp [isSign, hne]
  rw [dropSign, hsign, if_neg Bool.false_ne_true]

/-- A numeral is read as its number. -/
theorem natural?_toString (k : Nat) : natural? (toString k).toList = some k := by
  rcases Nat.eq_zero_or_pos k with rfl | hk
  · decide
  · rw [toList_toString]
    have hread := Text.digits?_toDigits k
    have hzero := Text.head?_toDigits hk
    have hdigit (c : Char) (hc : c ∈ Nat.toDigits 10 k) : c.isDigit = true :=
      Nat.isDigit_of_mem_toDigits (by decide) (by decide) hc
    obtain ⟨c, cs, hcs⟩ := List.exists_cons_of_ne_nil (Nat.toDigits_ne_nil : Nat.toDigits 10 k ≠ [])
    rw [hcs] at hread hzero hdigit ⊢
    have hfirst := hdigit c List.mem_cons_self
    have hplus : c ≠ '+' := ne_of_isDigit hfirst (by decide)
    have hmarked : marked? (c :: cs) = none := by
      unfold marked?
      split <;> first | rfl | (next heq => exact absurd (congrArg List.head? heq) hzero)
    have hfilled : isZeroFilled (c :: cs) = false := by
      unfold isZeroFilled
      rw [dropSign_digits hfirst]
      split
      next heq => exact absurd (congrArg List.head? heq) hzero
      next => rfl
    unfold natural?
    split
    next heq => exact absurd (List.cons.inj heq).1 hplus
    next =>
      dsimp only
      rw [hmarked, hfilled, if_neg Bool.false_ne_true, hread]

theorem integer?_natural {k : Nat} (h : k < wordLimit) :
    dialect.integer? ⟨toString k, .plain, none⟩ = .ok (some (k : Int)) := by
  have hread : Scalar.integer? ⟨toString k, .plain, none⟩ = some (k : Int) := by
    have hplain : Scalar.isWrittenAs "int" ⟨toString k, .plain, none⟩ = true := rfl
    rw [Scalar.integer?, hplain, if_pos rfl]
    dsimp only
    rw [natural?_toString, Option.bind_some, if_pos h]
  exact congrArg Except.ok hread

/-! ## values -/

theorem reads_textOf (s what : String) : Reads dialect n (Document.textOf what) (Value.text s).tree s :=
  .textOf rfl what

theorem reads_boolean (b : Bool) : Reads dialect n Document.boolean (Value.boolean b).tree b := by
  refine .boolean ?_
  cases b <;> rfl

theorem reads_natural {k bound : Nat} (hk : k < bound) (hbound : bound ≤ wordLimit) (what : String) :
    Reads dialect n (Document.natural what bound) (Value.natural k).tree k :=
  .natural (integer?_natural (Nat.lt_of_lt_of_le hk hbound)) hk what

theorem reads_list {r : Reader Scalar α} {write : α → Value} {xs : List α}
    (h : ∀ x ∈ xs, Reads dialect n r (write x).tree x) :
    Reads dialect (n + 1) (Document.list r) (Value.list (xs.map write)).tree xs := by
  have hread : Reads dialect (n + 1) (Document.list r) (.list false (xs.map fun x => (write x).tree) true)
      (xs.map id) := .list h
  rw [List.map_id] at hread
  rw [Value.tree, treeItems_eq_map, List.map_map]
  exact hread

theorem reads_table {r : Reader Scalar α} {write : α → Value} (t : Table String α)
    (h : ∀ e ∈ t.entries, Reads dialect n r (write e.2).tree e.2) :
    Reads dialect (n + 1) (Document.table r) (Value.map (t.entries.map fun (k, a) => (k, write a))).tree t := by
  have hkey (k : String) : dialect.text? ⟨k, style k, none⟩ = .ok (some k) := rfl
  have hread := @Reads.table Scalar α dialect n r (fun k => ⟨k, style k, none⟩) (fun a => (write a).tree) t hkey h
  rw [Value.tree, treeEntries_eq_map, List.map_map]
  exact hread

end DeviceSettings.Yaml

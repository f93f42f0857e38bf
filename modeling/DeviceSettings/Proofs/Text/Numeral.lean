import DeviceSettings.Text.Numeral
import Mathlib.Algebra.Group.Nat.Defs

/-!
# Decimal numerals read back

A padded numeral holds digits only (`isDigit_of_mem_padded`), is as long as it was asked to be
(`length_padded`), and reads back as the number that it was written for (`digits?_padded`).
-/

namespace DeviceSettings.Text

theorem digit?_of_isDigit {c : Char} (h : c.isDigit = true) : digit? 10 c = some (c.toNat - 48) := by
  have hc : 48 ≤ c.toNat ∧ c.toNat ≤ 57 := by simpa [Char.isDigit, UInt32.le_iff_toNat_le] using h
  have hd : (decide (48 ≤ c.toNat) && decide (c.toNat ≤ 57)) = true := by simp [hc]
  show (if (if _ then _ else _) < 10 then some (if _ then _ else _) else none) = _
  rw [if_pos hd, if_pos (by omega)]

theorem isDigit_of_charIsDigit {c : Char} (h : c.isDigit = true) : isDigit c = true := by
  rw [isDigit, digit?_of_isDigit h]
  rfl

theorem digitsFrom_of_isDigit (acc : Nat) (cs : List Char) (h : ∀ c ∈ cs, c.isDigit = true) :
    digitsFrom 10 acc cs = some (Nat.ofDigitChars 10 cs acc) := by
  induction cs generalizing acc with
  | nil => rfl
  | cons c cs ih =>
    rw [digitsFrom, digit?_of_isDigit (h c List.mem_cons_self), Option.bind_some,
      ih _ fun d hd => h d (List.mem_cons_of_mem _ hd), Nat.ofDigitChars_cons, Nat.mul_comm]
    rfl

/-! ## padded numerals -/

theorem toList_padded (width n : Nat) :
    (padded width n).toList
      = List.replicate (width - (Nat.toDigits 10 n).length) '0' ++ Nat.toDigits 10 n := by
  have h : n.repr.length = (Nat.toDigits 10 n).length := by
    rw [← String.length_toList, Nat.toList_repr]
  simp only [padded, Nat.toString_eq_repr, h, String.toList_append, String.toList_ofList,
    Nat.toList_repr]

theorem charIsDigit_of_mem_padded {width n : Nat} {c : Char} (h : c ∈ (padded width n).toList) :
    c.isDigit = true := by
  rw [toList_padded, List.mem_append] at h
  rcases h with h | h
  · rw [List.eq_of_mem_replicate h]
    rfl
  · exact Nat.isDigit_of_mem_toDigits (by decide) (by decide) h

theorem isDigit_of_mem_padded {width n : Nat} {c : Char} (h : c ∈ (padded width n).toList) :
    isDigit c = true :=
  isDigit_of_charIsDigit (charIsDigit_of_mem_padded h)

theorem padded_ne_nil (width n : Nat) : (padded width n).toList ≠ [] := by
  rw [toList_padded]
  simp

/-- A number is written in as many places as it was given, if it fits them. -/
theorem length_padded {width n : Nat} (hw : 0 < width) (h : n < 10 ^ width) :
    (padded width n).toList.length = width := by
  have hl : (Nat.toDigits 10 n).length ≤ width := (Nat.length_toDigits_le_iff (by decide) hw).2 h
  rw [toList_padded, List.length_append, List.length_replicate]
  omega

theorem digits?_eq_digitsFrom {cs : List Char} (h : cs ≠ []) : digits? 10 cs = digitsFrom 10 0 cs := by
  cases cs with
  | nil => exact absurd rfl h
  | cons c cs => rfl

/-- A padded numeral reads back. -/
theorem digits?_padded (width n : Nat) : digits? 10 (padded width n).toList = some n := by
  rw [digits?_eq_digitsFrom (padded_ne_nil width n),
    digitsFrom_of_isDigit _ _ fun c hc => charIsDigit_of_mem_padded hc, toList_padded,
    Nat.ofDigitChars_append, Nat.ofDigitChars_replicate_zero, Nat.mul_zero,
    Nat.ofDigitChars_ten_toDigits]

/-! ## plain numerals -/

theorem isDigit_of_mem_toDigits {n : Nat} {c : Char} (h : c ∈ Nat.toDigits 10 n) : isDigit c = true :=
  isDigit_of_charIsDigit (Nat.isDigit_of_mem_toDigits (by decide) (by decide) h)

/-- A numeral reads back. -/
theorem digits?_toDigits (n : Nat) : digits? 10 (Nat.toDigits 10 n) = some n := by
  rw [digits?_eq_digitsFrom Nat.toDigits_ne_nil,
    digitsFrom_of_isDigit _ _ fun c hc => Nat.isDigit_of_mem_toDigits (by decide) (by decide) hc,
    Nat.ofDigitChars_ten_toDigits]

/-- Only the numeral of zero begins with a zero. -/
theorem head?_toDigits {n : Nat} (h : 0 < n) : (Nat.toDigits 10 n).head? ≠ some '0' := by
  induction n using Nat.strongRecOn with
  | _ n ih =>
    rcases Nat.lt_or_ge n 10 with hlt | hge
    · have hall : ∀ k : Fin 10, 0 < k.val → some k.val.digitChar ≠ some '0' := by decide
      rw [Nat.toDigits_of_lt_base hlt, List.head?_cons]
      exact hall ⟨n, hlt⟩ h
    · rw [Nat.toDigits_of_base_le (by decide) hge, List.head?_append,
        Option.or_of_isSome (by simp [Nat.toDigits_ne_nil])]
      exact ih (n / 10) (by omega) (by omega)

end DeviceSettings.Text

import DeviceSettings.Proofs.Text.Numeral
import DeviceSettings.Timestamp

/-!
# Timestamps read back

A moment that the calendar has is read back from its text (`Timestamp.parse?_text`).  Each field is a
padded numeral that ends where the next mark stands, so the reader of the field takes the numeral and
leaves the rest (`number?_padded`).
-/

namespace DeviceSettings

open Text (isBlank isDigit padded trimStart)

namespace Timestamp

/-- A moment of the calendar. -/
structure IsValid (t : Timestamp) : Prop where
  date : t.date.isValid = true
  hour : t.hour < 24
  minute : t.minute < 60
  second : t.second ≤ 60
  nano : t.nano < 10 ^ 9

/-! ## fields -/

theorem isBlank_of_isDigit {c : Char} (h : isDigit c = true) : isBlank c = false := by
  refine Bool.eq_false_iff.mpr fun hb => ?_
  simp only [isDigit, Text.digit?, isBlank, Bool.or_eq_true, Bool.and_eq_true, decide_eq_true_eq,
    beq_iff_eq] at h hb
  split at h
  · omega
  · split at h
    · omega
    · split at h
      · omega
      · simp at h

theorem trimStart_eq_self {cs : List Char} (h : ∀ c ∈ cs.head?, isBlank c = false) :
    trimStart cs = cs := by
  cases cs with
  | nil => rfl
  | cons c cs =>
    have hc : isBlank c = false := h c rfl
    simp [trimStart, hc]

/-- A padded numeral begins with a digit. -/
theorem padded_eq_cons (width n : Nat) : ∃ d ds, (padded width n).toList = d :: ds ∧ isDigit d = true := by
  cases hp : (padded width n).toList with
  | nil => exact absurd hp (Text.padded_ne_nil width n)
  | cons d ds => exact ⟨d, ds, rfl, Text.isDigit_of_mem_padded (hp ▸ List.mem_cons_self)⟩

theorem trimStart_padded (width n : Nat) (rest : List Char) :
    trimStart ((padded width n).toList ++ rest) = (padded width n).toList ++ rest := by
  obtain ⟨d, ds, hp, hd⟩ := padded_eq_cons width n
  rw [hp]
  refine trimStart_eq_self ?_
  rintro c ⟨⟩
  exact isBlank_of_isDigit hd

/-- A numeral is read up to its end: either no more digits are taken, or none follows. -/
theorem number?_padded {max width n : Nat} {rest : List Char}
    (hlen : (padded width n).toList.length ≤ max)
    (hrest : (padded width n).toList.length = max ∨ ∀ c ∈ rest.head?, isDigit c = false) :
    number? max ((padded width n).toList ++ rest) = some (n, rest) := by
  have hall : ∀ c ∈ (padded width n).toList, isDigit c = true := fun c hc =>
    Text.isDigit_of_mem_padded hc
  have htail : (rest.take (max - (padded width n).toList.length)).takeWhile isDigit = [] := by
    rcases hrest with h | h
    · rw [h, Nat.sub_self, List.take_zero, List.takeWhile_nil]
    · cases rest with
      | nil => simp
      | cons c rest =>
        have hc : isDigit c = false := h c rfl
        cases max - (padded width n).toList.length with
        | zero => simp
        | succ k => simp [hc]
  have htake : (((padded width n).toList ++ rest).take max).takeWhile isDigit
      = (padded width n).toList := by
    rw [List.take_append, List.take_of_length_le hlen, List.takeWhile_append_of_pos hall, htail,
      List.append_nil]
  simp only [number?, htake]
  rw [Text.digits?_padded, Option.map_some, List.drop_left]

theorem field?_padded {n : Nat} (h : n < 10 ^ 2) (rest : List Char) :
    field? ((padded 2 n).toList ++ rest) = some (n, rest) := by
  have hlen := Text.length_padded (by decide) h
  rw [field?, trimStart_padded, number?_padded (by omega) (.inl hlen)]

theorem separator?_cons {c : Char} (h : isBlank c = false) (rest : List Char) :
    separator? c (c :: rest) = some rest := by
  rw [separator?, trimStart_eq_self (by simpa using h)]
  simp

/-- A year without a sign has four digits at most. -/
theorem year?_padded (n : Nat) (rest : List Char) :
    year? ((padded 4 n).toList ++ rest)
      = (number? 4 ((padded 4 n).toList ++ rest)).map fun (n, r) => ((n : Int), r) := by
  obtain ⟨d, ds, hp, hd⟩ := padded_eq_cons 4 n
  rw [year?, trimStart_padded, hp, List.cons_append]
  split
  · rename_i heq
    cases heq
    exact absurd hd (by decide)
  · rename_i heq
    cases heq
    exact absurd hd (by decide)
  · rfl

theorem year?_minus (r : List Char) :
    year? ('-' :: r) = (number? r.length r).map fun (n, r) => (-(n : Int), r) := rfl

theorem year?_plus (r : List Char) :
    year? ('+' :: r) = (number? r.length r).map fun (n, r) => ((n : Int), r) := rfl

/-- A year ends at the mark before the month. -/
theorem year?_yearText (y : Int) (rest : List Char) :
    year? ((Date.yearText y).toList ++ '-' :: rest) = some (y, '-' :: rest) := by
  have hmark : ∀ c ∈ ('-' :: rest).head?, isDigit c = false := by
    rintro c ⟨⟩
    decide
  have hsigned : number? ((padded 4 y.natAbs).toList ++ '-' :: rest).length
      ((padded 4 y.natAbs).toList ++ '-' :: rest) = some (y.natAbs, '-' :: rest) :=
    number?_padded (by simp) (.inr hmark)
  unfold Date.yearText
  split
  · rename_i hy
    have hy : 0 ≤ y ∧ y ≤ 9999 := by simpa using hy
    have hlen : (padded 4 y.toNat).toList.length = 4 := Text.length_padded (by decide) (by omega)
    rw [year?_padded, number?_padded (Nat.le_of_eq hlen) (.inl hlen)]
    simp only [Option.map_some, Option.some.injEq, Prod.mk.injEq, and_true]
    omega
  · rename_i hy
    have hy : ¬(0 ≤ y ∧ y ≤ 9999) := by simpa using hy
    rw [String.toList_append, List.append_assoc]
    split
    · rw [show "-".toList = ['-'] from rfl, List.cons_append, List.nil_append, year?_minus, hsigned]
      simp only [Option.map_some, Option.some.injEq, Prod.mk.injEq, and_true]
      omega
    · rw [show "+".toList = ['+'] from rfl, List.cons_append, List.nil_append, year?_plus, hsigned]
      simp only [Option.map_some, Option.some.injEq, Prod.mk.injEq, and_true]
      omega

/-- The fraction of a second in some number of places, nine at most. -/
theorem fraction?_padded {width n : Nat} {rest : List Char} (hpos : 0 < width) (hw : width ≤ 9)
    (hn : n < 10 ^ width) (hrest : ∀ c ∈ rest.head?, isDigit c = false) :
    fraction? ('.' :: ((padded width n).toList ++ rest)) = some (n * 10 ^ (9 - width), rest) := by
  have hlen := Text.length_padded hpos hn
  have hdrop : rest.dropWhile isDigit = rest := by
    cases rest with
    | nil => rfl
    | cons c rest =>
      have hc : isDigit c = false := hrest c rfl
      simp [hc]
  simp only [fraction?, number?_padded (Nat.le_trans (Nat.le_of_eq hlen) hw) (.inr hrest),
    Option.bind_eq_bind, Option.bind_some, hdrop, List.length_append, hlen]
  rw [Nat.add_sub_cancel]
  rfl

theorem fraction?_fraction {nano : Nat} (h : nano < 10 ^ 9) :
    fraction? ((fraction nano).toList ++ ['Z']) = some (nano, ['Z']) := by
  have hz : ∀ c ∈ (['Z'] : List Char).head?, isDigit c = false := by
    rintro c ⟨⟩
    decide
  have hdot (s : String) : ("." ++ s).toList ++ ['Z'] = '.' :: (s.toList ++ ['Z']) := by
    rw [String.toList_append]
    rfl
  unfold fraction
  split
  · rename_i h0
    subst h0
    rfl
  · split
    · rename_i hm
      rw [hdot, fraction?_padded (by decide) (by decide) (by omega) hz]
      simp only [Option.some.injEq, Prod.mk.injEq, and_true]
      omega
    · split
      · rename_i hm
        rw [hdot, fraction?_padded (by decide) (by decide) (by omega) hz]
        simp only [Option.some.injEq, Prod.mk.injEq, and_true]
        omega
      · rw [hdot, fraction?_padded (by decide) (by decide) h hz]
        simp only [Option.some.injEq, Prod.mk.injEq, and_true]
        omega

/-! ## whole timestamps -/

theorem toUniversal_zero {d : Date} {hour minute second nano : Nat} (hh : hour < 24) (hm : minute < 60) :
    toUniversal d hour minute second nano 0 = ⟨d, hour, minute, second, nano⟩ := by
  have h0 : ¬((hour : Int) * 60 + minute - 0 < 0) := by omega
  have h1 : ¬(1440 ≤ (hour : Int) * 60 + minute - 0) := by omega
  have hmod : (((hour : Int) * 60 + minute - 0) % 1440).toNat = hour * 60 + minute := by omega
  simp only [toUniversal, if_neg h0, if_neg h1, hmod, Timestamp.mk.injEq, and_true, true_and]
  omega

theorem toList_text (t : Timestamp) :
    t.text.toList = (Date.yearText t.date.year).toList ++ '-' :: ((padded 2 t.date.month).toList
      ++ '-' :: ((padded 2 t.date.day).toList ++ 'T' :: ((padded 2 t.hour).toList
      ++ ':' :: ((padded 2 t.minute).toList ++ ':' :: ((padded 2 t.second).toList
      ++ ((fraction t.nano).toList ++ ['Z'])))))) := by
  have hdash : "-".toList = ['-'] := rfl
  have hcolon : ":".toList = [':'] := rfl
  have ht : "T".toList = ['T'] := rfl
  have hz : "Z".toList = ['Z'] := rfl
  simp only [text, Date.text, clock, String.toList_append, List.append_assoc, hdash, hcolon, ht, hz,
    List.cons_append, List.nil_append]

theorem bind_of_eq {α β : Type} {x : Option α} {a : α} (h : x = some a) (f : α → Option β) :
    x >>= f = f a := by
  rw [h]
  rfl

/-- A moment is read back from its text. -/
theorem parse?_text {t : Timestamp} (h : t.IsValid) : parse? t.text = some t := by
  have hdate : (1 ≤ t.date.month ∧ t.date.month ≤ 12) ∧ 1 ≤ t.date.day
      ∧ t.date.day ≤ Date.daysInMonth t.date.year t.date.month := by
    have hv := h.date
    simp only [Date.isValid, Bool.and_eq_true, decide_eq_true_eq] at hv
    omega
  have hdays (y : Int) (m : Nat) : Date.daysInMonth y m ≤ 31 := by
    unfold Date.daysInMonth
    split <;> (try split) <;> omega
  have hday := hdays t.date.year t.date.month
  have hh := h.hour
  have hm := h.minute
  have hs := h.second
  have hdash : isBlank '-' = false := by decide
  have hcolon : isBlank ':' = false := by decide
  have hsome {α β : Type} (a : α) (f : α → Option β) : some a >>= f = f a := rfl
  have hzone : zone? (trimStart ['Z']) = some (0, []) := rfl
  rw [parse?, toList_text, bind_of_eq (year?_yearText _ _)]
  dsimp only
  rw [bind_of_eq (separator?_cons hdash _), bind_of_eq (field?_padded (n := t.date.month) (by omega) _)]
  dsimp only
  rw [bind_of_eq (separator?_cons hdash _), bind_of_eq (field?_padded (n := t.date.day) (by omega) _)]
  dsimp only
  rw [if_pos (by decide), hsome, bind_of_eq (field?_padded (n := t.hour) (by omega) _)]
  dsimp only
  rw [bind_of_eq (separator?_cons hcolon _), bind_of_eq (field?_padded (n := t.minute) (by omega) _)]
  dsimp only
  rw [bind_of_eq (separator?_cons hcolon _), bind_of_eq (field?_padded (n := t.second) (by omega) _)]
  dsimp only
  rw [bind_of_eq (fraction?_fraction h.nano)]
  dsimp only
  rw [bind_of_eq hzone]
  dsimp only
  rw [toUniversal_zero hh hm, if_pos]
  simp [trimStart, h.date, hh, hm, hs]

end Timestamp

end DeviceSettings

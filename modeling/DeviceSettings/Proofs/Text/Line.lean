import DeviceSettings.Text.Line
import Mathlib.Data.List.Basic
import Mathlib.Tactic.SplitIfs

/-!
# Bytes in lines

A byte stream is cut at its line feeds (`byteLines_unlines`, `areLines_byteLines`).  In UTF-8 the byte of a line
feed stands for nothing else, so texts without one that are written with one after each are the lines of what was
written (`byteLines_written`).
-/

namespace DeviceSettings.Text

/-! ## cutting -/

theorem toList_loop (b : ByteArray) (i : Nat) (r : List UInt8) :
    ByteArray.toList.loop b i r = r.reverse ++ b.data.toList.drop i := by
  fun_induction ByteArray.toList.loop b i r with
  | case1 i r hi ih =>
    have hlt : i < b.data.toList.length := hi
    rw [ih, List.drop_eq_getElem_cons hlt, List.reverse_cons, List.append_assoc]
    have hget : b.get! i = b.data.toList[i] := by
      rw [Array.getElem_toList]
      exact getElem!_pos b.data i hi
    rw [hget]
    rfl
  | case2 i r hi =>
    have hle : b.data.toList.length ≤ i := Nat.le_of_not_lt hi
    rw [List.drop_eq_nil_of_le hle, List.append_nil]

theorem toList_eq (b : ByteArray) : b.toList = b.data.toList := toList_loop b 0 []

theorem toList_toByteArray (l : List UInt8) : l.toByteArray.toList = l := by
  rw [toList_eq, List.toList_data_toByteArray]

/-- Lines with a line feed after each. -/
def unlines (ls : List (List UInt8)) : List UInt8 := ls.flatMap (· ++ [lineFeed])

/-- The pieces are the lines of the bytes: what stands between their line feeds, and what stands after the last one
if that is anything. -/
def AreLines (pieces : List ByteArray) (b : ByteArray) : Prop :=
  ∃ ls last, (∀ l ∈ ls, lineFeed ∉ l) ∧ lineFeed ∉ last ∧ b.toList = unlines ls ++ last
    ∧ pieces = (ls ++ if last = [] then [] else [last]).map List.toByteArray

theorem unlines_cons (l : List UInt8) (ls : List (List UInt8)) :
    unlines (l :: ls) = l ++ lineFeed :: unlines ls := by
  rw [unlines, List.flatMap_cons, List.append_assoc]
  rfl

theorem go_append {l : List UInt8} (hl : lineFeed ∉ l) (line rest : List UInt8) :
    byteLines.go line (l ++ rest) = byteLines.go (l.reverse ++ line) rest := by
  induction l generalizing line with
  | nil => rfl
  | cons x l ih =>
    obtain ⟨hx, hl⟩ := List.ne_and_not_mem_of_not_mem_cons hl
    rw [List.cons_append, byteLines.go, if_neg hx.symm, ih hl, List.reverse_cons, List.append_assoc]
    rfl

theorem go_unlines (ls : List (List UInt8)) (last : List UInt8) (hls : ∀ l ∈ ls, lineFeed ∉ l)
    (hlast : lineFeed ∉ last) : byteLines.go [] (unlines ls ++ last)
      = (ls ++ if last = [] then [] else [last]).map List.toByteArray := by
  induction ls with
  | nil =>
    have hgo := go_append hlast [] []
    rw [List.append_nil, List.append_nil] at hgo
    rw [unlines, List.flatMap_nil, List.nil_append, List.nil_append, hgo, byteLines.go, List.isEmpty_reverse,
      List.reverse_reverse]
    cases last <;> rfl
  | cons l ls ih =>
    rw [unlines_cons, List.append_assoc, go_append (hls l List.mem_cons_self), List.cons_append, byteLines.go,
      if_pos rfl, ih fun l hl => hls l (List.mem_cons_of_mem _ hl), List.append_nil, List.reverse_reverse]
    rfl

theorem exists_unlines (bs : List UInt8) :
    ∃ ls last, (∀ l ∈ ls, lineFeed ∉ l) ∧ lineFeed ∉ last ∧ bs = unlines ls ++ last := by
  induction bs with
  | nil => exact ⟨[], [], by simp, by simp, rfl⟩
  | cons x bs ih =>
    obtain ⟨ls, last, hls, hlast, rfl⟩ := ih
    by_cases hx : x = lineFeed
    · exact ⟨[] :: ls, last, by simpa using hls, hlast, by rw [hx, unlines_cons]; rfl⟩
    · cases ls with
      | nil => exact ⟨[], x :: last, by simp, by simp [hlast, Ne.symm hx], rfl⟩
      | cons l ls =>
        refine ⟨(x :: l) :: ls, last, ?_, hlast, by rw [unlines_cons, unlines_cons]; rfl⟩
        simpa [Ne.symm hx] using hls

theorem areLines_byteLines (b : ByteArray) : AreLines (byteLines b) b := by
  obtain ⟨ls, last, hls, hlast, hb⟩ := exists_unlines b.toList
  exact ⟨ls, last, hls, hlast, hb, by rw [byteLines, hb, go_unlines ls last hls hlast]⟩

/-! ## texts as lines -/

theorem toList_toUTF8 (s : String) : s.toUTF8.toList = s.toList.flatMap String.utf8EncodeChar := by
  rw [String.toUTF8_eq_toByteArray, ← String.utf8Encode_toList, List.utf8Encode, toList_toByteArray]

theorem lineFeed_eq_ofNat (n : Nat) : lineFeed = UInt8.ofNat n ↔ n % 256 = 10 := by
  rw [← UInt8.toNat_inj, UInt8.toNat_ofNat', eq_comm]
  rfl

/-- All bytes of a longer encoding are above those of ASCII. -/
theorem lineFeed_mem_utf8EncodeChar {c : Char} : lineFeed ∈ String.utf8EncodeChar c ↔ c = '\n' := by
  have hc : c = '\n' ↔ c.val.toNat = 10 := by
    rw [Char.ext_iff, ← UInt32.toNat_inj]
    rfl
  rw [hc]
  unfold String.utf8EncodeChar
  dsimp only
  split_ifs <;> simp only [List.mem_cons, List.not_mem_nil, or_false, lineFeed_eq_ofNat] <;> omega

theorem lineFeed_mem_toUTF8 {s : String} : lineFeed ∈ s.toUTF8.toList ↔ '\n' ∈ s.toList := by
  rw [toList_toUTF8]
  simp [lineFeed_mem_utf8EncodeChar]

theorem toByteArray_toList (b : ByteArray) : b.toList.toByteArray = b := by
  rw [toList_eq]
  exact ByteArray.ext (by simp)

/-- Texts without line feeds, written with one after each, are the lines of what was written. -/
theorem byteLines_written {texts : List String} (h : ∀ s ∈ texts, '\n' ∉ s.toList) :
    byteLines (String.join (texts.map (· ++ "\n"))).toUTF8 = texts.map String.toUTF8 := by
  have hbytes : (String.join (texts.map (· ++ "\n"))).toUTF8.toList
      = unlines (texts.map fun s => s.toUTF8.toList) ++ [] := by
    rw [toList_toUTF8, String.toList_join, unlines, List.append_nil, List.flatMap_map, List.flatMap_map,
      List.flatMap_assoc]
    refine List.flatMap_congr fun s _ => ?_
    rw [String.toList_append, List.flatMap_append, toList_toUTF8]
    rfl
  have hlines : ∀ l ∈ texts.map fun s => s.toUTF8.toList, lineFeed ∉ l := by
    rintro l hl
    obtain ⟨s, hs, rfl⟩ := List.mem_map.mp hl
    exact fun hmem => h s hs (lineFeed_mem_toUTF8.mp hmem)
  rw [byteLines, hbytes, go_unlines _ [] hlines List.not_mem_nil, if_pos rfl, List.append_nil, List.map_map]
  exact List.map_congr_left fun s _ => toByteArray_toList s.toUTF8

theorem byteLines_line {s : String} (h : '\n' ∉ s.toList) : byteLines (s ++ "\n").toUTF8 = [s.toUTF8] := by
  have hall : ∀ t ∈ [s], '\n' ∉ t.toList := fun t ht => List.mem_singleton.mp ht ▸ h
  have hwritten := byteLines_written hall
  have hjoin : String.join [s ++ "\n"] = s ++ "\n" := by
    rw [← String.toList_inj, String.toList_join, List.flatMap_singleton]
  rwa [List.map_singleton, List.map_singleton, hjoin] at hwritten

end DeviceSettings.Text

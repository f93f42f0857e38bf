import DeviceSettings.Proofs.Yaml.Point
import Mathlib.Algebra.Group.Nat.Defs

/-!
# Quoted texts read back

What is written in double quotes (`quotedFrom_double`) or in single ones (`quotedFrom_single`) is read back.  Only the
separators of lines and paragraphs break a text in single quotes, and no blank stands next to them.
-/

namespace DeviceSettings.Yaml

open Point (breakText)
open Printer (anyBetween isPrintable doubleQuotedChar singleQuotedFrom spaces)

/-! ## words -/

/-- A character stands among those of a word as `cs`. -/
def IsItem (single : Bool) (c : Char) (cs : List Char) : Prop :=
  cs ≠ [] ∧ ∀ p : Point, ∀ rest, p.rest = cs ++ rest → wordItem? single p = some (.char c, p.skip cs.length)

section
variable {single : Bool} {write : Char → List Char} {w : List Char} {p q : Point} {rest : List Char}
  {ending : WordEnd} {fuel : Nat}

theorem length_le_flatMap (h : ∀ c ∈ w, IsItem single c (write c)) : w.length ≤ (w.flatMap write).length := by
  induction w with
  | nil => exact Nat.le_refl _
  | cons c w ih =>
    have hpos := List.length_pos_iff.mpr (h c List.mem_cons_self).1
    have hrest := ih fun d hd => h d (List.mem_cons_of_mem _ hd)
    rw [List.flatMap_cons, List.length_append, List.length_cons]
    omega

/-- A word is read up to what ends it. -/
theorem quotedWord_word (h : ∀ c ∈ w, IsItem single c (write c)) (hrest : p.rest = w.flatMap write ++ rest)
    (hend : wordItem? single (p.skip (w.flatMap write).length) = some (.ends ending, q)) (hfuel : w.length < fuel) :
    quotedWord fuel single p = some (w, ending, q) := by
  induction w generalizing p fuel with
  | nil =>
    obtain ⟨fuel, rfl⟩ : ∃ m, fuel = m + 1 := ⟨fuel - 1, by omega⟩
    rw [List.flatMap_nil, List.length_nil, Point.skip_zero] at hend
    rw [quotedWord, hend]
    rfl
  | cons c w ih =>
    obtain ⟨fuel, rfl⟩ : ∃ m, fuel = m + 1 := ⟨fuel - 1, by omega⟩
    rw [List.flatMap_cons, List.append_assoc] at hrest
    rw [List.flatMap_cons, List.length_append, ← Point.skip_skip] at hend
    have hitem := (h c List.mem_cons_self).2 p _ hrest
    have hword := ih (fun d hd => h d (List.mem_cons_of_mem _ hd)) (Point.rest_skip hrest) hend
      (Nat.lt_of_succ_lt_succ hfuel)
    rw [quotedWord, hitem]
    show (quotedWord fuel single (p.skip (write c).length)).bind _ = _
    rw [hword]
    rfl

end

theorem wordItem?_gap (single : Bool) {p : Point} {c : Char} {rest : List Char} (h : p.rest = c :: rest)
    (hc : isGap c = true) : wordItem? single p = some (.ends .gap, p) := by
  unfold wordItem?
  rw [h]
  dsimp only
  rw [if_pos hc]

/-! ## texts of one line -/

section
variable {single : Bool} {write : Char → List Char} {quote : Char} {w cs stop : List Char} {p : Point} {fuel : Nat}

theorem not_atMarker (h : 0 < p.column) : p.atMarker = false := by
  rw [Point.atMarker, beq_false_of_ne (by omega), Bool.false_and]

/-- Where a word stands with something after it, no document ends and the word is read. -/
theorem quotedWord_begun {rest : List Char} {ending : WordEnd} {q : Point} (h : ∀ c ∈ w, IsItem single c (write c))
    (hp : p.rest = w.flatMap write ++ rest) (hrest : rest ≠ []) (hcolumn : 0 < p.column)
    (hend : wordItem? single (p.skip (w.flatMap write).length) = some (.ends ending, q))
    (hfuel : p.rest.length < fuel + 1) :
    (p.atMarker || p.rest.isEmpty) = false ∧ quotedWord (fuel + 1) single p = some (w, ending, q) := by
  have hlen : w.length < fuel + 1 := by
    have hle := length_le_flatMap h
    rw [hp, List.length_append] at hfuel
    omega
  refine ⟨?_, quotedWord_word h hp hend hlen⟩
  rw [not_atMarker hcolumn, Bool.false_or, hp, List.isEmpty_eq_false_iff]
  exact List.append_ne_nil_of_right_ne_nil _ hrest

/-- A word and the quote. -/
theorem quotedFrom_last (h : ∀ c ∈ w, IsItem single c (write c))
    (hquote : ∀ p : Point, p.rest = quote :: stop → wordItem? single p = some (.ends .quote, p.skip 1))
    (hp : p.rest = w.flatMap write ++ quote :: stop) (hcolumn : 0 < p.column) (hfuel : p.rest.length < fuel) :
    quotedFrom fuel single p = some (w, (p.skip (w.flatMap write).length).skip 1) := by
  obtain ⟨fuel, rfl⟩ : ∃ m, fuel = m + 1 := ⟨fuel - 1, by omega⟩
  obtain ⟨hgo, hword⟩ :=
    quotedWord_begun h hp (List.cons_ne_nil quote stop) hcolumn (hquote _ (Point.rest_skip hp)) hfuel
  rw [quotedFrom, hgo, if_neg Bool.false_ne_true, hword]
  rfl

/-- A word and the gap after it. -/
theorem quotedFrom_gap {gap rest text : List Char} {g : Gap} {q r : Point} (h : ∀ c ∈ w, IsItem single c (write c))
    (hp : p.rest = w.flatMap write ++ (gap ++ rest)) (hgap : ∃ c ∈ gap.head?, isGap c = true) (hcolumn : 0 < p.column)
    (hread : gap? fuel (-1) (p.skip (w.flatMap write).length) = some (g, q))
    (hmore : quotedFrom fuel single q = some (text, r)) (hfuel : p.rest.length < fuel + 1) :
    quotedFrom (fuel + 1) single p = some (w ++ g.text ++ text, r) := by
  obtain ⟨c, hc, hcgap⟩ := hgap
  obtain ⟨gs, rfl⟩ : ∃ gs, gap = c :: gs := by
    cases gap with
    | nil => cases hc
    | cons d gs => exact ⟨gs, by rw [Option.mem_some.mp hc]⟩
  obtain ⟨hgo, hword⟩ := quotedWord_begun h hp (List.cons_ne_nil c (gs ++ rest)) hcolumn
    (wordItem?_gap single (Point.rest_skip hp) hcgap) hfuel
  rw [quotedFrom, hgo, if_neg Bool.false_ne_true, hword]
  show (gap? fuel (-1) (p.skip (w.flatMap write).length)).bind _ = _
  rw [hread]
  show (quotedFrom fuel single q).bind _ = _
  rw [hmore]
  rfl

theorem flatMap_spaces (h : write ' ' = [' ']) (n : Nat) : (spaces n).flatMap write = spaces n := by
  induction n with
  | zero => rfl
  | succ n ih =>
    show (' ' :: spaces n).flatMap write = ' ' :: spaces n
    rw [List.flatMap_cons, h, ih, List.singleton_append]

/-- How the characters of a text are written that has only spaces between its words. -/
structure IsLine (single : Bool) (write : Char → List Char) (cs : List Char) : Prop where
  item : ∀ c ∈ cs, c ≠ ' ' → IsItem single c (write c)
  head : ∀ c ∈ cs, c ≠ ' ' → ∀ d ∈ (write c).head?, isGap d = false
  space : write ' ' = [' ']

theorem IsLine.isGap_head? {rest : List Char} (h : IsLine single write cs) (hcs : ∀ c ∈ cs.head?, c ≠ ' ')
    (hrest : cs = [] → ∀ d ∈ rest.head?, isGap d = false) :
    ∀ d ∈ (cs.flatMap write ++ rest).head?, isGap d = false := by
  cases cs with
  | nil => exact hrest rfl
  | cons c cs =>
    have hc := hcs c rfl
    have hne := (h.item c List.mem_cons_self hc).1
    have hhead := h.head c List.mem_cons_self hc
    rw [List.flatMap_cons, List.append_assoc]
    cases hw : write c with
    | nil => exact absurd hw hne
    | cons d ds =>
      rw [hw] at hhead
      rintro d ⟨⟩
      exact hhead d rfl

/-- A text with only spaces between its words is read if it is known how its last word is: that word ends at the point
`q`, where the text does. -/
theorem quotedFrom_line {rest text : List Char} {q e : Point} (h : IsLine single write cs)
    (hend : (∀ d ∈ rest.head?, isGap d = false) ∨ cs.getLast? ≠ some ' ')
    (hlast : ∀ w p fuel, (∀ c ∈ w, IsItem single c (write c)) → p.rest = w.flatMap write ++ rest →
      p.skip (w.flatMap write).length = q → 0 < p.column → p.rest.length < fuel →
      quotedFrom fuel single p = some (w ++ text, e))
    (hp : p.rest = cs.flatMap write ++ rest) (hq : p.skip (cs.flatMap write).length = q) (hcolumn : 0 < p.column)
    (hfuel : p.rest.length < fuel) : quotedFrom fuel single p = some (cs ++ text, e) := by
  induction cs using space_induction generalizing p fuel with
  | word w hw => exact hlast w p fuel (fun c hc => h.item c hc (hw c hc)) hp hq hcolumn hfuel
  | spaced w n cs hw hnext ih =>
    obtain ⟨fuel, rfl⟩ : ∃ m, fuel = m + 1 := ⟨fuel - 1, by omega⟩
    have hitems : ∀ c ∈ w, IsItem single c (write c) := fun c hc => h.item c (List.mem_append_left _ hc) (hw c hc)
    have hsub : ∀ c ∈ cs, c ∈ w ++ (spaces (n + 1) ++ cs) := fun c hc =>
      List.mem_append_right _ (List.mem_append_right _ hc)
    have hcs : IsLine single write cs := ⟨fun c hc => h.item c (hsub c hc), fun c hc => h.head c (hsub c hc), h.space⟩
    have hwritten : (w ++ (spaces (n + 1) ++ cs)).flatMap write
        = w.flatMap write ++ (spaces (n + 1) ++ cs.flatMap write) := by
      rw [List.flatMap_append, List.flatMap_append, flatMap_spaces h.space]
    have hend' : (∀ d ∈ rest.head?, isGap d = false) ∨ cs.getLast? ≠ some ' ' := by
      refine hend.imp_right fun hlast hblank => hlast ?_
      rw [List.getLast?_append, List.getLast?_append, hblank]
      rfl
    have hstart : ∀ d ∈ (cs.flatMap write ++ rest).head?, isGap d = false := hcs.isGap_head? hnext fun hnil => by
      refine hend.resolve_right fun hlast => hlast ?_
      rw [hnil, List.append_nil, getLast?_spaces]
    have hp' : p.rest = w.flatMap write ++ (spaces (n + 1) ++ (cs.flatMap write ++ rest)) := by
      rw [hp, hwritten, List.append_assoc, List.append_assoc]
    have hread : gap? fuel (-1) (p.skip (w.flatMap write).length) = some (.blanks (spaces (n + 1)), _) :=
      gap?_blanks (-1) (Point.rest_skip hp') hstart
    have hnext := rest_skip_spaces (Point.rest_skip hp')
    have hlen := congrArg List.length hp'
    simp only [List.length_append, length_spaces] at hlen
    have hcolumn' : 0 < ((p.skip (w.flatMap write).length).skip (n + 1)).column := by
      show 0 < p.column + (w.flatMap write).length + (n + 1)
      omega
    have hq' : ((p.skip (w.flatMap write).length).skip (n + 1)).skip (cs.flatMap write).length = q := by
      rw [← hq, hwritten, List.length_append, List.length_append, length_spaces, Point.skip_skip, Point.skip_skip,
        Nat.add_assoc]
    have hmore : quotedFrom fuel single _ = some (cs ++ text, e) :=
      ih hcs hend' hnext hq' hcolumn' (by rw [hnext, List.length_append]; omega)
    rw [quotedFrom_gap hitems hp' ⟨' ', rfl, rfl⟩ hcolumn hread hmore hfuel, List.append_assoc, List.append_assoc w,
      List.append_assoc (spaces (n + 1))]
    rfl

end

/-! ## double quotes -/

theorem isPrintable_hexChar (upper : Bool) (d : Nat) : isPrintable (Text.hexChar upper (d % 16)) = true := by
  have hall : ∀ upper, ∀ k : Fin 16, isPrintable (Text.hexChar upper k.val) = true := by decide
  exact hall upper ⟨d % 16, Nat.mod_lt _ (by decide)⟩

theorem digit?_hexChar (d : Nat) : Text.digit? 16 (Text.hexChar true (d % 16)) = some (d % 16) := by
  have hall : ∀ k : Fin 16, Text.digit? 16 (Text.hexChar true k.val) = some k.val := by decide
  exact hall ⟨d % 16, Nat.mod_lt _ (by decide)⟩

theorem length_hex (upper : Bool) (width n : Nat) : (Text.hex upper width n).length = width := by
  simp [Text.hex]

theorem hex_succ (upper : Bool) (width n : Nat) :
    Text.hex upper (width + 1) n = Text.hexChar upper (n / 16 ^ width % 16) :: Text.hex upper width n := by
  simp [Text.hex, List.range_succ]

/-- The digits of a number in hexadecimal read back. -/
theorem digitsFrom_hex (width acc n : Nat) :
    Text.digitsFrom 16 acc (Text.hex true width n) = some (acc * 16 ^ width + n % 16 ^ width) := by
  induction width generalizing acc with
  | zero => simp [Text.hex, Text.digitsFrom, Nat.mod_one]
  | succ width ih =>
    rw [hex_succ, Text.digitsFrom, digit?_hexChar, Option.bind_some, ih]
    have hmod : n % 16 ^ (width + 1) = 16 ^ width * (n / 16 ^ width % 16) + n % 16 ^ width := by
      rw [Nat.pow_succ, Nat.mod_mul, Nat.add_comm]
    rw [hmod, Nat.pow_succ, Nat.add_mul, Nat.mul_assoc, Nat.mul_comm 16, Nat.mul_comm (n / 16 ^ width % 16),
      Nat.add_assoc]

theorem ite_eq_some {α : Type} {P : Prop} [Decidable P] {x y : α} {r : Option α}
    (h : (if P then some x else r) = some y) : P ∧ x = y ∨ r = some y := by
  split at h
  next hP => exact .inl ⟨hP, Option.some.inj h⟩
  next => exact .inr h

theorem unescape?_shortEscape? {c e : Char} (h : Printer.shortEscape? c = some e) :
    unescape? e = some c ∧ escapeWidth? e = none ∧ isBreak e = false ∧ isPrintable e = true := by
  rcases ite_eq_some h with ⟨rfl, rfl⟩ | h
  · decide
  rcases ite_eq_some h with ⟨rfl, rfl⟩ | h
  · decide
  rcases ite_eq_some h with ⟨rfl, rfl⟩ | h
  · decide
  rcases ite_eq_some h with ⟨rfl, rfl⟩ | h
  · decide
  rcases ite_eq_some h with ⟨rfl, rfl⟩ | h
  · decide
  rcases ite_eq_some h with ⟨rfl, rfl⟩ | h
  · decide
  rcases ite_eq_some h with ⟨rfl, rfl⟩ | h
  · decide
  rcases ite_eq_some h with ⟨rfl, rfl⟩ | h
  · decide
  rcases ite_eq_some h with ⟨rfl, rfl⟩ | h
  · decide
  rcases ite_eq_some h with ⟨hc, rfl⟩ | h
  · rcases (by simpa using hc : c = '\x22' ∨ c = '\\') with rfl | rfl <;> decide
  rcases ite_eq_some h with ⟨rfl, rfl⟩ | h
  · decide
  rcases ite_eq_some h with ⟨rfl, rfl⟩ | h
  · decide
  rcases ite_eq_some h with ⟨rfl, rfl⟩ | h
  · decide
  rcases ite_eq_some h with ⟨rfl, rfl⟩ | h
  · decide
  cases h

theorem wordItem?_escape {p : Point} {e c : Char} {rest : List Char} {n : Nat} (h : p.rest = '\\' :: e :: rest)
    (he : isBreak e = false) (hread : escape? (e :: rest) = some (c, n)) :
    wordItem? false p = some (.char c, p.skip (n + 1)) := by
  unfold wordItem?
  rw [h]
  dsimp only
  rw [if_neg (by decide), if_neg Bool.false_ne_true, if_neg (by decide), if_pos rfl, List.head?_cons,
    Option.any_some, he, if_neg Bool.false_ne_true, hread]
  rfl

theorem isItem_shortEscape {c e : Char} (h : Printer.shortEscape? c = some e) : IsItem false c ['\\', e] := by
  obtain ⟨hread, hwidth, hbreak, -⟩ := unescape?_shortEscape? h
  refine ⟨List.cons_ne_nil _ _, fun p rest hp => wordItem?_escape hp hbreak ?_⟩
  rw [escape?, hwidth]
  dsimp only
  rw [hread]
  rfl

theorem isItem_hex {c mark : Char} {width : Nat} (hmark : escapeWidth? mark = some (width + 1))
    (hbreak : isBreak mark = false) (hc : c.toNat < 16 ^ (width + 1)) :
    IsItem false c ('\\' :: mark :: Text.hex true (width + 1) c.toNat) := by
  refine ⟨List.cons_ne_nil _ _, fun p rest hp => ?_⟩
  have hlen := length_hex true (width + 1) c.toNat
  have hdigits : Text.digits? 16 (Text.hex true (width + 1) c.toNat) = some c.toNat := by
    have hread := digitsFrom_hex (width + 1) 0 c.toNat
    rw [Nat.zero_mul, Nat.zero_add, Nat.mod_eq_of_lt hc] at hread
    rw [hex_succ] at hread ⊢
    exact hread
  have hpoint : codePoint? c.toNat = some c := by
    rw [codePoint?, Char.ofNat_toNat]
    exact if_pos c.valid
  have htake : (Text.hex true (width + 1) c.toNat ++ rest).take (width + 1) = Text.hex true (width + 1) c.toNat :=
    List.take_left' hlen
  have hread : escape? (mark :: (Text.hex true (width + 1) c.toNat ++ rest)) = some (c, width + 1 + 1) := by
    rw [escape?, hmark]
    dsimp only
    rw [htake, hlen, if_neg (by simp), hdigits]
    show (codePoint? c.toNat).bind _ = _
    rw [hpoint]
    rfl
  rw [List.length_cons, List.length_cons, hlen]
  exact wordItem?_escape hp hbreak hread

/-- Every character is read back from what stands for it in double quotes. -/
theorem isItem_doubleQuotedChar {c : Char} (hc : c ≠ ' ') : IsItem false c (doubleQuotedChar c) := by
  unfold doubleQuotedChar
  split
  next hplain =>
    simp only [Bool.and_eq_true, Bool.not_eq_true', decide_eq_true_eq] at hplain
    obtain ⟨⟨⟨hprint, hbreak⟩, hquote⟩, hback⟩ := hplain
    have hgap : isGap c = false := by rw [isGap_of_isPrintable hprint, hbreak, Bool.or_false, beq_false_of_ne hc]
    refine ⟨List.cons_ne_nil _ _, fun p rest hp => ?_⟩
    have hp' : p.rest = c :: rest := hp
    unfold wordItem?
    rw [hp']
    dsimp only
    rw [hgap, if_neg Bool.false_ne_true, if_neg Bool.false_ne_true, if_neg hquote, if_neg hback]
    rfl
  next =>
    split
    next e he => exact isItem_shortEscape he
    next =>
      dsimp only
      split
      next hc => exact isItem_hex (rfl : escapeWidth? 'x' = some (1 + 1)) (by decide) (by omega)
      split
      next hc => exact isItem_hex (rfl : escapeWidth? 'u' = some (3 + 1)) (by decide) (by omega)
      next =>
        have hlt : c.toNat < 16 ^ (7 + 1) := c.val.toNat_lt
        exact isItem_hex (rfl : escapeWidth? 'U' = some (7 + 1)) (by decide) hlt

theorem isLine_double (cs : List Char) : IsLine false doubleQuotedChar cs := by
  refine ⟨fun c _ hc => isItem_doubleQuotedChar hc, fun c _ hc => ?_, by decide⟩
  have hback : ∀ d, some '\\' = some d → isGap d = false := by
    rintro d ⟨⟩
    decide
  unfold doubleQuotedChar
  split
  next hplain =>
    simp only [Bool.and_eq_true, Bool.not_eq_true', decide_eq_true_eq] at hplain
    rintro d ⟨⟩
    rw [isGap_of_isPrintable hplain.1.1.1, hplain.1.1.2, Bool.or_false, beq_false_of_ne hc]
  next =>
    split
    · exact hback
    dsimp only
    split
    · exact hback
    split
    · exact hback
    · exact hback

/-- A text in double quotes is read up to the closing one. -/
theorem quotedFrom_double {cs stop : List Char} {p : Point} {fuel : Nat}
    (hp : p.rest = cs.flatMap doubleQuotedChar ++ '\x22' :: stop) (hcolumn : 0 < p.column)
    (hfuel : p.rest.length < fuel) :
    quotedFrom fuel false p = some (cs, p.skip ((cs.flatMap doubleQuotedChar).length + 1)) := by
  have hquote (p : Point) (h : p.rest = '\x22' :: stop) : wordItem? false p = some (.ends .quote, p.skip 1) := by
    unfold wordItem?
    rw [h]
    rfl
  have hstop : ∀ d ∈ ('\x22' :: stop).head?, isGap d = false := by
    rintro d ⟨⟩
    decide
  have hread := quotedFrom_line (isLine_double cs) (.inl hstop) (fun w p fuel h hp hq hcolumn hfuel => by
    rw [List.append_nil]
    exact hq ▸ quotedFrom_last h hquote hp hcolumn hfuel) hp rfl hcolumn hfuel
  rw [hread, List.append_nil, Point.skip_skip]

/-! ## single quotes -/

/-- A character inside single quotes. -/
def singleQuotedChar (c : Char) : List Char := if c = '\x27' then ['\x27', '\x27'] else [c]

section
variable {indent : Nat} {line bs cs stop : List Char} {p : Point} {fuel : Nat}

theorem singleQuotedFrom_line (h : ∀ c ∈ line, isBreak c = false) (cs : List Char) :
    singleQuotedFrom indent false (line ++ cs) = line.flatMap singleQuotedChar ++ singleQuotedFrom indent false cs := by
  induction line with
  | nil => rfl
  | cons c line ih =>
    rw [List.cons_append, singleQuotedFrom, h c List.mem_cons_self, if_neg Bool.false_ne_true,
      if_neg Bool.false_ne_true, List.nil_append, ih fun d hd => h d (List.mem_cons_of_mem _ hd), List.flatMap_cons,
      List.append_assoc]
    rfl

theorem singleQuotedFrom_breaks (h : ∀ b ∈ bs, isBreak b = true) (cs : List Char) :
    singleQuotedFrom indent true (bs ++ cs) = bs ++ singleQuotedFrom indent true cs := by
  induction bs with
  | nil => rfl
  | cons b bs ih =>
    rw [List.cons_append, singleQuotedFrom, if_pos (h b List.mem_cons_self),
      ih fun d hd => h d (List.mem_cons_of_mem _ hd), List.cons_append]

theorem singleQuotedFrom_indented (h : ∀ c ∈ cs.head?, isBreak c = false) :
    singleQuotedFrom indent true cs = spaces indent ++ singleQuotedFrom indent false cs := by
  cases cs with
  | nil => exact (List.append_nil _).symm
  | cons c cs =>
    rw [singleQuotedFrom, singleQuotedFrom, h c rfl, if_neg Bool.false_ne_true, if_neg Bool.false_ne_true, if_pos rfl,
      if_neg Bool.false_ne_true, List.nil_append, List.append_assoc]

theorem isLine_single (h : ∀ c ∈ cs, isPrintable c = true ∧ isBreak c = false) : IsLine true singleQuotedChar cs := by
  have hgap (c : Char) (hc : c ∈ cs) (hne : c ≠ ' ') : isGap c = false := by
    rw [isGap_of_isPrintable (h c hc).1, (h c hc).2, Bool.or_false, beq_false_of_ne hne]
  refine ⟨fun c hc hne => ?_, fun c hc hne => ?_, by decide⟩
  · unfold singleQuotedChar
    split
    next hquote =>
      refine ⟨List.cons_ne_nil _ _, fun p rest hp => ?_⟩
      have hp' : p.rest = '\x27' :: '\x27' :: rest := hp
      unfold wordItem?
      rw [hp', hquote]
      rfl
    next hquote =>
      refine ⟨List.cons_ne_nil _ _, fun p rest hp => ?_⟩
      have hp' : p.rest = c :: rest := hp
      unfold wordItem?
      rw [hp']
      dsimp only
      rw [hgap c hc hne, if_neg Bool.false_ne_true, if_pos rfl, if_neg hquote]
      rfl
  · unfold singleQuotedChar
    split
    · rintro d ⟨⟩
      decide
    · rintro d ⟨⟩
      exact hgap c hc hne

theorem wordItem?_singleQuote (hstop : stop.head? ≠ some '\x27') (p : Point) (h : p.rest = '\x27' :: stop) :
    wordItem? true p = some (.ends .quote, p.skip 1) := by
  unfold wordItem?
  rw [h]
  dsimp only
  rw [if_neg (by decide), if_pos rfl, if_pos rfl, if_neg hstop]

theorem isGap_singleQuote : ∀ d ∈ ('\x27' :: stop).head?, isGap d = false := by
  rintro d ⟨⟩
  decide

/-- A text of one line in single quotes is read up to the closing one. -/
theorem quotedFrom_singleLine (h : ∀ c ∈ cs, isPrintable c = true ∧ isBreak c = false)
    (hstop : stop.head? ≠ some '\x27') (hp : p.rest = cs.flatMap singleQuotedChar ++ '\x27' :: stop)
    (hcolumn : 0 < p.column) (hfuel : p.rest.length < fuel) :
    quotedFrom fuel true p = some (cs, p.skip ((cs.flatMap singleQuotedChar).length + 1)) := by
  have hread := quotedFrom_line (isLine_single h) (.inl isGap_singleQuote) (fun w p fuel h hp hq hcolumn hfuel => by
    rw [List.append_nil]
    exact hq ▸ quotedFrom_last h (wordItem?_singleQuote hstop) hp hcolumn hfuel) hp rfl hcolumn hfuel
  rw [hread, List.append_nil, Point.skip_skip]

theorem isGap_singleQuotedFrom (h : ∀ c ∈ cs.head?, isGap c = false) :
    ∀ d ∈ (singleQuotedFrom indent false cs ++ '\x27' :: stop).head?, isGap d = false := by
  cases cs with
  | nil => exact isGap_singleQuote
  | cons c cs =>
    rw [singleQuotedFrom, isBreak_eq_false_of_isGap (h c rfl), if_neg Bool.false_ne_true, if_neg Bool.false_ne_true]
    split
    · exact isGap_singleQuote
    · rintro d ⟨⟩
      exact h c rfl

/-- No blank stands before a break. -/
theorem getLast?_ne_space {w cs : List Char} {g : Char} {before : Option Char} (hg : isBreak g = true)
    (h : anyBetween (fun before c _ => isBreak c && before == some ' ') before (w ++ g :: cs) = false) :
    w.getLast? ≠ some ' ' := by
  intro hlast
  have hcut := (anyBetween_cons (anyBetween_append h)).1
  rw [hlast, hg, Option.some_or] at hcut
  cases hcut

/-- No blank stands after a break. -/
theorem head?_ne_space {g : Char} (hg : isBreak g = true)
    (h : anyBetween (fun before c _ => c == ' ' && before.any isBreak) (some g) cs = false) :
    ∀ c ∈ cs.head?, c ≠ ' ' := by
  cases cs with
  | nil => exact nofun
  | cons c cs =>
    have hspace := (anyBetween_cons h).1
    rw [Option.any_some, hg, Bool.and_true] at hspace
    rintro d ⟨⟩
    simpa using hspace

/-- What is left of a text that may stand in single quotes, after the character `before`. -/
structure IsSingle (before : Option Char) (cs : List Char) : Prop where
  printable : ∀ c ∈ cs, isPrintable c = true
  noFeed : '\n' ∉ cs
  noTrailing : anyBetween (fun before c _ => isBreak c && before == some ' ') before cs = false
  noIndented : anyBetween (fun before c _ => c == ' ' && before.any isBreak) before cs = false

namespace IsSingle

variable {w gs : List Char} {g : Char} {before : Option Char}

/-- The lines after the first one and the breaks after it: no gap stands at their start. -/
theorem afterBreaks (h : IsSingle before (w ++ g :: (gs ++ cs))) (hg : isBreak g = true)
    (hgs : ∀ b ∈ gs, isBreak b = true) (hnext : ∀ c ∈ cs.head?, isBreak c = false) :
    (∃ b, IsSingle (some b) cs) ∧ ∀ c ∈ cs.head?, isGap c = false := by
  have hlater : ∀ c ∈ cs, c ∈ w ++ g :: (gs ++ cs) := fun c hc =>
    List.mem_append_right _ (List.mem_cons_of_mem _ (List.mem_append_right _ hc))
  have hassoc : w ++ g :: (gs ++ cs) = (w ++ g :: gs) ++ cs := by rw [List.append_assoc, List.cons_append]
  have hbreaks : ∀ b ∈ g :: gs, isBreak b = true := List.forall_mem_cons.mpr ⟨hg, hgs⟩
  obtain ⟨b, hb, hlast⟩ := getLast?_breaks hbreaks w
  have htrailing := h.noTrailing
  have hindented := h.noIndented
  rw [hassoc] at htrailing hindented
  replace htrailing := anyBetween_append htrailing
  replace hindented := anyBetween_append hindented
  rw [hlast, Option.some_or] at htrailing hindented
  refine ⟨⟨b, fun c hc => h.printable c (hlater c hc), fun hmem => h.noFeed (hlater _ hmem), htrailing, hindented⟩,
    fun c hc => ?_⟩
  rw [isGap_of_isPrintable (h.printable c (hlater c (List.mem_of_mem_head? hc))), hnext c hc,
    beq_false_of_ne (head?_ne_space hb hindented c hc)]
  rfl

/-- The breaks of a text in single quotes are separators. -/
theorem isSeparator (h : IsSingle before (w ++ g :: (gs ++ cs))) (hg : isBreak g = true)
    (hgs : ∀ b ∈ gs, isBreak b = true) : ∀ b ∈ g :: gs, Yaml.isSeparator b = true := by
  intro b hb
  have hmem : b ∈ w ++ g :: (gs ++ cs) := by
    rw [← List.cons_append]
    exact List.mem_append_right _ (List.mem_append_left _ hb)
  have hbreaks : ∀ b ∈ g :: gs, isBreak b = true := List.forall_mem_cons.mpr ⟨hg, hgs⟩
  have hbreak := hbreaks b hb
  rw [isBreak_of_isPrintable (h.printable b hmem), Bool.or_eq_true, beq_iff_eq] at hbreak
  exact hbreak.resolve_left fun heq => h.noFeed (heq ▸ hmem)

end IsSingle

/-- The gap of several lines. -/
theorem Gap.text_separators {g : Char} {gs : List Char} (h : ∀ b ∈ g :: gs, isSeparator b = true) :
    (Gap.breaks (breakText g) (gs.flatMap breakText)).text = g :: gs := by
  have hg := h g List.mem_cons_self
  have hfeed : [g] ≠ ['\n'] := by
    rintro ⟨⟩
    exact absurd hg (by decide)
  rw [Gap.text, breakText_of_isSeparator hg, if_neg hfeed,
    flatMap_breakText fun b hb => breakText_of_isSeparator (h b (List.mem_cons_of_mem _ hb))]
  rfl

/-- A line in single quotes and the breaks after it are read, if the lines that follow are. -/
theorem quotedFrom_singleGap {w gs r text : List Char} {g : Char} {q : Point}
    (hline : ∀ c ∈ w, isPrintable c = true ∧ isBreak c = false) (hlast : w.getLast? ≠ some ' ')
    (hseparators : ∀ b ∈ g :: gs, isSeparator b = true) (hstart : ∀ d ∈ r.head?, isGap d = false)
    (hp : p.rest = w.flatMap singleQuotedChar ++ (g :: gs ++ (spaces indent ++ r))) (hcolumn : 0 < p.column)
    (hmore : ∀ fuel, r.length < fuel → quotedFrom fuel true
      ((p.skip (w.flatMap singleQuotedChar).length).afterBreaks (gs.length + 1) indent r) = some (text, q))
    (hfuel : p.rest.length < fuel) : quotedFrom fuel true p = some (w ++ (g :: gs ++ text), q) := by
  have hbreaks : ∀ b ∈ g :: gs, isBreak b = true ∧ b ≠ '\r' := fun b hb => by
    refine ⟨by rw [isBreak, hseparators b hb, Bool.or_true], ?_⟩
    rintro rfl
    exact absurd (hseparators _ hb) (by decide)
  refine quotedFrom_line (isLine_single hline) (.inr hlast) (fun w' p' fuel hitems hp' hq' hcolumn' hfuel' => ?_) hp rfl
    hcolumn hfuel
  obtain ⟨fuel, rfl⟩ : ∃ m, fuel = m + 1 := ⟨fuel - 1, by omega⟩
  have hlen := congrArg List.length hp'
  simp only [List.length_append, List.length_cons, length_spaces] at hlen
  have hgap : gap? fuel (-1) (p.skip (w.flatMap singleQuotedChar).length) = _ :=
    gap?_breaks (-1) (Point.rest_skip hp) hbreaks hstart (by omega)
  have hg : isGap g = true := isGap_of_isBreak (hbreaks g List.mem_cons_self).1
  rw [quotedFrom_gap hitems hp' ⟨g, rfl, hg⟩ hcolumn' ((congrArg (gap? fuel (-1)) hq').trans hgap)
    (hmore fuel (by omega)) hfuel', Gap.text_separators hseparators, List.append_assoc]

/-- A text in single quotes is read up to the closing one, also over several lines. -/
theorem quotedFrom_single {before : Option Char} (h : IsSingle before cs) (hindent : 0 < indent)
    (hstop : stop.head? ≠ some '\x27') (hp : p.rest = singleQuotedFrom indent false cs ++ '\x27' :: stop)
    (hcolumn : 0 < p.column) :
    ∃ q : Point, q.rest = stop ∧ p.line ≤ q.line ∧
      ∀ fuel, p.rest.length < fuel → quotedFrom fuel true p = some (cs, q) := by
  induction cs using gap_induction isBreak generalizing p before with
  | word w hw =>
    have hline : ∀ c ∈ w, isPrintable c = true ∧ isBreak c = false := fun c hc => ⟨h.printable c hc, hw c hc⟩
    have hwritten : p.rest = w.flatMap singleQuotedChar ++ '\x27' :: stop := by
      rw [← List.append_nil w, singleQuotedFrom_line hw] at hp
      simpa [singleQuotedFrom] using hp
    refine ⟨(p.skip (w.flatMap singleQuotedChar).length).skip 1, ?_, Nat.le_refl _, fun fuel hfuel => ?_⟩
    · exact Point.rest_skip_one (Point.rest_skip hwritten)
    · rw [Point.skip_skip]
      exact quotedFrom_singleLine hline hstop hwritten hcolumn hfuel
  | gapped w g gs cs hw hg hgs hnext ih =>
    have hline : ∀ c ∈ w, isPrintable c = true ∧ isBreak c = false := fun c hc =>
      ⟨h.printable c (List.mem_append_left _ hc), hw c hc⟩
    obtain ⟨⟨b, hmore⟩, hhead⟩ := h.afterBreaks hg hgs hnext
    have hwritten : p.rest = w.flatMap singleQuotedChar
        ++ (g :: gs ++ (spaces indent ++ (singleQuotedFrom indent false cs ++ '\x27' :: stop))) := by
      rw [hp, singleQuotedFrom_line hw, singleQuotedFrom, if_pos hg, singleQuotedFrom_breaks hgs,
        singleQuotedFrom_indented hnext]
      simp only [List.append_assoc, List.cons_append]
    obtain ⟨q, hrest, hle, hread⟩ :=
      ih hmore (p := (p.skip (w.flatMap singleQuotedChar).length).afterBreaks (gs.length + 1) indent _) rfl hindent
    refine ⟨q, hrest, Nat.le_trans (Nat.le_add_right _ _) hle, fun fuel hfuel => ?_⟩
    exact quotedFrom_singleGap hline (getLast?_ne_space hg h.noTrailing) (h.isSeparator hg hgs)
      (isGap_singleQuotedFrom hhead) hwritten hcolumn hread hfuel

end

end DeviceSettings.Yaml

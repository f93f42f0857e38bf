import DeviceSettings.Proofs.Yaml.Quoted
import DeviceSettings.Yaml.Token.Stream

/-!
# Plain texts read back

A text that may stand plain is read up to the colon after it (`plainFrom_key`) or up to the start of the next line
(`plainFrom_line`).  No character in it stands for something else where it is: colons are inside words, and number
signs are not at their start.
-/

namespace DeviceSettings.Yaml

open Printer (anyBetween isEdge isIndicator isPrintable mayBePlain spaces)

/-! ## words -/

section
variable {w cs rest stop : List Char} {before : Option Char} {p q e : Point} {fuel : Nat} {indent : Int}

theorem isLostColon_block (cs : List Char) : isLostColon false cs = false := by
  unfold isLostColon
  split <;> rfl

/-- A word with what follows it in its text is read up to what ends it. -/
theorem plainWord_word (hw : ∀ c ∈ w, isGap c = false) (h : anyBetween isIndicator before (w ++ cs) = false)
    (hedge : isEdge cs.head? = true) (hstop : plainWord false stop = some []) :
    plainWord false (w ++ stop) = some w := by
  induction w generalizing before with
  | nil => exact hstop
  | cons c w ih =>
    have hc := hw c List.mem_cons_self
    have hcut := anyBetween_cons h
    have hcolon : (c == ':' && gapNext (w ++ stop)) = false := by
      cases w with
      | nil =>
        rw [Bool.and_eq_false_iff]
        left
        by_contra heq
        rw [Bool.not_eq_false, beq_iff_eq] at heq
        subst heq
        have hin : isIndicator before ':' cs.head? = true := by
          cases before <;> simp [isIndicator, hedge]
        exact absurd (hin.symm.trans hcut.1) Bool.false_ne_true.symm
      | cons d w =>
        show (c == ':' && isGap d) = false
        rw [hw d (List.mem_cons_of_mem _ List.mem_cons_self), Bool.and_false]
    have hends : endsPlain false (c :: (w ++ stop)) = false := by
      rw [endsPlain, hc, hcolon]
      rfl
    rw [List.cons_append, plainWord, hc, if_neg Bool.false_ne_true, isLostColon_block, if_neg Bool.false_ne_true, hends,
      if_neg Bool.false_ne_true, ih (fun d hd => hw d (List.mem_cons_of_mem _ hd)) hcut.2]
    rfl

/-- No word begins with a number sign. -/
theorem head?_ne_numberSign (hbefore : before = none ∨ before = some ' ')
    (h : anyBetween isIndicator before (w ++ cs) = false) (hne : w ≠ []) : (w ++ stop).head? ≠ some '#' := by
  cases w with
  | nil => exact absurd rfl hne
  | cons c w =>
    rintro ⟨⟩
    have hcut := (anyBetween_cons h).1
    rcases hbefore with rfl | rfl
    · simp [isIndicator, Printer.isMark] at hcut
    · simp [isIndicator, isEdge, isGap, isBlank] at hcut

/-- One word of a plain text, and what is made of the gap after it. -/
theorem plainFrom_word (hw : ∀ c ∈ w, isGap c = false) (hne : w ≠ []) (hbefore : before = none ∨ before = some ' ')
    (h : anyBetween isIndicator before (w ++ cs) = false) (hedge : isEdge cs.head? = true)
    (hstop : plainWord false stop = some []) (hmark : p.atMarker = false) (hp : p.rest = w ++ stop) (g : Gap) :
    plainFrom (fuel + 1) false indent g p =
      if stop.head?.any isGap then
        (gap? fuel indent (p.skip w.length)).bind fun (g', q) =>
          if q.column < indent then some (g.text ++ w, g'.isBroken, q)
          else (plainFrom fuel false indent g' q).bind fun (more, broken, q) =>
            some (g.text ++ w ++ more, broken, q)
      else some (g.text ++ w, false, p.skip w.length) := by
  have hempty : w.isEmpty = false := List.isEmpty_eq_false_iff.mpr hne
  have hsign : ¬(p.atMarker || decide (p.rest.head? = some '#')) = true := by
    rw [hmark, hp, Bool.false_or, decide_eq_true_eq]
    exact head?_ne_numberSign hbefore h hne
  rw [plainFrom, if_neg hsign, hp, plainWord_word hw h hedge hstop]
  show (if (p.skip w.length).rest.head?.any isGap then _ else _) = _
  rw [Point.rest_skip hp]
  split
  · refine congrArg (gap? fuel indent (p.skip w.length)).bind (funext fun (g', q) => ?_)
    simp [hempty]
  · simp [hempty]

theorem isGap_of_mem (hprint : ∀ c ∈ cs, isPrintable c = true ∧ isBreak c = false) {c : Char} (hc : c ∈ cs)
    (hne : c ≠ ' ') : isGap c = false := by
  rw [isGap_of_isPrintable (hprint c hc).1, (hprint c hc).2, beq_false_of_ne hne]
  rfl

/-- What is left of a plain text where one of its words begins, after the character `before`. -/
structure IsWords (before : Option Char) (cs : List Char) : Prop where
  ne_nil : cs ≠ []
  line : ∀ c ∈ cs, isPrintable c = true ∧ isBreak c = false
  head : ∀ c ∈ cs.head?, c ≠ ' '
  last : cs.getLast? ≠ some ' '
  space : before = none ∨ before = some ' '
  within : anyBetween isIndicator before cs = false

namespace IsWords

theorem isGap_head? (h : IsWords before cs) (stop : List Char) : ∀ c ∈ (cs ++ stop).head?, isGap c = false := by
  obtain ⟨c, cs, rfl⟩ := List.exists_cons_of_ne_nil h.ne_nil
  rintro _ ⟨⟩
  exact isGap_of_mem h.line List.mem_cons_self (h.head c rfl)

variable {n : Nat} (h : IsWords before (w ++ (spaces (n + 1) ++ cs)))
include h

theorem word (hw : ∀ c ∈ w, c ≠ ' ') : w ≠ [] ∧ ∀ c ∈ w, isGap c = false := by
  refine ⟨?_, fun c hc => isGap_of_mem h.line (List.mem_append_left _ hc) (hw c hc)⟩
  rintro rfl
  exact h.head ' ' rfl rfl

/-- The words after the first and the spaces after it. -/
theorem afterSpaces (hnext : ∀ c ∈ cs.head?, c ≠ ' ') : IsWords (some ' ') cs := by
  have hne : cs ≠ [] := by
    rintro rfl
    exact h.last (by rw [List.append_nil, getLast?_spaces])
  refine ⟨hne, fun c hc => h.line c ?_, hnext, fun heq => h.last ?_, .inr rfl, ?_⟩
  · exact List.mem_append_right _ (List.mem_append_right _ hc)
  · rw [List.getLast?_append, List.getLast?_append, heq]
    rfl
  · have hwithin := h.within
    rw [← List.append_assoc] at hwithin
    have hcut := anyBetween_append hwithin
    rwa [getLast?_spaces, Option.some_or] at hcut

end IsWords

/-- The words of a plain text up to its end, if it is known how its last word is read: that word ends at the point `q`,
where the text does. -/
theorem plainFrom_words {broken : Bool} (h : IsWords before cs) (hmark : p.atMarker = false)
    (hcolumn : indent ≤ p.column + 1) (hp : p.rest = cs ++ stop) (hq : p.skip cs.length = q)
    (hfuel : p.rest.length < fuel) (g : Gap)
    (hend : ∀ w before p fuel g, (∀ c ∈ w, isGap c = false) → IsWords before w → p.atMarker = false →
      p.rest = w ++ stop → p.skip w.length = q → p.rest.length < fuel →
        plainFrom fuel false indent g p = some (g.text ++ w, broken, e)) :
    plainFrom fuel false indent g p = some (g.text ++ cs, broken, e) := by
  induction cs using space_induction generalizing p before g fuel with
  | word w hw => exact hend w before p fuel g (fun c hc => isGap_of_mem h.line hc (hw c hc)) h hmark hp hq hfuel
  | spaced w n cs hw hnext ih =>
    obtain ⟨fuel, rfl⟩ : ∃ m, fuel = m + 1 := ⟨fuel - 1, by omega⟩
    obtain ⟨hword, hgap⟩ := h.word hw
    have hwords := h.afterSpaces hnext
    have hp' : p.rest = w ++ (spaces (n + 1) ++ (cs ++ stop)) := by
      rw [hp, List.append_assoc, List.append_assoc]
    have hrest := rest_skip_spaces (Point.rest_skip hp')
    have hq' : ((p.skip w.length).skip (n + 1)).skip cs.length = q := by
      rw [← hq, List.length_append, List.length_append, length_spaces, Point.skip_skip, Point.skip_skip, Nat.add_assoc]
    have hcolumn' : indent ≤ ((p.skip w.length).skip (n + 1)).column := by
      show indent ≤ ((p.column + w.length + (n + 1) : Nat) : Int)
      omega
    have hmark' : ((p.skip w.length).skip (n + 1)).atMarker = false := not_atMarker (Nat.succ_pos _)
    have hlen : ((p.skip w.length).skip (n + 1)).rest.length < fuel := by
      have hlen := congrArg List.length hp'
      rw [List.length_append, List.length_append, length_spaces] at hlen
      rw [hrest]
      omega
    have hmore := ih hwords hmark' (Int.le_add_one hcolumn') hrest hq' hlen (.blanks (spaces (n + 1)))
    rw [plainFrom_word hgap hword h.space h.within rfl rfl hmark hp',
      gap?_blanks indent (Point.rest_skip hp') (hwords.isGap_head? stop)]
    show (if _ < indent then _ else _) = _
    rw [if_neg (Int.not_lt.mpr hcolumn'), hmore]
    simp only [Option.bind_some, Gap.text, List.append_assoc]

end

/-! ## texts -/

/-- What a text that may stand plain is like. -/
structure IsPlain (cs : List Char) : Prop where
  ne_nil : cs ≠ []
  line : ∀ c ∈ cs, isPrintable c = true ∧ isBreak c = false
  head : ∀ c ∈ cs.head?, c ≠ ' '
  last : cs.getLast? ≠ some ' '
  within : anyBetween isIndicator none cs = false
  marker : Printer.isMarkerLike cs = false

theorem isPlain_of_mayBePlain {cs : List Char} (h : mayBePlain cs = true) (hne : cs ≠ []) : IsPlain cs := by
  simp only [mayBePlain, Printer.isMultiline, Printer.isEnd, Printer.hasIndicators, Bool.and_eq_true, Bool.not_eq_true',
    Bool.or_eq_false_iff, List.all_eq_true, List.any_eq_false] at h
  obtain ⟨⟨⟨hprint, hbreak⟩, hhead, hlast⟩, hmarker, hwithin⟩ := h
  refine ⟨hne, fun c hc => ⟨hprint c hc, by simpa using hbreak c hc⟩, fun c hc => ?_, fun heq => ?_, hwithin, hmarker⟩
  · rw [Option.mem_def.mp hc] at hhead
    simpa using hhead
  · rw [heq] at hlast
    cases hlast

theorem isMarker_eq_false {mark : Char} {cs stop : List Char} (hne : cs ≠ []) (hcs : cs.take 3 ≠ [mark, mark, mark])
    (hstop : stop.head? ≠ some mark) : isMarker mark (cs ++ stop) = false := by
  by_contra h
  rw [Bool.not_eq_false] at h
  unfold isMarker at h
  split at h
  next a b c rest heq =>
    simp only [Bool.and_eq_true, beq_iff_eq] at h
    obtain ⟨⟨⟨rfl, rfl⟩, rfl⟩, -⟩ := h
    match cs, hne with
    | [_], _ => exact hstop (congrArg List.head? (List.cons.inj heq).2)
    | [_, _], _ => exact hstop (congrArg List.head? (List.cons.inj (List.cons.inj heq).2).2)
    | x :: y :: z :: cs, _ =>
      simp only [List.cons_append, List.cons.injEq] at heq
      obtain ⟨rfl, rfl, rfl, -⟩ := heq
      exact hcs rfl
  next => cases h

namespace IsPlain

section
variable {cs stop : List Char} {p : Point} {fuel : Nat} {indent : Int}

theorem words (h : IsPlain cs) : IsWords none cs := ⟨h.ne_nil, h.line, h.head, h.last, .inl rfl, h.within⟩

/-- No line of a document's own marks begins with a plain text. -/
theorem isMarker (h : IsPlain cs) {c : Char} (hstop : stop.head? = some c) (hc : c ≠ '-' ∧ c ≠ '.') :
    startsDocument (cs ++ stop) = false ∧ endsDocument (cs ++ stop) = false := by
  have hmarker := h.marker
  rw [Printer.isMarkerLike, Bool.or_eq_false_iff, beq_eq_false_iff_ne, beq_eq_false_iff_ne] at hmarker
  exact ⟨isMarker_eq_false h.ne_nil hmarker.1 (by rw [hstop]; simpa using hc.1),
    isMarker_eq_false h.ne_nil hmarker.2 (by rw [hstop]; simpa using hc.2)⟩

theorem not_atMarker (h : IsPlain cs) {c : Char} (hstop : stop.head? = some c) (hc : c ≠ '-' ∧ c ≠ '.')
    (hp : p.rest = cs ++ stop) : p.atMarker = false := by
  obtain ⟨hstart, hend⟩ := h.isMarker hstop hc
  rw [Point.atMarker, hp, hstart, hend, Bool.or_false, Bool.and_false]

/-- A plain text is read up to the colon after it. -/
theorem plainFrom_key (h : IsPlain cs) (hstop : gapNext stop = true) (hp : p.rest = cs ++ ':' :: stop)
    (hcolumn : indent ≤ p.column + 1) (hfuel : p.rest.length < fuel) :
    plainFrom fuel false indent .none p = some (cs, false, p.skip cs.length) := by
  have hmark := h.not_atMarker rfl (by decide) hp
  have hends : plainWord false (':' :: stop) = some [] := by
    rw [plainWord, if_neg (by decide), isLostColon_block, if_neg Bool.false_ne_true, endsPlain, hstop]
    rfl
  refine plainFrom_words h.words hmark hcolumn hp rfl hfuel .none
    fun w before p' fuel g hw hlast hmark' hp' hq hfuel' => ?_
  obtain ⟨fuel, rfl⟩ : ∃ m, fuel = m + 1 := ⟨fuel - 1, by omega⟩
  have hwithin := hlast.within
  rw [← List.append_nil w] at hwithin
  rw [plainFrom_word hw hlast.ne_nil hlast.space hwithin rfl hends hmark' hp' g,
    if_neg (by exact Bool.false_ne_true), hq]

/-- A plain text is read up to the start of the next line that is not empty. -/
theorem plainFrom_line (h : IsPlain cs) {k : Nat} {rest : List Char} (hp : p.rest = cs ++ '\n' :: (spaces k ++ rest))
    (hrest : ∀ c ∈ rest.head?, isGap c = false) (hk : k < indent) (hcolumn : indent ≤ p.column + 1)
    (hfuel : p.rest.length < fuel) :
    plainFrom fuel false indent .none p = some (cs, true, (p.skip cs.length).afterBreaks 1 k rest) := by
  have hmark := h.not_atMarker rfl (by decide) hp
  refine plainFrom_words h.words hmark hcolumn hp rfl hfuel .none
    fun w before p' fuel g hw hlast hmark' hp' hq hfuel' => ?_
  obtain ⟨fuel, rfl⟩ : ∃ m, fuel = m + 1 := ⟨fuel - 1, by omega⟩
  have hfeed : ∀ c ∈ ['\n'], isBreak c = true ∧ c ≠ '\r' := List.forall_mem_singleton.mpr (by decide)
  have hgap : gap? fuel indent (p.skip cs.length) = some (.breaks ['\n'] [], (p.skip cs.length).afterBreaks 1 k rest) :=
    gap?_breaks indent (Point.rest_skip hp) hfeed hrest (Nat.zero_le fuel)
  have hwithin := hlast.within
  rw [← List.append_nil w] at hwithin
  rw [plainFrom_word hw hlast.ne_nil hlast.space hwithin rfl rfl hmark' hp' g,
    if_pos (by exact (rfl : isGap '\n' = true)), hq, hgap]
  show (if (k : Int) < indent then _ else _) = _
  rw [if_pos hk]
  rfl

end

end IsPlain

end DeviceSettings.Yaml

import DeviceSettings.Proofs.Yaml.Written

/-!
# The tokens of what is written

A written document is read as the tokens of its entries (`tokens_print`), by one theorem for each class of the printer.
Which tokens a value has depends on where it stands: a list under a simple key is not indented below it, so no token
tells where it begins or ends.
-/

namespace DeviceSettings.Yaml

open Printer (afterKey afterMark entryLines isPrintable itemLines spaces style)

/-! ## tokens -/

mutual

/-- The tokens of a value under a simple key. -/
def keyedTokens : Value → List Token
  | .boolean b => [.scalar (if b then "true" else "false") .plain]
  | .natural n => [.scalar (toString n) .plain]
  | .text s => [.scalar s (style s)]
  | .list [] => [.flowSequence, .flowSequenceEnd]
  | .list items => itemTokens items
  | .map [] => [.flowMapping, .flowMappingEnd]
  | .map entries => .blockMapping :: entryTokens entries ++ [.blockEnd]

/-- The tokens of a value after a mark. -/
def markedTokens : Value → List Token
  | .boolean b => [.scalar (if b then "true" else "false") .plain]
  | .natural n => [.scalar (toString n) .plain]
  | .text s => [.scalar s (style s)]
  | .list [] => [.flowSequence, .flowSequenceEnd]
  | .list items => .blockSequence :: itemTokens items ++ [.blockEnd]
  | .map [] => [.flowMapping, .flowMappingEnd]
  | .map entries => .blockMapping :: entryTokens entries ++ [.blockEnd]

def itemTokens : List Value → List Token
  | [] => []
  | v :: rest => .blockEntry :: markedTokens v ++ itemTokens rest

def entryTokens : List (String × Value) → List Token
  | [] => []
  | (k, v) :: rest =>
    [.key, .scalar k (style k), .value] ++ (if Printer.isSimpleKey k then keyedTokens v else markedTokens v)
      ++ entryTokens rest

end

theorem keyedTokens_list (v : Value) (vs : List Value) : keyedTokens (.list (v :: vs)) = itemTokens (v :: vs) := by
  rw [keyedTokens]
  exact List.cons_ne_nil v vs

theorem keyedTokens_map (e : String × Value) (es : List (String × Value)) :
    keyedTokens (.map (e :: es)) = .blockMapping :: entryTokens (e :: es) ++ [.blockEnd] := by
  rw [keyedTokens]
  exact List.cons_ne_nil e es

/-- Only a list that holds something has other tokens under a simple key than after a mark. -/
theorem keyedTokens_eq {v : Value} (h : ∀ w ws, v ≠ .list (w :: ws)) : keyedTokens v = markedTokens v := by
  match v with
  | .boolean _ | .natural _ | .text _ | .list [] | .map [] | .map (_ :: _) => simp [keyedTokens, markedTokens]
  | .list (w :: ws) => exact absurd rfl (h w ws)

theorem markedTokens_list (v : Value) (vs : List Value) :
    markedTokens (.list (v :: vs)) = .blockSequence :: itemTokens (v :: vs) ++ [.blockEnd] := by
  rw [markedTokens]
  exact List.cons_ne_nil v vs

theorem markedTokens_map (e : String × Value) (es : List (String × Value)) :
    markedTokens (.map (e :: es)) = .blockMapping :: entryTokens (e :: es) ++ [.blockEnd] := by
  rw [markedTokens]
  exact List.cons_ne_nil e es

theorem entryTokens_cons (e : String × Value) (es : List (String × Value)) :
    entryTokens (e :: es) = entryTokens [e] ++ entryTokens es := by
  obtain ⟨key, v⟩ := e
  rw [entryTokens, entryTokens, entryTokens, List.append_nil]

/-! ## reading what is written -/

namespace Stream

section
variable {b : Block} {p : Point} {k outer : Nat} {rest : List Char} {allowed : Bool}

/-- A word of one line after a blank. -/
theorem reaches_plain {str : String} (hstr : IsPlain str.toList) (hb : b.indent = outer) (hcolumn : outer ≤ p.column)
    (hp : p.rest = (' ' :: str.toList ++ ['\n']) ++ (spaces k ++ rest)) (hk : k ≤ outer) (hrest : IsStart rest) :
    ∃ s', Reaches (inBlock b p allowed) s' ∧ Rests s' (b.add [.scalar str .plain]) k rest := by
  have hword : p.rest = spaces 1 ++ (str.toList ++ '\n' :: (spaces k ++ rest)) := by
    rw [hp]
    simp [spaces]
  have harrives : Arrives (inBlock b p allowed) b (p.skip 1) allowed :=
    arrives_spaces hword (isStart_of_isPlain hstr _) (by omega)
  obtain ⟨s', hstep, hrests⟩ := harrives.plain hstr (rest_skip_spaces hword)
    (by show b.indent < ((p.column + 1 : Nat) : Int); omega) (by omega) hrest
  rw [String.ofList_toList] at hrests
  exact ⟨s', .single hstep, hrests⟩

theorem reaches_text {str : String} (hb : b.indent = outer) (hcolumn : outer ≤ p.column)
    (hp : p.rest = (' ' :: Printer.textLine (outer + 2) str) ++ (spaces k ++ rest)) (hk : k ≤ outer)
    (hrest : IsStart rest) :
    ∃ s', Reaches (inBlock b p allowed) s' ∧ Rests s' (b.add [.scalar str (style str)]) k rest := by
  have hline : p.rest = spaces 1 ++ (Printer.textLine (outer + 2) str ++ (spaces k ++ rest)) := hp
  have harrives : Arrives (inBlock b p allowed) b (p.skip 1) allowed :=
    arrives_spaces hline (isStart_textLine str _) (by omega)
  obtain ⟨s', hstep, hrests⟩ := harrives.text hb (rest_skip_spaces hline) (Nat.lt_succ_of_le hcolumn) hk hrest
  exact ⟨s', .single hstep, hrests⟩

theorem reaches_pair {first last : Char} {t t' : Token} (hpair : IsPair first last t t') (hb : b.indent = outer)
    (hcolumn : outer ≤ p.column) (hp : p.rest = [' ', first, last, '\n'] ++ (spaces k ++ rest)) (hrest : IsStart rest) :
    ∃ s', Reaches (inBlock b p allowed) s' ∧ Rests s' (b.add [t, t']) k rest := by
  have hline : p.rest = spaces 1 ++ (first :: last :: '\n' :: (spaces k ++ rest)) := hp
  have hstart : IsStart (first :: last :: '\n' :: (spaces k ++ rest)) := by
    cases hpair <;> exact isStart_cons (by decide) _
  have harrives : Arrives (inBlock b p allowed) b (p.skip 1) allowed := arrives_spaces hline hstart (by omega)
  exact harrives.pair hpair (rest_skip_spaces hline) (by show b.indent < ((p.column + 1 : Nat) : Int); omega) hrest

end

/-! ## values, items and entries -/

section
variable {s : Stream} {b : Block} {p : Point} {column : Nat} {cs rest : List Char}

theorem Arrives.step_item (h : Arrives s b p true) (hcolumn : p.column = column) (hcs : ∃ ds, cs = ' ' :: ds)
    (hp : p.rest = '-' :: (cs ++ rest)) :
    Step s (inBlock ((b.enter .blockSequence column).add [.blockEntry]) (p.skip 1) true) := by
  obtain ⟨ds, rfl⟩ := hcs
  refine h.step (by rw [hp]; exact List.cons_ne_nil _ _) ?_ ?_
  · rw [token_item hp, hcolumn]
    exact dropStale_none rfl rfl
  · show (p.skip 1).rest.length < p.rest.length
    rw [Point.rest_skip_one hp, hp]
    exact Nat.lt_succ_self _

/-- A key after its mark, and the mark of its value. -/
theorem Arrives.markedKey (h : Arrives s b p true) (hcolumn : p.column = column) (hb : b.indent ≤ column) {key : String}
    (hcs : ∃ ds, cs = ' ' :: ds)
    (hp : p.rest = '?' :: ((' ' :: Printer.textLine (column + 2) key) ++ (spaces column ++ ':' :: (cs ++ rest)))) :
    ∃ q, Reaches s (inBlock ((b.enter .blockMapping column).add [.key, .scalar key (style key), .value]) q true)
      ∧ q.rest = cs ++ rest ∧ q.column = column + 1 := by
  obtain ⟨ds, rfl⟩ := hcs
  have hblock (ts : List Token) : ((b.enter .blockMapping column).add ts).indent = column := Block.indent_enter hb
  have hfirst : Step s (inBlock ((b.enter .blockMapping column).add [.key]) (p.skip 1) true) := by
    refine h.step (by rw [hp]; exact List.cons_ne_nil _ _) ?_ ?_
    · rw [token_key hp, hcolumn]
      exact dropStale_none rfl rfl
    · show (p.skip 1).rest.length < p.rest.length
      rw [Point.rest_skip_one hp, hp]
      exact Nat.lt_succ_self _
  have hinside := Point.rest_skip_one hp
  have hstart : IsStart (':' :: ((' ' :: ds) ++ rest)) := isStart_cons (by decide) _
  have hkeycolumn : column ≤ (p.skip 1).column := Nat.le_succ_of_le (Nat.le_of_eq hcolumn.symm)
  obtain ⟨t, hreaches, hrests⟩ :
      ∃ t, Reaches (inBlock ((b.enter .blockMapping column).add [.key]) (p.skip 1) true) t ∧ _ :=
    reaches_text (hblock _) hkeycolumn hinside (Nat.le_refl _) hstart
  rw [Block.add_add] at hrests
  obtain ⟨q, harrives, hq, hqcolumn⟩ := hrests.arrives (hblock _)
  have hlast : Step t (inBlock ((b.enter .blockMapping column).add [.key, .scalar key (style key), .value])
      (q.skip 1) true) := by
    refine harrives.step (by rw [hq]; exact List.cons_ne_nil _ _) ?_ ?_
    · rw [token_value hq, hqcolumn, Block.enter_same (hblock _), Block.add_add]
      exact dropStale_none rfl rfl
    · show (q.skip 1).rest.length < q.rest.length
      rw [Point.rest_skip_one hq, hq]
      exact Nat.lt_succ_self _
  exact ⟨q.skip 1, .tail (.head hfirst hreaches) hlast, Point.rest_skip_one hq, congrArg (· + 1) hqcolumn⟩

end

mutual

theorem reaches_keyed (v : Value) {b : Block} {p : Point} {k outer : Nat} {rest : List Char} (hb : b.indent = outer)
    (hcolumn : outer ≤ p.column) (hp : p.rest = afterKey outer v ++ (spaces k ++ rest)) (hk : k ≤ outer)
    (hrest : IsStart rest) :
    ∃ s', Reaches (inBlock b p false) s' ∧ Rests s' (b.add (keyedTokens v)) k rest := by
  match v with
  | .boolean x =>
    rw [afterKey] at hp
    rw [keyedTokens]
    exact reaches_plain (isPlain_boolean x) hb hcolumn hp hk hrest
  | .natural n =>
    rw [afterKey] at hp
    rw [keyedTokens]
    exact reaches_plain (isPlain_natural n) hb hcolumn hp hk hrest
  | .text s =>
    rw [afterKey] at hp
    rw [keyedTokens]
    exact reaches_text hb hcolumn hp hk hrest
  | .list [] =>
    rw [afterKey] at hp
    rw [keyedTokens]
    exact reaches_pair .list hb hcolumn hp hrest
  | .map [] =>
    rw [afterKey] at hp
    rw [keyedTokens]
    exact reaches_pair .map hb hcolumn hp hrest
  | .list (v :: vs) =>
    rw [afterKey_list, List.cons_append, List.append_assoc] at hp
    rw [keyedTokens_list]
    have harrives : Arrives (inBlock b p false) b _ true := arrives_line hp (isStart_itemLines _) (by omega)
    have hread := reaches_items (v :: vs) outer (List.cons_ne_nil v vs) harrives rfl (by omega) rfl hk hrest
    rwa [Block.enter_same hb] at hread
  | .map (e :: es) =>
    rw [afterKey_map, List.cons_append, List.append_assoc] at hp
    rw [keyedTokens_map]
    have harrives : Arrives (inBlock b p false) b _ true := arrives_line hp (isStart_entryLines _) (by omega)
    obtain ⟨s', hreaches, hrests⟩ :=
      reaches_entries (e :: es) (outer + 2) (List.cons_ne_nil e es) harrives rfl (by omega) rfl (by omega) hrest
    exact ⟨s', hreaches, hrests.leave (by omega)⟩

theorem reaches_marked (v : Value) {b : Block} {p : Point} {k outer : Nat} {rest : List Char} (hb : b.indent = outer)
    (hcolumn : p.column = outer + 1) (hp : p.rest = afterMark outer v ++ (spaces k ++ rest)) (hk : k ≤ outer)
    (hrest : IsStart rest) :
    ∃ s', Reaches (inBlock b p true) s' ∧ Rests s' (b.add (markedTokens v)) k rest := by
  have hcolumn' : outer ≤ p.column := by omega
  match v with
  | .boolean x =>
    rw [afterMark] at hp
    rw [markedTokens]
    exact reaches_plain (isPlain_boolean x) hb hcolumn' hp hk hrest
  | .natural n =>
    rw [afterMark] at hp
    rw [markedTokens]
    exact reaches_plain (isPlain_natural n) hb hcolumn' hp hk hrest
  | .text s =>
    rw [afterMark] at hp
    rw [markedTokens]
    exact reaches_text hb hcolumn' hp hk hrest
  | .list [] =>
    rw [afterMark] at hp
    rw [markedTokens]
    exact reaches_pair .list hb hcolumn' hp hrest
  | .map [] =>
    rw [afterMark] at hp
    rw [markedTokens]
    exact reaches_pair .map hb hcolumn' hp hrest
  | .list (v :: vs) =>
    rw [afterMark_list] at hp
    rw [markedTokens_list]
    have hline : p.rest = spaces 1 ++ (itemLines (outer + 2) false (v :: vs) ++ (spaces k ++ rest)) := hp
    have harrives : Arrives (inBlock b p true) b _ true := arrives_spaces hline (isStart_itemLines _) (by omega)
    have hitem : (p.skip 1).column = outer + 2 := congrArg (· + 1) hcolumn
    obtain ⟨s', hreaches, hrests⟩ := reaches_items (v :: vs) (outer + 2) (List.cons_ne_nil v vs) harrives hitem
      (by omega) (rest_skip_spaces hline) (by omega) hrest
    exact ⟨s', hreaches, hrests.leave (by omega)⟩
  | .map (e :: es) =>
    rw [afterMark_map] at hp
    rw [markedTokens_map]
    have hline : p.rest = spaces 1 ++ (entryLines (outer + 2) false (e :: es) ++ (spaces k ++ rest)) := hp
    have harrives : Arrives (inBlock b p true) b _ true := arrives_spaces hline (isStart_entryLines _) (by omega)
    have hentry : (p.skip 1).column = outer + 2 := congrArg (· + 1) hcolumn
    obtain ⟨s', hreaches, hrests⟩ := reaches_entries (e :: es) (outer + 2) (List.cons_ne_nil e es) harrives hentry
      (by omega) (rest_skip_spaces hline) (by omega) hrest
    exact ⟨s', hreaches, hrests.leave (by omega)⟩

theorem reaches_items (vs : List Value) (column : Nat) (hne : vs ≠ []) {s : Stream} {b : Block} {p : Point} {k : Nat}
    {rest : List Char} (h : Arrives s b p true) (hcolumn : p.column = column) (hb : b.indent ≤ column)
    (hp : p.rest = itemLines column false vs ++ (spaces k ++ rest)) (hk : k ≤ column) (hrest : IsStart rest) :
    ∃ s', Reaches s s' ∧ Rests s' ((b.enter .blockSequence column).add (itemTokens vs)) k rest := by
  match vs with
  | [] => exact absurd rfl hne
  | v :: vs =>
    rw [itemLines_cons, List.cons_append, List.append_assoc] at hp
    have hmark := h.step_item hcolumn (afterMark_cons v) hp
    have hblock (ts : List Token) : ((b.enter .blockSequence column).add ts).indent = column := Block.indent_enter hb
    have hvalue : (p.skip 1).column = column + 1 := congrArg (· + 1) hcolumn
    have hinside := Point.rest_skip_one hp
    match vs with
    | [] =>
      rw [itemLines, List.nil_append] at hinside
      obtain ⟨s', hreaches, hrests⟩ := reaches_marked v (hblock _) hvalue hinside hk hrest
      rw [Block.add_add] at hrests
      refine ⟨s', .head hmark hreaches, ?_⟩
      rw [itemTokens, itemTokens, List.append_nil]
      exact hrests
    | w :: ws =>
      rw [itemLines_indented, List.append_assoc] at hinside
      obtain ⟨t, hreaches, hrests⟩ := reaches_marked v (hblock _) hvalue hinside (Nat.le_refl _) (isStart_itemLines _)
      rw [Block.add_add] at hrests
      obtain ⟨q, harrives, hq, hqcolumn⟩ := hrests.arrives (hblock _)
      obtain ⟨s', hreaches', hrests'⟩ := reaches_items (w :: ws) column (List.cons_ne_nil w ws) harrives hqcolumn
        (Int.le_of_eq (hblock _)) hq hk hrest
      rw [Block.enter_same (hblock _), Block.add_add] at hrests'
      refine ⟨s', (Relation.ReflTransGen.head hmark hreaches).trans hreaches', ?_⟩
      rw [itemTokens]
      exact hrests'

theorem reaches_entry (e : String × Value) (column : Nat) {s : Stream} {b : Block} {p : Point} {k : Nat}
    {rest : List Char} (h : Arrives s b p true) (hcolumn : p.column = column) (hb : b.indent ≤ column)
    (hp : p.rest = entryLines column false [e] ++ (spaces k ++ rest)) (hk : k ≤ column) (hrest : IsStart rest) :
    ∃ s', Reaches s s' ∧ Rests s' ((b.enter .blockMapping column).add (entryTokens [e])) k rest := by
  have hblock (ts : List Token) : ((b.enter .blockMapping column).add ts).indent = column := Block.indent_enter hb
  match e with
  | (key, v) =>
    rw [entryLines, entryLines, if_neg Bool.false_ne_true, List.nil_append, List.append_nil] at hp
    rw [entryTokens, entryTokens, List.append_nil]
    by_cases hsimple : Printer.isSimpleKey key = true
    · rw [if_pos hsimple, List.append_assoc, List.cons_append] at hp
      obtain ⟨q, hreaches, hq, hqcolumn⟩ := h.keyText hsimple hp (gapNext_afterKey v _) (by omega)
      rw [hcolumn] at hreaches hqcolumn
      obtain ⟨t, hreaches', hrests⟩ := reaches_keyed v (hblock _) hqcolumn hq hk hrest
      rw [Block.add_add] at hrests
      rw [if_pos hsimple]
      exact ⟨t, hreaches.trans hreaches', hrests⟩
    · rw [if_neg hsimple] at hp
      have hmarked : p.rest = '?' :: ((' ' :: Printer.textLine (column + 2) key) ++
          (spaces column ++ ':' :: (afterMark column v ++ (spaces k ++ rest)))) := by
        rw [hp]
        simp only [List.cons_append, List.append_assoc]
      obtain ⟨q, hreaches, hq, hqcolumn⟩ := h.markedKey hcolumn hb (afterMark_cons v) hmarked
      obtain ⟨t, hreaches', hrests⟩ := reaches_marked v (hblock _) hqcolumn hq hk hrest
      rw [Block.add_add] at hrests
      rw [if_neg hsimple]
      exact ⟨t, hreaches.trans hreaches', hrests⟩

theorem reaches_entries (es : List (String × Value)) (column : Nat) (hne : es ≠ []) {s : Stream} {b : Block} {p : Point}
    {k : Nat} {rest : List Char} (h : Arrives s b p true) (hcolumn : p.column = column) (hb : b.indent ≤ column)
    (hp : p.rest = entryLines column false es ++ (spaces k ++ rest)) (hk : k ≤ column) (hrest : IsStart rest) :
    ∃ s', Reaches s s' ∧ Rests s' ((b.enter .blockMapping column).add (entryTokens es)) k rest := by
  match es with
  | [] => exact absurd rfl hne
  | [e] => exact reaches_entry e column h hcolumn hb hp hk hrest
  | e :: f :: fs =>
    have hblock (ts : List Token) : ((b.enter .blockMapping column).add ts).indent = column := Block.indent_enter hb
    rw [entryLines_cons, entryLines_indented, List.append_assoc, List.append_assoc] at hp
    obtain ⟨t, hreaches, hrests⟩ := reaches_entry e column h hcolumn hb hp (Nat.le_refl _) (isStart_entryLines _)
    obtain ⟨q, harrives, hq, hqcolumn⟩ := hrests.arrives (hblock _)
    obtain ⟨s', hreaches', hrests'⟩ := reaches_entries (f :: fs) column (List.cons_ne_nil f fs) harrives hqcolumn
      (Int.le_of_eq (hblock _)) hq hk hrest
    rw [Block.enter_same (hblock _), Block.add_add, ← entryTokens_cons] at hrests'
    exact ⟨s', hreaches.trans hreaches', hrests'⟩

end

end Stream

/-! ## documents -/

/-- A written document is read to its end. -/
theorem tokens_print {entries : List (String × Value)} (h : entries ≠ []) :
    tokens (Value.print entries).toList = .blockMapping :: entryTokens entries ++ [.blockEnd, .streamEnd] := by
  obtain ⟨e, es, rfl⟩ := List.exists_cons_of_ne_nil h
  have hprint : (Value.print (e :: es)).toList = entryLines 0 false (e :: es) := by
    rw [Value.print, List.isEmpty_cons, if_neg Bool.false_ne_true, String.toList_ofList, entryLines_indented]
    rfl
  have hallowed : (entryLines 0 false (e :: es)).all isAllowed = true := by
    have hprint := Printer.all_entryLines 0 false (e :: es)
    rw [List.all_eq_true] at hprint ⊢
    exact fun c hc => isAllowed_of_isPrintable (hprint c hc)
  have hline : (Point.start (entryLines 0 false (e :: es))).rest = spaces 0 ++ entryLines 0 false (e :: es) := rfl
  have hstart : IsStart (entryLines 0 false (e :: es)) := by
    have hstart : IsStart (entryLines 0 false (e :: es) ++ []) := isStart_entryLines []
    rwa [List.append_nil] at hstart
  have harrives : (Stream.inBlock .outer (.start (entryLines 0 false (e :: es))) true).Arrives .outer _ true :=
    Stream.arrives_spaces hline hstart (Int.le_of_lt (Int.negSucc_lt_zero 0))
  obtain ⟨s, hreaches, hrests⟩ := Stream.reaches_entries (e :: es) 0 h harrives rfl (by decide)
    (List.append_nil _).symm (Nat.le_refl 0) isStart_nil
  rw [hprint, tokens, if_pos hallowed]
  exact Stream.readWithin_of_reaches hreaches hrests.ends (Nat.lt_add_of_pos_right (by decide)) 0

end DeviceSettings.Yaml

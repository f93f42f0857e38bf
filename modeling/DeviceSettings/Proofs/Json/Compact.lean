import DeviceSettings.Proofs.Document.Reading
import DeviceSettings.Proofs.Json.Pretty
import DeviceSettings.Proofs.Text.Numeral
import Mathlib.Tactic.SplitIfs

/-!
# Compact texts read back

A compact text stands on one line (`newLine_not_mem_compact`), whatever its value holds.  The compact text of a value
without floats is the document of the value (`source_compact`), from which it is read if it does not nest too deep
(`Value.Fits.reads`).  A number ends where something else begins, so its lexeme needs to know what follows
(`LexesBeforeStop`).
-/

namespace DeviceSettings

/-! ## one line -/

namespace Text

@[simp] theorem newLine_not_mem_toDigits (n : Nat) : '\n' ∉ Nat.toDigits 10 n := fun h =>
  absurd (Nat.isDigit_of_mem_toDigits (by decide) (by decide) h) (by decide)

@[simp] theorem newLine_not_mem_intRepr (n : Int) : '\n' ∉ n.repr.toList := by
  cases n with
  | ofNat n =>
    show '\n' ∉ (toString n).toList
    simp
  | negSucc n =>
    show '\n' ∉ ("-" ++ toString (n + 1)).toList
    simp

theorem newLine_not_mem_hex (upper : Bool) (width n : Nat) : '\n' ∉ hex upper width n := by
  have hall : ∀ upper, ∀ d : Fin 16, hexChar upper d.val ≠ '\n' := by decide
  intro h
  obtain ⟨i, -, hi⟩ := List.mem_map.mp h
  exact hall upper ⟨_, Nat.mod_lt _ (by decide)⟩ hi

namespace Binary64

@[simp] theorem newLine_not_mem_sign (x : Binary64) : '\n' ∉ x.sign.toList := by
  unfold sign
  split <;> decide

theorem newLine_not_mem_take (n k : Nat) : '\n' ∉ (Nat.toDigits 10 n).take k := fun h =>
  newLine_not_mem_toDigits n (List.mem_of_mem_take h)

theorem newLine_not_mem_drop (n k : Nat) : '\n' ∉ (Nat.toDigits 10 n).drop k := fun h =>
  newLine_not_mem_toDigits n (List.mem_of_mem_drop h)

theorem newLine_not_mem_tail (n : Nat) : '\n' ∉ (Nat.toDigits 10 n).tail := fun h =>
  newLine_not_mem_toDigits n (List.mem_of_mem_tail h)

@[simp] theorem newLine_not_mem_positional (x : Binary64) : '\n' ∉ x.positional.toList := by
  unfold positional
  dsimp only
  split
  · simp
  · split <;> simp [newLine_not_mem_take, newLine_not_mem_drop]

theorem newLine_not_mem_text (x : Binary64) : '\n' ∉ x.text.toList := by
  unfold text
  dsimp only
  split
  · exact x.newLine_not_mem_positional
  · split <;> simp [newLine_not_mem_take, newLine_not_mem_tail]

end Binary64

end Text

namespace Json

open Document (Builder DataTree Dialect Reader Reads Source)

theorem Number.newLine_not_mem_text (n : Number) : '\n' ∉ n.text.toList := by
  cases n with
  | integer n => exact Text.newLine_not_mem_intRepr n
  | float x => exact x.newLine_not_mem_text

namespace Value

theorem newLine_not_mem_escape (c : Char) : '\n' ∉ escape c := by
  unfold escape
  split_ifs with _ _ hn
  all_goals first | decide | skip
  · simp [Text.newLine_not_mem_hex]
  · simpa using Ne.symm hn

theorem newLine_not_mem_quote (s : String) : '\n' ∉ quote s := by
  simp [quote, newLine_not_mem_escape]

theorem newLine_not_mem_booleanChars (b : Bool) : '\n' ∉ booleanChars b := by
  cases b <;> decide

mutual

theorem newLine_not_mem_compactChars : ∀ v : Value, '\n' ∉ v.compactChars
  | null => by rw [compactChars]; decide
  | boolean b => by rw [compactChars]; exact newLine_not_mem_booleanChars b
  | number n => by rw [compactChars]; exact n.newLine_not_mem_text
  | text s => by rw [compactChars]; exact newLine_not_mem_quote s
  | list items => by
    rw [compactChars]
    simpa using newLine_not_mem_compactItems true items
  | object fields => by
    rw [compactChars]
    simpa using newLine_not_mem_compactFields true fields

theorem newLine_not_mem_compactItems (first : Bool) : ∀ vs : List Value, '\n' ∉ compactItems first vs
  | [] => by rw [compactItems]; decide
  | v :: rest => by
    have hv := newLine_not_mem_compactChars v
    have hrest := newLine_not_mem_compactItems false rest
    rw [compactItems]
    cases first <;> simp [hv, hrest]

theorem newLine_not_mem_compactFields (first : Bool) :
    ∀ fs : List (String × Value), '\n' ∉ compactFields first fs
  | [] => by rw [compactFields]; decide
  | (k, v) :: rest => by
    have hk := newLine_not_mem_quote k
    have hv := newLine_not_mem_compactChars v
    have hrest := newLine_not_mem_compactFields false rest
    rw [compactFields]
    cases first <;> simp [hk, hv, hrest]

end

/-- A compact text stands on one line. -/
theorem newLine_not_mem_compact (v : Value) : '\n' ∉ v.compact.toList := by
  rw [compact, String.toList_ofList]
  exact newLine_not_mem_compactChars v

end Value

/-! ## integers -/

/-- Does a character end a number? -/
def isStop (c : Char) : Bool := c == ',' || c == ']' || c == '\x7d'

theorem not_isDigit_of_isStop {c : Char} (h : isStop c = true) : Text.isDigit c = false := by
  simp only [isStop, Bool.or_eq_true, beq_iff_eq] at h
  rcases h with (rfl | rfl) | rfl <;> decide

theorem wholePart_toDigits (n : Nat) {rest : List Char} (hrest : ∀ c ∈ rest.head?, isStop c = true) :
    wholePart (Nat.toDigits 10 n ++ rest) = some (Nat.toDigits 10 n, rest) := by
  have hall : ∀ c ∈ Nat.toDigits 10 n, Text.isDigit c = true := fun c => Text.isDigit_of_mem_toDigits
  have hstop : rest.takeWhile Text.isDigit = [] ∧ rest.dropWhile Text.isDigit = rest := by
    cases rest with
    | nil => exact ⟨rfl, rfl⟩
    | cons c rest => simp [not_isDigit_of_isStop (hrest c rfl)]
  have hsome : someDigits (Nat.toDigits 10 n ++ rest) = some (Nat.toDigits 10 n, rest) := by
    rw [someDigits, List.takeWhile_append_of_pos hall, List.dropWhile_append_of_pos hall, hstop.1, hstop.2,
      List.append_nil]
    split
    next heq => exact absurd heq Nat.toDigits_ne_nil
    next => rfl
  have hzero : ((Nat.toDigits 10 n).head? = some '0' && (Nat.toDigits 10 n).length ≠ 1) = false := by
    rcases Nat.eq_zero_or_pos n with rfl | hn
    · decide
    · simp [Text.head?_toDigits hn]
  rw [wholePart, hsome, Option.bind_eq_bind, Option.bind_some]
  dsimp only
  rw [hzero, if_neg Bool.false_ne_true]

theorem fractionPart_of_isStop {rest : List Char} (hrest : ∀ c ∈ rest.head?, isStop c = true) :
    fractionPart rest = some ([], rest) := by
  cases rest with
  | nil => rfl
  | cons c rest =>
    have hc : c ≠ '.' := by
      rintro rfl
      exact absurd (hrest '.' rfl) (by decide)
    rw [fractionPart]
    rintro _ ⟨⟩
    exact hc rfl

theorem exponentPart_of_isStop {rest : List Char} (hrest : ∀ c ∈ rest.head?, isStop c = true) :
    exponentPart rest = some (none, rest) := by
  cases rest with
  | nil => rfl
  | cons c rest =>
    have hc : ¬(c = 'e' ∨ c = 'E') := by
      rintro (rfl | rfl)
      · exact absurd (hrest 'e' rfl) (by decide)
      · exact absurd (hrest 'E' rfl) (by decide)
    unfold exponentPart
    exact if_neg (by simpa using hc)

/-- The literal of an integer. -/
def Literal.ofInt (n : Int) : Literal := ⟨decide (n < 0), Nat.toDigits 10 n.natAbs, [], none⟩

theorem toList_int (n : Int) :
    (toString n).toList = (if n < 0 then ['-'] else []) ++ Nat.toDigits 10 n.natAbs := by
  cases n <;> simp [Int.toString_eq_repr, Int.repr]

theorem number?_int (n : Int) {rest : List Char} (hrest : ∀ c ∈ rest.head?, isStop c = true) :
    number? ((toString n).toList ++ rest) = some (.ofInt n, rest) := by
  have htail (negative : Bool) :
      (wholePart (Nat.toDigits 10 n.natAbs ++ rest) >>= fun whole =>
        fractionPart whole.2 >>= fun fraction =>
          exponentPart fraction.2 >>= fun exponent =>
            some ((⟨negative, whole.1, fraction.1, exponent.1⟩ : Literal), exponent.2))
        = some (⟨negative, Nat.toDigits 10 n.natAbs, [], none⟩, rest) := by
    rw [wholePart_toDigits n.natAbs hrest]
    simp only [Option.bind_eq_bind, Option.bind_some, fractionPart_of_isStop hrest, exponentPart_of_isStop hrest]
  rw [toList_int, Literal.ofInt]
  by_cases hn : n < 0
  · rw [if_pos hn, decide_eq_true hn]
    exact htail true
  · have hhead : ∀ cs, Nat.toDigits 10 n.natAbs ++ rest ≠ '-' :: cs := by
      intro cs heq
      have hmem : '-' ∈ Nat.toDigits 10 n.natAbs := by
        cases hd : Nat.toDigits 10 n.natAbs with
        | nil => exact absurd hd Nat.toDigits_ne_nil
        | cons d ds =>
          rw [hd] at heq
          exact (List.cons.inj heq).1 ▸ List.mem_cons_self
      exact absurd (Text.isDigit_of_mem_toDigits hmem) (by decide)
    rw [if_neg hn, decide_eq_false hn, List.nil_append, number?]
    · exact htail false
    · exact fun cs heq => hhead cs heq

/-- An integer of 64 bits is the value of its literal. -/
theorem ofLiteral?_ofInt {n : Int} (hlo : -Number.signedLimit ≤ n) (hhi : n < Number.wordLimit) :
    Number.ofLiteral? (.ofInt n) = some (.integer n) := by
  rw [Number.ofLiteral?, Literal.ofInt]
  dsimp only
  rw [List.isEmpty_nil, Option.isNone_none, Bool.and_self, if_pos rfl, Text.digits?_toDigits, Option.getD_some]
  by_cases hn : n < 0
  · have hsigned : 0 < n.natAbs ∧ n.natAbs ≤ Number.signedLimit := by omega
    rw [decide_eq_true hn, if_pos rfl, if_pos (by simpa using hsigned)]
    congr 2
    omega
  · rw [decide_eq_false hn, if_neg Bool.false_ne_true, if_pos (by omega)]
    congr 2
    omega

/-- A character that begins no other lexeme can begin a number only. -/
theorem lexeme?_eq_number? {c : Char} (hc : c ∉ "[]\x7b\x7d,:\x22ntf".toList) (rest : List Char) :
    lexeme? (c :: rest)
      = (number? (c :: rest)).map fun (l, rest) => (.scalar (.number (Number.ofLiteral? l)), rest) := by
  have hne (d : Char) (hd : d ∈ "[]\x7b\x7d,:\x22ntf".toList) : c ≠ d := fun h => hc (h ▸ hd)
  have hstart (word : String) (d : Char) (r : List Char) (hw : word.toList = d :: r)
      (hd : d ∈ "[]\x7b\x7d,:\x22ntf".toList) : isStart word (c :: rest) = false := by
    rw [isStart, hw, List.isPrefixOf_cons_cons, beq_false_of_ne (hne d hd).symm, Bool.false_and]
  rw [lexeme?, if_neg (hne '[' (by decide)), if_neg (hne ']' (by decide)), if_neg (hne '\x7b' (by decide)),
    if_neg (hne '\x7d' (by decide)), if_neg (hne ',' (by decide)), if_neg (hne ':' (by decide)),
    if_neg (hne '\x22' (by decide)), hstart "null" 'n' _ rfl (by decide), if_neg Bool.false_ne_true,
    hstart "true" 't' _ rfl (by decide), if_neg Bool.false_ne_true, hstart "false" 'f' _ rfl (by decide),
    if_neg Bool.false_ne_true]
  cases number? (c :: rest) <;> rfl

theorem exists_toList_int (n : Int) :
    ∃ c cs, (toString n).toList = c :: cs ∧ (c = '-' ∨ Text.isDigit c = true) := by
  rw [toList_int]
  by_cases hn : n < 0
  · rw [if_pos hn]
    exact ⟨'-', _, rfl, .inl rfl⟩
  · rw [if_neg hn, List.nil_append]
    cases hd : Nat.toDigits 10 n.natAbs with
    | nil => exact absurd hd Nat.toDigits_ne_nil
    | cons d ds => exact ⟨d, ds, rfl, .inr (Text.isDigit_of_mem_toDigits (hd ▸ List.mem_cons_self))⟩

/-! ## lexemes -/

/-- `cs` is read as the lexemes `xs` where a number would end. -/
structure LexesBeforeStop (cs : List Char) (xs : List Lexeme) : Prop where
  length_le : xs.length ≤ cs.length
  read : ∀ fuel rest, (∀ c ∈ rest.head?, isStop c = true) → lexemesWithin (fuel + xs.length) (cs ++ rest)
    = (xs ++ (lexemesWithin fuel rest).1, (lexemesWithin fuel rest).2)

theorem Lexes.beforeStop {cs : List Char} {xs : List Lexeme} (h : Lexes cs xs) : LexesBeforeStop cs xs :=
  ⟨h.length_le, fun fuel rest _ => h.read fuel rest⟩

namespace LexesBeforeStop

theorem append {c : Char} {cs ds : List Char} {xs ys : List Lexeme} (h : LexesBeforeStop cs xs)
    (hc : isStop c = true) (k : Lexes (c :: ds) ys) : Lexes (cs ++ c :: ds) (xs ++ ys) := by
  refine ⟨?_, fun fuel rest => ?_⟩
  · have hl := h.length_le
    have kl := k.length_le
    simp only [List.length_append]
    omega
  · have hstop : ∀ d ∈ (c :: ds ++ rest).head?, isStop d = true := by
      rintro d ⟨⟩
      exact hc
    rw [List.length_append, Nat.add_comm xs.length, ← Nat.add_assoc, List.append_assoc, h.read _ _ hstop, k.read,
      List.append_assoc]

/-- An integer of 64 bits is one lexeme. -/
theorem integer {n : Int} (hlo : -Number.signedLimit ≤ n) (hhi : n < Number.wordLimit) :
    LexesBeforeStop (toString n).toList [.scalar (.number (some (.integer n)))] := by
  obtain ⟨c, cs, hcs, hc⟩ := exists_toList_int n
  have hother : ∀ d ∈ "[]\x7b\x7d,:\x22ntf".toList, Text.isDigit d = false := by simp; decide
  have hmark : c ∉ "[]\x7b\x7d,:\x22ntf".toList := by
    intro hmem
    rcases hc with rfl | hc
    · exact absurd hmem (by decide)
    · rw [hother c hmem] at hc
      cases hc
  have hspace : isSpace c = false := by
    rcases hc with rfl | hc
    · decide
    · have hall : ∀ d ∈ [' ', '\n', '\t', '\r'], Text.isDigit d = false := by simp; decide
      refine Bool.eq_false_iff.mpr fun hblank => ?_
      rw [hall c (by simpa [isSpace, or_assoc] using hblank)] at hc
      cases hc
  refine ⟨by rw [hcs]; simp, fun fuel rest hrest => ?_⟩
  have hdrop : ((toString n).toList ++ rest).dropWhile isSpace = c :: (cs ++ rest) := by
    rw [hcs, List.cons_append, List.dropWhile_cons_of_neg (by simp [hspace])]
  have hlexeme : lexeme? (c :: (cs ++ rest)) = some (.scalar (.number (some (.integer n))), rest) := by
    rw [lexeme?_eq_number? hmark, ← List.cons_append, ← hcs, number?_int n hrest, Option.map_some]
    dsimp only
    rw [ofLiteral?_ofInt hlo hhi]
  rw [List.length_singleton, lexemesWithin, hdrop]
  dsimp only
  rw [hlexeme]
  rfl

end LexesBeforeStop

/-! ## values -/

/-- A value that a text of so many levels can hold as it is: without floats, its integers of 64 bits, and the fields of
its objects in the order of their names. -/
inductive Value.Fits : Nat → Value → Prop
  | null {n : Nat} : Fits n .null
  | boolean {n : Nat} (b : Bool) : Fits n (.boolean b)
  | integer {n : Nat} {i : Int} (hlo : -Number.signedLimit ≤ i) (hhi : i < Number.wordLimit) :
    Fits n (.number (.integer i))
  | text {n : Nat} (s : String) : Fits n (.text s)
  | list {n : Nat} {items : List Value} (h : ∀ v ∈ items, Fits n v) : Fits (n + 1) (.list items)
  | object {n : Nat} {fields : List (String × Value)} (hascending : fields.Pairwise fun a b => compare a.1 b.1 = .lt)
    (h : ∀ f ∈ fields, Fits n f.2) : Fits (n + 1) (.object fields)

namespace Value

theorem exists_compactItems (vs : List Value) : ∃ c cs, compactItems false vs = c :: cs ∧ isStop c = true := by
  cases vs with
  | nil => exact ⟨']', [], by rw [compactItems], rfl⟩
  | cons v vs => exact ⟨',', _, by rw [compactItems, if_neg Bool.false_ne_true]; rfl, rfl⟩

theorem exists_compactFields (fs : List (String × Value)) :
    ∃ c cs, compactFields false fs = c :: cs ∧ isStop c = true := by
  cases fs with
  | nil => exact ⟨'\x7d', [], by rw [compactFields], rfl⟩
  | cons f fs => exact ⟨',', _, by rw [compactFields, if_neg Bool.false_ne_true]; rfl, rfl⟩

theorem lexes_compactItems {items : List Value} (h : ∀ v ∈ items, LexesBeforeStop v.compactChars v.lexemes)
    (first : Bool) : Lexes (compactItems first items) (itemLexemes first items ++ [.closeList]) := by
  induction items generalizing first with
  | nil =>
    rw [compactItems, itemLexemes]
    exact .closeList
  | cons v rest ih =>
    obtain ⟨c, cs, hcs, hc⟩ := exists_compactItems rest
    have hrest := ih (fun v hv => h v (List.mem_cons_of_mem _ hv)) false
    rw [hcs] at hrest
    rw [compactItems, itemLexemes, hcs, List.append_assoc, List.append_assoc, List.append_assoc]
    exact (Lexes.separator first).append ((h v List.mem_cons_self).append hc hrest)

theorem lexes_compactFields {fields : List (String × Value)}
    (h : ∀ f ∈ fields, LexesBeforeStop f.2.compactChars f.2.lexemes) (first : Bool) :
    Lexes (compactFields first fields) (fieldLexemes first fields ++ [.closeObject]) := by
  induction fields generalizing first with
  | nil =>
    rw [compactFields, fieldLexemes]
    exact .closeObject
  | cons f rest ih =>
    obtain ⟨k, v⟩ := f
    obtain ⟨c, cs, hcs, hc⟩ := exists_compactFields rest
    have hrest := ih (fun f hf => h f (List.mem_cons_of_mem _ hf)) false
    rw [hcs] at hrest
    have hkey := (Lexes.separator first).append ((Lexes.quote k).append .colon)
    have hentry := hkey.append ((h (k, v) List.mem_cons_self).append hc hrest)
    rw [compactFields, fieldLexemes, hcs]
    simpa using hentry

theorem lexes_list {items : List Value} (h : ∀ v ∈ items, LexesBeforeStop v.compactChars v.lexemes) :
    LexesBeforeStop (list items).compactChars (list items).lexemes := by
  rw [compactChars, lexemes]
  exact (Lexes.append .openList (lexes_compactItems h true)).beforeStop

theorem lexes_object {fields : List (String × Value)}
    (h : ∀ f ∈ fields, LexesBeforeStop f.2.compactChars f.2.lexemes) :
    LexesBeforeStop (object fields).compactChars (object fields).lexemes := by
  rw [compactChars, lexemes]
  exact (Lexes.append .openObject (lexes_compactFields h true)).beforeStop

/-- A compact text is read as the lexemes of its value. -/
theorem Fits.lexes {n : Nat} {v : Value} (h : v.Fits n) : LexesBeforeStop v.compactChars v.lexemes := by
  induction h with
  | null =>
    rw [compactChars, lexemes]
    exact Lexes.null.beforeStop
  | boolean b =>
    rw [compactChars, lexemes]
    exact (Lexes.boolean b).beforeStop
  | integer hlo hhi =>
    rw [compactChars, lexemes]
    exact .integer hlo hhi
  | text s =>
    rw [compactChars, lexemes]
    exact (Lexes.quote s).beforeStop
  | list _ ih => exact lexes_list ih
  | object _ _ ih => exact lexes_object ih

end Value

theorem lexemes_compact {v : Value} (h : LexesBeforeStop v.compactChars v.lexemes) :
    lexemes v.compact = (v.lexemes, true) := by
  obtain ⟨hle, hread⟩ := h
  have hlen : v.compact.length = (v.compactChars.length - v.lexemes.length) + v.lexemes.length := by
    rw [Nat.sub_add_cancel hle, ← String.length_toList, Value.compact, String.toList_ofList]
  have hnil (fuel : Nat) : lexemesWithin fuel [] = ([], true) := by cases fuel <;> rfl
  rw [lexemes, hlen, Value.compact, String.toList_ofList, ← List.append_nil v.compactChars, hread _ _ (by simp), hnil]
  simp

/-- A compact text is the document of its value. -/
theorem source_compact {v : Value} (h : LexesBeforeStop v.compactChars v.lexemes) :
    ∃ follows, source v.compact = ⟨v.tree, [], true, follows⟩ :=
  source_of_lexemes (lexemes_compact h)

/-! ## trees -/

theorem treeItems_eq_map (items : List Value) : Value.treeItems items = items.map Value.tree := by
  induction items with
  | nil => rfl
  | cons v rest ih => rw [Value.treeItems, ih, List.map_cons]

theorem treeFields_eq_map (fields : List (String × Value)) :
    Value.treeFields fields = fields.map fun (k, v) => (.scalar (.text (some k)), v.tree) := by
  induction fields with
  | nil => rfl
  | cons f rest ih => rw [Value.treeFields, ih, List.map_cons]

theorem mapM_items {r : Reader Scalar Value} {items : List Value} {c : Document.Cursor Scalar}
    (h : ∀ v ∈ items, r c v.tree = pure v) : (items.map Value.tree).mapM (r c) = pure items := by
  induction items with
  | nil => rfl
  | cons v rest ih =>
    rw [List.map_cons, List.mapM_cons, h v List.mem_cons_self, pure_bind,
      ih fun v hv => h v (List.mem_cons_of_mem _ hv), pure_bind]

/-- A value is read from its tree by a reader of so many levels. -/
theorem Value.Fits.valueWithin_tree {n : Nat} {v : Value} (h : v.Fits n) {c : Document.Cursor Scalar}
    (hc : c.dialect = textDialect) {m : Nat} (hm : n ≤ m) : valueWithin m c v.tree = pure v := by
  induction h generalizing m with
  | null => cases m <;> rfl
  | boolean b => cases m <;> rfl
  | integer => cases m <;> rfl
  | text s => cases m <;> rfl
  | list _ ih =>
    cases m with
    | zero => exact absurd hm (Nat.not_succ_le_zero _)
    | succ m =>
      rw [valueWithin, tree, treeItems_eq_map, valueWith,
        mapM_items fun v hv => ih v hv (Nat.le_of_succ_le_succ hm), pure_bind, if_pos rfl]
  | @object n fields hascending _ ih =>
    cases m with
    | zero => exact absurd hm (Nat.not_succ_le_zero _)
    | succ m =>
      have hkey : ∀ k, c.dialect.text? (.text (some k)) = .ok (some k) := by rw [hc]; exact fun _ => rfl
      have hfields := Reads.foldlM_insert (fun _ v => valueWithin m c v) hkey
        (fun f hf _ => ih f hf (Nat.le_of_succ_le_succ hm)) Table.empty
      have htable := Table.ofList_entries (⟨fields, hascending⟩ : Table String Value)
      rw [valueWithin, tree, treeFields_eq_map, valueWith]
      dsimp only
      rw [hfields, pure_bind, if_pos rfl]
      exact congrArg (fun t : Table String Value => pure (Value.object t.entries)) htable

/-- A value is read from its tree. -/
theorem Value.Fits.reads {n : Nat} {v : Value} (h : v.Fits n) : Reads textDialect n anyValue v.tree v :=
  fun _ hc hn => h.valueWithin_tree hc hn

end Json

end DeviceSettings

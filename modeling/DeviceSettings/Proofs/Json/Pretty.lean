import DeviceSettings.Json.Source

/-!
# Pretty texts read back

A value without numbers is read back from its pretty text, whatever its texts hold
(`source_pretty`).  The three readers are taken one after another: characters to lexemes (`Lexes`),
lexemes to events and events to a tree (`Grammar.build`).
-/

namespace DeviceSettings.Json

open Document (Builder DataTree Event Frame Source)

/-! ## strings -/

theorem digits?_hex {n : Nat} (h : n < 32) : Text.digits? 16 (Text.hex false 4 n) = some n := by
  have hall : ∀ k : Fin 32, Text.digits? 16 (Text.hex false 4 k.val) = some k.val := by decide
  exact hall ⟨n, h⟩

/-- How a character stands among the pieces of a string that was quoted. -/
def Piece.ofChar (c : Char) : Piece :=
  if c.toNat < 32 ∧ c ≠ '\n' ∧ c ≠ '\t' ∧ c ≠ '\r' ∧ c ≠ '\x08' ∧ c ≠ '\x0c' then .unit c.toNat else .char c

theorem stringBody_unit {c : Char} (h : c.toNat < 32) (rest : List Char) :
    stringBody (['\\', 'u'] ++ Text.hex false 4 c.toNat ++ rest)
      = (stringBody rest).map fun r => (.unit c.toNat :: r.1, r.2) := by
  have hread := digits?_hex h
  have hex (n : Nat) : ∃ a b c d, Text.hex false 4 n = [a, b, c, d] := ⟨_, _, _, _, rfl⟩
  obtain ⟨x₁, x₂, x₃, x₄, heq⟩ := hex c.toNat
  rw [heq] at hread ⊢
  simp only [List.cons_append, List.nil_append, stringBody, hread, Option.bind_eq_bind, Option.bind_some]
  cases stringBody rest <;> rfl

theorem stringBody_short {e : Char} (hu : e ≠ 'u') (rest : List Char) :
    stringBody ('\\' :: e :: rest)
      = (unescape? e).bind fun c => (stringBody rest).map fun r => (.char c :: r.1, r.2) := by
  rw [stringBody]
  · cases unescape? e with
    | none => rfl
    | some c => cases stringBody rest <;> rfl
  · rintro a b c d rest' rfl
    exact absurd rfl hu

theorem stringBody_plain {c : Char} (hq : c ≠ '\x22') (hb : c ≠ '\\') (hc : ¬c.toNat < 32)
    (rest : List Char) :
    stringBody (c :: rest) = (stringBody rest).map fun r => (.char c :: r.1, r.2) := by
  rw [stringBody, if_neg hq, if_neg (by simp [hb, hc])]
  · cases stringBody rest <;> rfl
  · rintro a b d e rest' rfl
    exact absurd rfl hb
  · rintro d rest' rfl
    exact absurd rfl hb

/-- An escaped character is read as one piece. -/
theorem stringBody_escape (c : Char) (rest : List Char) :
    stringBody (Value.escape c ++ rest) = (stringBody rest).map fun r => (.ofChar c :: r.1, r.2) := by
  unfold Value.escape
  split
  · subst c
    exact stringBody_short (by decide) rest
  split
  · subst c
    exact stringBody_short (by decide) rest
  split
  · subst c
    exact stringBody_short (by decide) rest
  split
  · subst c
    exact stringBody_short (by decide) rest
  split
  · subst c
    exact stringBody_short (by decide) rest
  split
  · subst c
    exact stringBody_short (by decide) rest
  split
  · subst c
    exact stringBody_short (by decide) rest
  rename_i hquote hback hn ht hr hb hf
  split
  · rename_i h
    rw [stringBody_unit h, Piece.ofChar, if_pos ⟨h, hn, ht, hr, hb, hf⟩]
  · rename_i h
    have hpiece : Piece.ofChar c = .char c := if_neg fun hc => h hc.1
    rw [hpiece, List.singleton_append, stringBody_plain hquote hback h]

theorem joinUnits_unit {n : Nat} (h : n < 0xD800) (ps : List Piece) :
    joinUnits (.unit n :: ps) = (joinUnits ps).map (Char.ofNat n :: ·) := by
  have hhigh : isHighUnit n = false := by
    simp only [isHighUnit, Bool.and_eq_false_imp, decide_eq_true_eq, decide_eq_false_iff_not]
    omega
  have hlow : isLowUnit n = false := by
    simp only [isLowUnit, Bool.and_eq_false_imp, decide_eq_true_eq, decide_eq_false_iff_not]
    omega
  cases ps with
  | nil => simp [joinUnits, hhigh, hlow]
  | cons p ps => cases p <;> simp [joinUnits, hhigh, hlow]

theorem joinUnits_ofChar (c : Char) (ps : List Piece) :
    joinUnits (.ofChar c :: ps) = (joinUnits ps).map (c :: ·) := by
  unfold Piece.ofChar
  split
  · rename_i h
    rw [joinUnits_unit (by omega), Char.ofNat_toNat]
  · rw [joinUnits]

theorem stringBody_escaped (cs rest : List Char) :
    stringBody (cs.flatMap Value.escape ++ '\x22' :: rest) = some (cs.map Piece.ofChar, rest) := by
  induction cs with
  | nil => simp [stringBody]
  | cons c cs ih => rw [List.flatMap_cons, List.append_assoc, stringBody_escape, ih]; rfl

theorem joinUnits_ofChars (cs : List Char) : joinUnits (cs.map Piece.ofChar) = some cs := by
  induction cs with
  | nil => rfl
  | cons c cs ih => rw [List.map_cons, joinUnits_ofChar, ih, Option.map_some]

/-! ## lexemes -/

/-- `cs` is read as the lexemes `xs`, whatever follows it. -/
structure Lexes (cs : List Char) (xs : List Lexeme) : Prop where
  length_le : xs.length ≤ cs.length
  read : ∀ fuel rest, lexemesWithin (fuel + xs.length) (cs ++ rest)
    = (xs ++ (lexemesWithin fuel rest).1, (lexemesWithin fuel rest).2)

namespace Lexes

theorem nil : Lexes [] [] := ⟨Nat.le_refl _, fun _ _ => rfl⟩

theorem append {cs ds : List Char} {xs ys : List Lexeme} (h : Lexes cs xs) (k : Lexes ds ys) :
    Lexes (cs ++ ds) (xs ++ ys) := by
  refine ⟨?_, fun fuel rest => ?_⟩
  · have hl := h.length_le
    have kl := k.length_le
    simp only [List.length_append]
    omega
  · rw [List.length_append, Nat.add_comm xs.length, ← Nat.add_assoc, List.append_assoc, h.read,
      k.read, List.append_assoc]

/-- One lexeme that does not begin with a blank. -/
theorem one {c : Char} {cs : List Char} {x : Lexeme} (hc : isSpace c = false)
    (h : ∀ rest, lexeme? (c :: cs ++ rest) = some (x, rest)) : Lexes (c :: cs) [x] := by
  refine ⟨by simp, fun fuel rest => ?_⟩
  have hdrop : (c :: cs ++ rest).dropWhile isSpace = c :: (cs ++ rest) := by simp [hc]
  have hlex : lexeme? (c :: (cs ++ rest)) = some (x, rest) := h rest
  rw [List.length_singleton, lexemesWithin, hdrop]
  simp only [hlex, List.singleton_append]

/-- Blanks before a lexeme are passed over. -/
theorem blank {bs cs : List Char} {xs : List Lexeme} (hb : ∀ b ∈ bs, isSpace b = true)
    (h : Lexes cs xs) (hx : xs ≠ []) : Lexes (bs ++ cs) xs := by
  refine ⟨?_, fun fuel rest => ?_⟩
  · have hl := h.length_le
    simp only [List.length_append]
    omega
  · cases xs with
    | nil => exact absurd rfl hx
    | cons x xs =>
      rw [← h.read, List.length_cons, ← Nat.add_assoc, List.append_assoc, lexemesWithin, lexemesWithin,
        List.dropWhile_append_of_pos hb]

theorem mark {c : Char} {x : Lexeme} (hc : isSpace c = false)
    (h : ∀ rest, lexeme? (c :: rest) = some (x, rest)) : Lexes [c] [x] :=
  one hc h

theorem openList : Lexes ['['] [.openList] := mark (by decide) fun _ => by simp [lexeme?]

theorem closeList : Lexes [']'] [.closeList] := mark (by decide) fun _ => by simp [lexeme?]

theorem openObject : Lexes ['\x7b'] [.openObject] := mark (by decide) fun _ => by simp [lexeme?]

theorem closeObject : Lexes ['\x7d'] [.closeObject] := mark (by decide) fun _ => by simp [lexeme?]

theorem comma : Lexes [','] [.comma] := mark (by decide) fun _ => by simp [lexeme?]

theorem colon : Lexes [':'] [.colon] := mark (by decide) fun _ => by simp [lexeme?]

theorem null : Lexes "null".toList [.scalar .null] := by
  have hchars : "null".toList = ['n', 'u', 'l', 'l'] := rfl
  rw [hchars]
  refine one (by decide) fun rest => ?_
  simp [lexeme?, isStart, hchars]

theorem boolean (b : Bool) : Lexes (Value.booleanChars b) [.scalar (.boolean b)] := by
  have hnull : "null".toList = ['n', 'u', 'l', 'l'] := rfl
  have htrue : "true".toList = ['t', 'r', 'u', 'e'] := rfl
  have hfalse : "false".toList = ['f', 'a', 'l', 's', 'e'] := rfl
  cases b with
  | false =>
    rw [Value.booleanChars, if_neg Bool.false_ne_true, hfalse]
    refine one (by decide) fun rest => ?_
    simp [lexeme?, isStart, hnull, htrue, hfalse]
  | true =>
    rw [Value.booleanChars, if_pos rfl, htrue]
    refine one (by decide) fun rest => ?_
    simp [lexeme?, isStart, hnull, htrue]

theorem quote (s : String) : Lexes (Value.quote s) [.scalar (.text (some s))] := by
  refine one (by decide) fun rest => ?_
  have hbody := stringBody_escaped s.toList rest
  simp [lexeme?, hbody, joinUnits_ofChars]

end Lexes

theorem newLine_isSpace (depth : Nat) : ∀ c ∈ Value.newLine depth, isSpace c = true := by
  intro c hc
  rcases List.mem_cons.1 hc with rfl | hc
  · decide
  · obtain rfl := List.eq_of_mem_replicate hc
    decide

theorem lexemes_of_lexes {s : String} {xs : List Lexeme} (h : Lexes s.toList xs) :
    lexemes s = (xs, true) := by
  have hlen : s.length = (s.toList.length - xs.length) + xs.length := by
    have hle := h.length_le
    rw [Nat.sub_add_cancel hle, String.length_toList]
  have hnil (fuel : Nat) : lexemesWithin fuel [] = ([], true) := by cases fuel <;> rfl
  rw [lexemes, hlen, ← List.append_nil s.toList, h.read, hnil]
  simp

/-! ## values -/

namespace Value

mutual

/-- Does the value hold no numbers? -/
def isPlain : Value → Bool
  | number _ => false
  | null | boolean _ | text _ => true
  | list items => plainItems items
  | object fields => plainFields fields

def plainItems : List Value → Bool
  | [] => true
  | v :: rest => v.isPlain && plainItems rest

def plainFields : List (String × Value) → Bool
  | [] => true
  | (_, v) :: rest => v.isPlain && plainFields rest

end

mutual

def lexemes : Value → List Lexeme
  | null => [.scalar .null]
  | boolean b => [.scalar (.boolean b)]
  | number n => [.scalar (.number (some n))]
  | text s => [.scalar (.text (some s))]
  | list items => .openList :: (itemLexemes true items ++ [.closeList])
  | object fields => .openObject :: (fieldLexemes true fields ++ [.closeObject])

def itemLexemes (first : Bool) : List Value → List Lexeme
  | [] => []
  | v :: rest => (if first then [] else [.comma]) ++ v.lexemes ++ itemLexemes false rest

def fieldLexemes (first : Bool) : List (String × Value) → List Lexeme
  | [] => []
  | (k, v) :: rest =>
    (if first then [] else [.comma]) ++ [.scalar (.text (some k)), .colon] ++ v.lexemes
      ++ fieldLexemes false rest

end

theorem lexemes_ne_nil (v : Value) : v.lexemes ≠ [] := by
  cases v <;> simp [lexemes]

end Value

/-- The mark before an entry that is not the first. -/
theorem Lexes.separator (first : Bool) :
    Lexes (if first then [] else [',']) (if first then [] else [.comma]) := by
  cases first with
  | false => exact .comma
  | true => exact .nil

mutual

/-- A pretty text is read as the lexemes of its value. -/
theorem lexes_pretty (depth : Nat) : ∀ v : Value, v.isPlain = true →
    Lexes (v.prettyChars depth) v.lexemes
  | .null, _ => by
    rw [Value.prettyChars, Value.lexemes]
    exact .null
  | .boolean b, _ => by
    rw [Value.prettyChars, Value.lexemes]
    exact .boolean b
  | .number n, h => absurd h (by simp [Value.isPlain])
  | .text s, _ => by
    rw [Value.prettyChars, Value.lexemes]
    exact .quote s
  | .list [], _ => by
    rw [Value.prettyChars, Value.lexemes, Value.itemLexemes]
    exact .append .openList .closeList
  | .list (v :: rest), h => by
    rw [Value.isPlain] at h
    have hitems := lexes_prettyItems (depth + 1) true (v :: rest) h
    have hclose := Lexes.blank (newLine_isSpace depth) .closeList (List.cons_ne_nil _ _)
    rw [Value.prettyChars, Value.lexemes, List.append_assoc]
    exact .append .openList (hitems.append hclose)
    · exact List.cons_ne_nil _ _
  | .object [], _ => by
    rw [Value.prettyChars, Value.lexemes, Value.fieldLexemes]
    exact .append .openObject .closeObject
  | .object (f :: rest), h => by
    rw [Value.isPlain] at h
    have hfields := lexes_prettyFields (depth + 1) true (f :: rest) h
    have hclose := Lexes.blank (newLine_isSpace depth) .closeObject (List.cons_ne_nil _ _)
    rw [Value.prettyChars, Value.lexemes, List.append_assoc]
    exact .append .openObject (hfields.append hclose)
    · exact List.cons_ne_nil _ _

theorem lexes_prettyItems (depth : Nat) (first : Bool) : ∀ vs : List Value,
    Value.plainItems vs = true → Lexes (Value.prettyItems depth first vs) (Value.itemLexemes first vs)
  | [], _ => by
    rw [Value.prettyItems, Value.itemLexemes]
    exact .nil
  | v :: rest, h => by
    obtain ⟨hv, hrest⟩ : v.isPlain = true ∧ Value.plainItems rest = true := by
      simpa [Value.plainItems] using h
    have hline := Lexes.blank (newLine_isSpace depth) (lexes_pretty depth v hv) v.lexemes_ne_nil
    rw [Value.prettyItems, Value.itemLexemes]
    refine .append ?_ (lexes_prettyItems depth false rest hrest)
    rw [List.append_assoc]
    exact .append (.separator first) hline

theorem lexes_prettyFields (depth : Nat) (first : Bool) : ∀ fs : List (String × Value),
    Value.plainFields fs = true → Lexes (Value.prettyFields depth first fs) (Value.fieldLexemes first fs)
  | [], _ => by
    rw [Value.prettyFields, Value.fieldLexemes]
    exact .nil
  | (k, v) :: rest, h => by
    obtain ⟨hv, hrest⟩ : v.isPlain = true ∧ Value.plainFields rest = true := by
      simpa [Value.plainFields] using h
    have hblank : ∀ c ∈ [' '], isSpace c = true := by simp; decide
    have hvalue := Lexes.blank hblank (lexes_pretty depth v hv) v.lexemes_ne_nil
    have hline := Lexes.blank (newLine_isSpace depth) (.quote k) (List.cons_ne_nil _ _)
    have hfield := (hline.append .colon).append hvalue
    have hentry := ((Lexes.separator first).append hfield).append
      (lexes_prettyFields depth false rest hrest)
    rw [Value.prettyFields, Value.fieldLexemes]
    simpa using hentry

end

theorem lexemes_pretty {v : Value} (h : v.isPlain = true) : lexemes v.pretty = (v.lexemes, true) := by
  refine lexemes_of_lexes ?_
  rw [Value.pretty, String.toList_ofList]
  exact lexes_pretty 0 v h

/-! ## trees -/

namespace Grammar

/-- What lexemes build, and whether they end where the document does. -/
def build (g : Grammar) (b : Builder Scalar) : List Lexeme → Builder Scalar × Bool
  | [] => (b, match g.want with | .nothing => g.inside.isEmpty | _ => false)
  | x :: xs =>
    match g.step x with
    | none => (b, false)
    | some (g, e) => g.build (e.elim b b.step) xs

theorem build_eq_foldl (g : Grammar) (b : Builder Scalar) (xs : List Lexeme) :
    g.build b xs = ((g.events xs).1.foldl Builder.step b, (g.events xs).2) := by
  induction xs generalizing g b with
  | nil => rfl
  | cons x xs ih =>
    rw [build, events]
    cases g.step x with
    | none => rfl
    | some r =>
      obtain ⟨g', e⟩ := r
      dsimp only
      rw [ih, List.foldl_append]
      cases e <;> rfl

/-- What may come next when a value may, be it the first of a list or not. -/
def wanting (first : Bool) (inside : List Bool) : Grammar :=
  ⟨inside, if first then .valueOrClose else .value⟩

theorem build_scalar (first : Bool) (inside : List Bool) (b : Builder Scalar) (s : Scalar)
    (xs : List Lexeme) :
    (wanting first inside).build b (.scalar s :: xs) = (after inside).build (b.add (.scalar s)) xs := by
  cases first <;> rfl

theorem build_openList (first : Bool) (inside : List Bool) (b : Builder Scalar) (xs : List Lexeme) :
    (wanting first inside).build b (.openList :: xs)
      = (wanting true (false :: inside)).build ⟨.list false none [] :: b.frames, b.root, b.marked⟩ xs := by
  cases first <;> rfl

theorem build_openObject (first : Bool) (inside : List Bool) (b : Builder Scalar) (xs : List Lexeme) :
    (wanting first inside).build b (.openObject :: xs)
      = build ⟨true :: inside, .keyOrClose⟩ ⟨.map false none [] none :: b.frames, b.root, b.marked⟩ xs := by
  cases first <;> rfl

/-- Between the items of a list. -/
def item (first : Bool) (inside : List Bool) : Grammar :=
  if first then wanting true (false :: inside) else after (false :: inside)

/-- Between the fields of an object. -/
def field (first : Bool) (inside : List Bool) : Grammar :=
  if first then ⟨true :: inside, .keyOrClose⟩ else after (true :: inside)

theorem build_closeList (first : Bool) (inside : List Bool) (fs : List (Frame Scalar))
    (root : Option (DataTree Scalar)) (items : List (DataTree Scalar)) (xs : List Lexeme) :
    (item first inside).build ⟨.list false none items :: fs, root, []⟩ (.closeList :: xs)
      = (after inside).build ((⟨fs, root, []⟩ : Builder Scalar).add (.list false items.reverse true)) xs := by
  cases first <;> rfl

theorem build_closeObject (first : Bool) (inside : List Bool) (fs : List (Frame Scalar))
    (root : Option (DataTree Scalar)) (entries : List (DataTree Scalar × DataTree Scalar))
    (xs : List Lexeme) :
    (field first inside).build ⟨.map false none entries none :: fs, root, []⟩ (.closeObject :: xs)
      = (after inside).build ((⟨fs, root, []⟩ : Builder Scalar).add (.map false entries.reverse true)) xs := by
  cases first <;> rfl

theorem build_separator_item (first : Bool) (inside : List Bool) (b : Builder Scalar)
    (xs : List Lexeme) :
    (item first inside).build b ((if first then [] else [.comma]) ++ xs)
      = (wanting first (false :: inside)).build b xs := by
  cases first <;> rfl

theorem build_field (first : Bool) (inside : List Bool) (fs : List (Frame Scalar))
    (root : Option (DataTree Scalar)) (entries : List (DataTree Scalar × DataTree Scalar)) (k : String)
    (xs : List Lexeme) :
    (field first inside).build ⟨.map false none entries none :: fs, root, []⟩
        ((if first then [] else [.comma]) ++ [.scalar (.text (some k)), .colon] ++ xs)
      = (wanting false (true :: inside)).build
          ⟨.map false none entries (some (.scalar (.text (some k)))) :: fs, root, []⟩ xs := by
  cases first <;> rfl

mutual

/-- The lexemes of a value build its tree. -/
theorem build_lexemes (first : Bool) (inside : List Bool) (fs : List (Frame Scalar))
    (root : Option (DataTree Scalar)) (xs : List Lexeme) : ∀ v : Value,
    (wanting first inside).build ⟨fs, root, []⟩ (v.lexemes ++ xs)
      = (after inside).build ((⟨fs, root, []⟩ : Builder Scalar).add v.tree) xs
  | .null => build_scalar first inside _ _ xs
  | .boolean _ => build_scalar first inside _ _ xs
  | .number _ => build_scalar first inside _ _ xs
  | .text _ => build_scalar first inside _ _ xs
  | .list items => by
    have hitems := build_items true inside fs root [] (.closeList :: xs) items
    rw [Value.lexemes, List.cons_append, List.append_assoc, List.singleton_append, build_openList]
    refine Eq.trans hitems ?_
    rw [List.append_nil, build_closeList, List.reverse_reverse, Value.tree]
  | .object fields => by
    have hfields := build_fields true inside fs root [] (.closeObject :: xs) fields
    rw [Value.lexemes, List.cons_append, List.append_assoc, List.singleton_append, build_openObject]
    refine Eq.trans hfields ?_
    rw [List.append_nil, build_closeObject, List.reverse_reverse, Value.tree]

theorem build_items (first : Bool) (inside : List Bool) (fs : List (Frame Scalar))
    (root : Option (DataTree Scalar)) (done : List (DataTree Scalar)) (xs : List Lexeme) :
    ∀ vs : List Value, (item first inside).build ⟨.list false none done :: fs, root, []⟩
        (Value.itemLexemes first vs ++ xs)
      = (item (first && vs.isEmpty) inside).build
          ⟨.list false none ((Value.treeItems vs).reverse ++ done) :: fs, root, []⟩ xs
  | [] => by rw [List.isEmpty_nil, Bool.and_true, Value.itemLexemes, Value.treeItems]; rfl
  | v :: rest => by
    have hrest := build_items false inside fs root (v.tree :: done) xs rest
    rw [Value.itemLexemes, List.append_assoc, List.append_assoc, build_separator_item,
      build_lexemes, List.isEmpty_cons, Bool.and_false, Value.treeItems, List.reverse_cons,
      List.append_assoc]
    exact hrest

theorem build_fields (first : Bool) (inside : List Bool) (fs : List (Frame Scalar))
    (root : Option (DataTree Scalar)) (done : List (DataTree Scalar × DataTree Scalar))
    (xs : List Lexeme) : ∀ vs : List (String × Value),
    (field first inside).build ⟨.map false none done none :: fs, root, []⟩
        (Value.fieldLexemes first vs ++ xs)
      = (field (first && vs.isEmpty) inside).build
          ⟨.map false none ((Value.treeFields vs).reverse ++ done) none :: fs, root, []⟩ xs
  | [] => by rw [List.isEmpty_nil, Bool.and_true, Value.fieldLexemes, Value.treeFields]; rfl
  | (k, v) :: rest => by
    have hrest := build_fields false inside fs root ((.scalar (.text (some k)), v.tree) :: done) xs rest
    rw [Value.fieldLexemes, List.append_assoc, List.append_assoc, build_field, build_lexemes,
      List.isEmpty_cons, Bool.and_false, Value.treeFields, List.reverse_cons, List.append_assoc]
    exact hrest

end

end Grammar

/-- A text with the lexemes of a value is the document of the value. -/
theorem source_of_lexemes {s : String} {v : Value} (h : lexemes s = (v.lexemes, true)) :
    ∃ follows, source s = ⟨v.tree, [], true, follows⟩ := by
  have hbuild := Grammar.build_lexemes false [] [] none [] v
  rw [List.append_nil, Grammar.build_eq_foldl] at hbuild
  obtain ⟨hfold, hends⟩ := Prod.mk.inj hbuild
  have hstart : Grammar.start = Grammar.wanting false [] := rfl
  refine ⟨(Grammar.start.events v.lexemes).1.length * 100, ?_⟩
  rw [source, h]
  dsimp only
  rw [Source.ofEvents, hstart, show Builder.start = ⟨[], none, []⟩ from rfl, hfold, hends]
  rfl

/-- A pretty text is the document of its value. -/
theorem source_pretty {v : Value} (h : v.isPlain = true) :
    ∃ follows, source v.pretty = ⟨v.tree, [], true, follows⟩ :=
  source_of_lexemes (lexemes_pretty h)

end DeviceSettings.Json

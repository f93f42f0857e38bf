import DeviceSettings.Proofs.Yaml.Stream
import Mathlib.Data.String.Basic

/-!
# The tokens of marks and scalars

What a stream reads next in a block: a mark that begins an item, a key or a value (`token_item`, `token_key`,
`token_value`), a text that is a value (`Arrives.text`), or one that is a key with the colon after it
(`Arrives.keyText`).
-/

namespace DeviceSettings.Yaml

open Printer (isPrintable spaces)

namespace Stream

/-! ## marks -/

section
variable {s : Stream} {b : Block} {p : Point} {r : List Char} {allowed : Bool}

theorem isMarker_head {mark c : Char} (h : c ≠ mark) (r : List Char) : isMarker mark (c :: r) = false := by
  unfold isMarker
  split
  next heq =>
    obtain ⟨rfl, -⟩ := List.cons.inj heq
    rw [beq_false_of_ne h]
    rfl
  next => rfl

theorem openBlock_inBlock (t : Token) :
    (inBlock b p true).openBlock t = some (inBlock (b.enter t p.column) p true) := by
  by_cases h : b.indent < p.column
  · rw [Block.enter_deeper h]
    simp [openBlock, deepen, isFlow, inBlock, push, h]
  · have hsame : b.enter t p.column = b := if_neg h
    rw [hsame]
    simp [openBlock, deepen, isFlow, inBlock, h]

theorem take_inBlock (t : Token) (n : Nat) :
    (inBlock b p allowed).take n t = inBlock (b.add [t]) (p.skip n) allowed := by
  simp [take, push, inBlock, Block.add]

theorem token_cons {c : Char} (h : s.point.rest = c :: r) (hstart : startsDocument (c :: r) = false)
    (hend : endsDocument (c :: r) = false) (hc : c ≠ '%') :
    s.token =
      if c = '[' then s.openFlow .flowSequence
      else if c = '\x7b' then s.openFlow .flowMapping
      else if c = ']' then s.closeFlow .flowSequenceEnd
      else if c = '\x7d' then s.closeFlow .flowMappingEnd
      else if c = ',' then s.flowEntry
      else if c = '-' && gapNext r then s.blockEntry
      else if c = '?' && (s.isFlow || gapNext r) then s.explicitKey
      else if c = ':' && (s.isFlow || gapNext r) then s.value
      else if c = '*' then s.node (named .reference)
      else if c = '&' then s.node (named .anchor)
      else if c = '!' then s.node (tag? s.isFlow)
      else if c = '|' && !s.isFlow then s.blockScalar true
      else if c = '>' && !s.isFlow then s.blockScalar false
      else if c = '\x27' then s.node (quoted true)
      else if c = '\x22' then s.node (quoted false)
      else if startsPlain s.isFlow (c :: r) then s.plain
      else none := by
  unfold token
  rw [h]
  dsimp only
  rw [hstart, hend, Bool.and_false, if_neg Bool.false_ne_true, if_neg Bool.false_ne_true, decide_eq_false hc,
    Bool.and_false, if_neg Bool.false_ne_true]

/-- A mark that begins an item of a list. -/
theorem token_item (hp : p.rest = '-' :: ' ' :: r) :
    (inBlock b p true).token
      = some (inBlock ((b.enter .blockSequence p.column).add [.blockEntry]) (p.skip 1) true) := by
  have hstart : startsDocument ('-' :: ' ' :: r) = false := by cases r <;> rfl
  have hmark : (inBlock b p true).token = (inBlock b p true).blockEntry := by
    rw [token_cons hp hstart (isMarker_head (by decide) _) (by decide)]
    simp [gapNext, isGap, isBlank]
  rw [hmark, blockEntry, openBlock_inBlock]
  exact congrArg some (take_inBlock _ _)

/-- A mark that begins a key. -/
theorem token_key (hp : p.rest = '?' :: ' ' :: r) :
    (inBlock b p true).token = some (inBlock ((b.enter .blockMapping p.column).add [.key]) (p.skip 1) true) := by
  have hmark : (inBlock b p true).token = (inBlock b p true).explicitKey := by
    rw [token_cons hp (isMarker_head (by decide) _) (isMarker_head (by decide) _) (by decide)]
    simp [gapNext, isGap, isBlank]
  rw [hmark, explicitKey, openBlock_inBlock]
  exact congrArg some (take_inBlock _ _)

theorem token_colon (hp : s.point.rest = ':' :: r) (hr : gapNext r = true) : s.token = s.value := by
  rw [token_cons hp (isMarker_head (by decide) _) (isMarker_head (by decide) _) (by decide)]
  simp [hr]

/-- A mark that begins the value of such a key. -/
theorem token_value (hp : p.rest = ':' :: ' ' :: r) :
    (inBlock b p true).token = some (inBlock ((b.enter .blockMapping p.column).add [.value]) (p.skip 1) true) := by
  have hvalue : (inBlock b p true).value = ((inBlock b p true).openBlock .blockMapping).bind fun s =>
      some (({ s with keyAllowed := !s.isFlow }).take 1 .value) := rfl
  rw [token_colon hp rfl, hvalue, openBlock_inBlock]
  exact congrArg some (take_inBlock _ _)

end

/-! ## scalars -/

section
variable {b : Block} {p q : Point} {r : List Char} {allowed : Bool} {t : Token}

/-- A stream inside a block with a possible key. -/
def holding (b : Block) (q : Point) (after : Bool) (key : Option PossibleKey) : Stream :=
  { inBlock b q after with key }

/-- The key that may begin at a point. -/
def keyAt (b : Block) (p : Point) : PossibleKey := ⟨b.indent == p.column, b.tokens.length, p.index, p.line, p.column⟩

/-- A scalar was read that may have to be a key. -/
def scanned (b : Block) (p : Point) (allowed : Bool) (t : Token) (q : Point) (after : Bool) : Stream :=
  holding (b.add [t]) q after (if allowed then some (keyAt b p) else none)

theorem node_inBlock {read : Point → Option (Token × Point)} (h : read p = some (t, q)) :
    (inBlock b p allowed).node read = some (scanned b p allowed t q false) := by
  unfold node
  cases allowed <;> simp [noteKey, inBlock, dropKey, settle, h, took, push, scanned, holding, keyAt,
    Block.add, isFlow]

/-- A scalar in quotes. -/
theorem token_single (hp : p.rest = '\x27' :: r) (h : quoted true p = some (t, q)) :
    (inBlock b p allowed).token = some (scanned b p allowed t q false) := by
  have hmark : (inBlock b p allowed).token = (inBlock b p allowed).node (quoted true) := by
    rw [token_cons hp (isMarker_head (by decide) _) (isMarker_head (by decide) _) (by decide)]
    simp
  rw [hmark, node_inBlock h]

theorem token_double (hp : p.rest = '\x22' :: r) (h : quoted false p = some (t, q)) :
    (inBlock b p allowed).token = some (scanned b p allowed t q false) := by
  have hmark : (inBlock b p allowed).token = (inBlock b p allowed).node (quoted false) := by
    rw [token_cons hp (isMarker_head (by decide) _) (isMarker_head (by decide) _) (by decide)]
    simp
  rw [hmark, node_inBlock h]

/-! ## plain scalars -/

variable {cs stop : List Char} {c : Char}

/-- A mark that a plain text begins with belongs to a word. -/
theorem gapNext_of_isPlain {ds : List Char} (h : IsPlain (c :: ds)) (hc : c = '-' ∨ c = '?' ∨ c = ':') :
    gapNext (ds ++ stop) = false ∧ (ds ++ stop).head?.any isBlank = false := by
  have hfirst := (anyBetween_cons h.within).1
  cases ds with
  | nil => rcases hc with rfl | rfl | rfl <;> simp [Printer.isIndicator, Printer.isEdge] at hfirst
  | cons d ds =>
    have hgap : isGap d = false := by
      rcases hc with rfl | rfl | rfl <;> simp [Printer.isIndicator, Printer.isEdge] at hfirst <;> exact hfirst.2.1
    exact ⟨hgap, isBlank_eq_false_of_isGap hgap⟩

theorem startsPlain_of_isPlain (h : IsPlain cs) : startsPlain false (cs ++ stop) = true := by
  obtain ⟨c, ds, rfl⟩ := List.exists_cons_of_ne_nil h.ne_nil
  have hgap : isGap c = false := isGap_of_mem h.line List.mem_cons_self (h.head c rfl)
  by_cases hc : c = '-' ∨ c = '?' ∨ c = ':'
  · obtain ⟨hnext, hblank⟩ : gapNext (ds ++ stop) = false ∧ (ds ++ stop).head?.any isBlank = false :=
      gapNext_of_isPlain h hc
    rw [List.cons_append, startsPlain, hnext, hblank]
    rcases hc with rfl | rfl | rfl <;> rfl
  · have hfirst := (anyBetween_cons h.within).1
    have hmark : indicators.contains c = false := by
      simp [Printer.isIndicator, Printer.isMark] at hfirst hc
      simp [indicators, hfirst, hc]
    rw [List.cons_append, startsPlain, hgap, hmark]
    rfl

theorem token_isPlain (h : IsPlain cs) (hp : p.rest = cs ++ stop) (hstop : stop.head? = some c)
    (hc : c ≠ '-' ∧ c ≠ '.') :
    (inBlock b p allowed).token = (inBlock b p allowed).plain := by
  obtain ⟨hstart, hend⟩ := h.isMarker hstop hc
  have hplain : startsPlain false (cs ++ stop) = true := startsPlain_of_isPlain h
  obtain ⟨d, ds, rfl⟩ := List.exists_cons_of_ne_nil h.ne_nil
  have hfirst := (anyBetween_cons h.within).1
  simp [Printer.isIndicator, Printer.isMark] at hfirst
  have hnext (hd : d = '-' ∨ d = '?' ∨ d = ':') : gapNext (ds ++ stop) = false := (gapNext_of_isPlain h hd).1
  have hflow : (inBlock b p allowed).isFlow = false := rfl
  have hmark (m : Char) (hm : m = '-' ∨ m = '?' ∨ m = ':') : ¬(d = m ∧ gapNext (ds ++ stop) = true) := by
    rintro ⟨rfl, htrue⟩
    rw [hnext hm] at htrue
    cases htrue
  rw [List.cons_append] at hstart hend hplain
  rw [token_cons hp hstart hend (by simp [hfirst])]
  simp [hfirst, hflow, hplain, hmark]

theorem plain_inBlock {text : List Char} {broken : Bool}
    (h : plainFrom (p.rest.length + 1) false (b.indent + 1) .none p = some (text, broken, q)) :
    (inBlock b p allowed).plain = some (scanned b p allowed (.scalar (.ofList text) .plain) q broken) := by
  unfold plain
  cases allowed <;> simp [noteKey, inBlock, dropKey, settle, h, took, push, scanned, holding, keyAt,
    Block.add, isFlow]

/-! ## literal blocks -/

theorem token_literal (hp : p.rest = '|' :: r) {text : List Char}
    (h : blockScalar? true b.indent (p.skip 1) = some (text, q)) :
    (inBlock b p allowed).token = some (inBlock (b.add [.scalar (.ofList text) .literal]) q true) := by
  have hmark : (inBlock b p allowed).token = (inBlock b p allowed).blockScalar true := by
    rw [token_cons hp (isMarker_head (by decide) _) (isMarker_head (by decide) _) (by decide)]
    simp [isFlow, inBlock]
  rw [hmark, blockScalar]
  simp [inBlock, dropKey, settle, h, took, push, Block.add]

/-! ## scalars that are values -/

variable {s : Stream} {k n : Nat} {rest : List Char} {after : Bool} {key : Option PossibleKey}

theorem dropStale_holding (hkey : ∀ k ∈ key, k.isStale q = true → k.required = false) :
    (holding b q after key).dropStale = some (holding b q after (key.filter fun k => !k.isStale q)) :=
  dropStale_eq rfl hkey

theorem rests_line (hkey : ∀ k ∈ key, k.required = false ∧ k.line ≤ q.line) (hq : q.rest = '\n' :: (spaces k ++ rest))
    (hrest : IsStart rest) : Rests (holding b q after key) b k rest := by
  have hnext : (holding b q after key).toNext (q.rest.length + 1) = holding b (q.afterBreaks 1 k rest) true key := by
    rw [hq, List.length_cons, toNext_line hq hrest]
    simp [holding, inBlock, isFlow]
  have hstale : ∀ k' ∈ key, k'.isStale (q.afterBreaks 1 k rest) = true := fun k' hk' => by
    have hlt : k'.line < q.line + 1 := Nat.lt_succ_of_le (hkey k' hk').2
    rw [PossibleKey.isStale, Bool.or_eq_true, decide_eq_true_eq]
    exact .inl hlt
  have hnone : (key.filter fun k' => !k'.isStale (q.afterBreaks 1 k rest)) = none := by
    cases key with
    | none => rfl
    | some k' => simp [Option.filter, hstale k' rfl]
  have hdrop : (holding b (q.afterBreaks 1 k rest) true key).dropStale
      = some (inBlock b (q.afterBreaks 1 k rest) true) := by
    rw [dropStale_holding fun k' hk' _ => (hkey k' hk').1, hnone]
    rfl
  refine ⟨⟨_, (congrArg dropStale hnext).trans hdrop, rfl, rfl, outdent_inBlock (Int.le_refl _)⟩, ?_⟩
  show rest.length ≤ q.rest.length
  rw [hq, List.length_cons, List.length_append]
  omega

theorem rests_start (hrest : IsStart q.rest) : Rests (inBlock b q true) b q.column q.rest := by
  have hnext : (inBlock b q true).toNext (q.rest.length + 1) = inBlock b (q.skip 0) true :=
    toNext_spaces (k := 0) rfl hrest
  exact ⟨⟨_, (congrArg dropStale hnext).trans (dropStale_none rfl rfl), rfl, rfl, outdent_inBlock (Int.le_refl _)⟩,
    Nat.le_refl _⟩

/-- A scalar right of its block need not be a key. -/
theorem Arrives.scalar (h : Arrives s b p allowed)
    (htoken : (inBlock b p allowed).token = some (scanned b p allowed t q after))
    (hcolumn : b.indent < p.column) (hline : p.line ≤ q.line) (hshort : q.rest.length < p.rest.length)
    (hrest : IsStart rest) (hend : q.rest = '\n' :: (spaces k ++ rest) ∨
      q.rest = rest ∧ q.column = k ∧ p.line < q.line ∧ after = true) :
    ∃ s', Step s s' ∧ Rests s' (b.add [t]) k rest := by
  have hne : p.rest ≠ [] := List.ne_nil_of_length_pos (Nat.zero_lt_of_lt hshort)
  obtain ⟨key, hkey, hscanned⟩ : ∃ key : Option PossibleKey, (∀ k ∈ key, k.required = false ∧ k.line = p.line) ∧
      scanned b p allowed t q after = holding (b.add [t]) q after key := by
    refine ⟨_, ?_, rfl⟩
    intro k hk
    cases allowed with
    | false => cases hk
    | true =>
      obtain rfl := Option.some.inj hk
      exact ⟨beq_false_of_ne (by omega), rfl⟩
  have hdrop : (holding (b.add [t]) q after key).dropStale = _ := dropStale_holding fun k hk _ => (hkey k hk).1
  refine ⟨_, h.step hne (by rw [htoken, Option.bind_some, hscanned, hdrop]) hshort, ?_⟩
  rcases hend with hend | ⟨rfl, rfl, hlt, rfl⟩
  · refine rests_line (fun k hk => ?_) hend hrest
    have hk' := hkey k (Option.mem_filter_iff.mp hk).1
    exact ⟨hk'.1, hk'.2 ▸ hline⟩
  · have hnone : (key.filter fun k => !k.isStale q) = none := by
      cases key with
      | none => rfl
      | some k =>
        have hlt' : k.line < q.line := (hkey k rfl).2 ▸ hlt
        simp [Option.filter, PossibleKey.isStale, hlt']
    rw [hnone]
    exact rests_start hrest

theorem Arrives.plain (h : Arrives s b p allowed) (hcs : IsPlain cs) (hp : p.rest = cs ++ '\n' :: (spaces k ++ rest))
    (hcolumn : b.indent < p.column) (hk : k ≤ b.indent) (hrest : IsStart rest) :
    ∃ s', Step s s' ∧ Rests s' (b.add [.scalar (.ofList cs) .plain]) k rest := by
  have hread : plainFrom (p.rest.length + 1) false (b.indent + 1) .none p = _ :=
    hcs.plainFrom_line hp (fun c hc => (hrest c hc).1) (by omega) (by omega) (Nat.lt_succ_self _)
  have htoken : (inBlock b p allowed).token = _ :=
    (token_isPlain hcs hp rfl (by decide)).trans (plain_inBlock hread)
  refine h.scalar htoken hcolumn (Nat.le_succ _) ?_ hrest (.inr ⟨rfl, rfl, Nat.lt_succ_self _, rfl⟩)
  show rest.length < p.rest.length
  rw [hp, List.length_append, List.length_cons, List.length_append]
  omega

/-- A text in double quotes with what follows it. -/
theorem quoted_double (hp : p.rest = Printer.doubleQuoted cs ++ stop) :
    quoted false p = some (.scalar (.ofList cs) .doubleQuoted, p.skip (Printer.doubleQuoted cs).length) := by
  have hopen : p.rest = '\x22' :: (cs.flatMap Printer.doubleQuotedChar ++ '\x22' :: stop) := by
    rw [hp, Printer.doubleQuoted]
    simp
  have hinside := Point.rest_skip_one hopen
  have hread : quotedFrom (p.rest.length + 1) false (p.skip 1) = _ :=
    quotedFrom_double hinside (Nat.succ_pos p.column) (by rw [hinside, hopen, List.length_cons]; omega)
  have hlen : (Printer.doubleQuoted cs).length = 1 + ((cs.flatMap Printer.doubleQuotedChar).length + 1) := by
    rw [Printer.doubleQuoted, List.length_append, List.length_cons, List.length_singleton]
    omega
  rw [quoted, hread, Point.skip_skip, hlen]
  rfl

theorem Arrives.double (h : Arrives s b p allowed) (hp : p.rest = Printer.doubleQuoted cs ++ '\n' :: (spaces k ++ rest))
    (hcolumn : b.indent < p.column) (hrest : IsStart rest) :
    ∃ s', Step s s' ∧ Rests s' (b.add [.scalar (.ofList cs) .doubleQuoted]) k rest := by
  have hopen : ∃ r, p.rest = '\x22' :: r := ⟨_, hp⟩
  obtain ⟨r, hr⟩ := hopen
  have hq := Point.rest_skip hp
  have hpos : 0 < (Printer.doubleQuoted cs).length := Nat.succ_pos _
  refine h.scalar (token_double hr (quoted_double hp)) hcolumn (Nat.le_refl _) ?_ hrest (.inl hq)
  rw [hq, hp, List.length_append]
  omega

theorem singleQuoted_line (hcs : ∀ c ∈ cs, isBreak c = false) :
    Printer.singleQuoted n cs = '\x27' :: (cs.flatMap singleQuotedChar ++ ['\x27']) := by
  have hline : Printer.singleQuotedFrom n false (cs ++ []) = cs.flatMap singleQuotedChar ++ [] :=
    singleQuotedFrom_line hcs []
  rw [List.append_nil, List.append_nil] at hline
  rw [Printer.singleQuoted, hline, List.cons_append]

/-- A text of one line in single quotes with what follows it. -/
theorem quoted_singleLine (hcs : ∀ c ∈ cs, isPrintable c = true ∧ isBreak c = false) (hstop : stop.head? ≠ some '\x27')
    (hp : p.rest = Printer.singleQuoted 0 cs ++ stop) :
    quoted true p = some (.scalar (.ofList cs) .singleQuoted, p.skip (Printer.singleQuoted 0 cs).length) := by
  have hwritten : Printer.singleQuoted 0 cs = _ := singleQuoted_line fun c hc => (hcs c hc).2
  have hopen : p.rest = '\x27' :: (cs.flatMap singleQuotedChar ++ '\x27' :: stop) := by
    rw [hp, hwritten]
    simp
  have hinside := Point.rest_skip_one hopen
  have hread : quotedFrom (p.rest.length + 1) true (p.skip 1) = _ :=
    quotedFrom_singleLine hcs hstop hinside (Nat.succ_pos p.column) (by rw [hinside, hopen, List.length_cons]; omega)
  have hlen : (Printer.singleQuoted 0 cs).length = 1 + ((cs.flatMap singleQuotedChar).length + 1) := by
    rw [hwritten, List.length_cons, List.length_append, List.length_singleton]
    omega
  rw [quoted, hread, Point.skip_skip, hlen]
  rfl

theorem Arrives.single (h : Arrives s b p allowed)
    (hp : p.rest = Printer.singleQuoted n cs ++ '\n' :: (spaces k ++ rest))
    (hcs : Printer.mayBeSingle cs = true) (hfeed : '\n' ∉ cs) (hn : 0 < n) (hcolumn : b.indent < p.column)
    (hrest : IsStart rest) : ∃ s', Step s s' ∧ Rests s' (b.add [.scalar (.ofList cs) .singleQuoted]) k rest := by
  simp only [Printer.mayBeSingle, Printer.hasTrailingBlank, Printer.hasIndentedLine, Bool.and_eq_true,
    Bool.not_eq_true', List.all_eq_true] at hcs
  obtain ⟨⟨hprint, htrailing⟩, hindented⟩ := hcs
  have hopen : p.rest = '\x27' :: (Printer.singleQuotedFrom n false cs ++ '\x27' :: '\n' :: (spaces k ++ rest)) := by
    rw [hp, Printer.singleQuoted]
    simp
  have hstop : ('\n' :: (spaces k ++ rest)).head? ≠ some '\x27' := by simp
  have hinside : (p.skip 1).rest = Printer.singleQuotedFrom n false cs ++ '\x27' :: '\n' :: (spaces k ++ rest) :=
    Point.rest_skip_one hopen
  obtain ⟨q, hq, hline, hread⟩ :=
    quotedFrom_single ⟨hprint, hfeed, htrailing, hindented⟩ hn hstop hinside (Nat.succ_pos p.column)
  have hquoted : quoted true p = some (.scalar (.ofList cs) .singleQuoted, q) := by
    rw [quoted, hread (p.rest.length + 1) (by rw [hinside, hopen, List.length_cons]; omega)]
    rfl
  refine h.scalar (token_single hopen hquoted) hcolumn hline ?_ hrest (.inl hq)
  rw [hq, hopen]
  simp only [List.length_append, List.length_cons]
  omega

theorem Arrives.literal (h : Arrives s b p allowed) {outer : Nat} (hb : b.indent = outer)
    (hp : p.rest = Printer.literal (outer + 2) cs ++ (spaces k ++ rest)) (hprint : ∀ c ∈ cs, isPrintable c = true)
    (hne : cs ≠ []) (hk : k ≤ outer) (hrest : IsStart rest) :
    ∃ s', Step s s' ∧ Rests s' (b.add [.scalar (.ofList cs) .literal]) k rest := by
  obtain ⟨r, hr⟩ : ∃ r, Printer.literal (outer + 2) cs = '|' :: r := ⟨_, rfl⟩
  have hopen : p.rest = '|' :: (r ++ (spaces k ++ rest)) := by rw [hp, hr, List.cons_append]
  have hinside : '|' :: (p.skip 1).rest = Printer.literal (outer + 2) cs ++ (spaces k ++ rest) := by
    rw [← hp, hopen, Point.rest_skip_one hopen]
  obtain ⟨q, hread, rfl, rfl, -⟩ := blockScalar?_literal hprint hne hinside hk fun c hc => (hrest c hc).1
  rw [← hb] at hread
  have htoken : (inBlock b p allowed).token = _ := token_literal hopen hread
  refine ⟨_, h.step (by rw [hopen]; exact List.cons_ne_nil _ _) (by rw [htoken]; exact dropStale_none rfl rfl) ?_,
    rests_start hrest⟩
  show q.rest.length < p.rest.length
  rw [hopen, List.length_cons, List.length_append, List.length_append]
  omega

/-! ## texts that are values -/

theorem style_cases (str : String) :
    (Printer.style str = .plain ∧ IsPlain str.toList) ∨
    (Printer.style str = .singleQuoted ∧ Printer.mayBeSingle str.toList = true ∧ '\n' ∉ str.toList) ∨
    (Printer.style str = .literal ∧ '\n' ∈ str.toList ∧ ∀ c ∈ str.toList, isPrintable c = true) ∨
    Printer.style str = .doubleQuoted := by
  unfold Printer.style
  dsimp only
  split
  next hfeed =>
    split
    next hliteral =>
      simp only [Printer.mayBeLiteral, Bool.and_eq_true, List.all_eq_true] at hliteral
      exact .inr (.inr (.inl ⟨rfl, by simpa using hfeed, hliteral.1.1.1⟩))
    next => exact .inr (.inr (.inr rfl))
  next hfeed =>
    split
    next hplain =>
      rw [Bool.and_eq_true, Bool.not_eq_true'] at hplain
      refine .inl ⟨rfl, isPlain_of_mayBePlain hplain.2 fun hnil => ?_⟩
      rw [String.toList_eq_nil_iff.mp hnil] at hplain
      exact absurd hplain.1 (by decide)
    next =>
      split
      next hsingle => exact .inr (.inl ⟨rfl, hsingle, by simpa using hfeed⟩)
      next => exact .inr (.inr (.inr rfl))

theorem Arrives.text (h : Arrives s b p allowed) {outer : Nat} (hb : b.indent = outer) {str : String}
    (hp : p.rest = Printer.textLine (outer + 2) str ++ (spaces k ++ rest)) (hcolumn : outer < p.column) (hk : k ≤ outer)
    (hrest : IsStart rest) : ∃ s', Step s s' ∧ Rests s' (b.add [.scalar str (Printer.style str)]) k rest := by
  have hcolumn' : b.indent < p.column := by omega
  unfold Printer.textLine at hp
  dsimp only at hp
  rcases style_cases str with ⟨hstyle, hcs⟩ | ⟨hstyle, hcs, hfeed⟩ | ⟨hstyle, hfeed, hprint⟩ | hstyle <;>
    rw [hstyle] at hp ⊢
  · rw [List.append_assoc] at hp
    have hread := h.plain hcs hp hcolumn' (by omega) hrest
    rwa [String.ofList_toList] at hread
  · rw [List.append_assoc] at hp
    have hread := h.single hp hcs hfeed (Nat.succ_pos _) hcolumn' hrest
    rwa [String.ofList_toList] at hread
  · have hread := h.literal hb hp hprint (List.ne_nil_of_mem hfeed) hk hrest
    rwa [String.ofList_toList] at hread
  · rw [List.append_assoc] at hp
    have hread := h.double hp hcolumn' hrest
    rwa [String.ofList_toList] at hread

/-! ## empty collections -/

/-- The two marks of a collection that holds nothing. -/
inductive IsPair : Char → Char → Token → Token → Prop
  | list : IsPair '[' ']' .flowSequence .flowSequenceEnd
  | map : IsPair '\x7b' '\x7d' .flowMapping .flowMappingEnd

theorem IsPair.token_first {first last : Char} {t t' : Token} (hpair : IsPair first last t t') {r : List Char}
    (hp : s.point.rest = first :: r) : s.token = s.openFlow t := by
  cases hpair <;>
  · rw [token_cons hp (isMarker_head (by decide) _) (isMarker_head (by decide) _) (by decide)]
    simp

theorem IsPair.token_last {first last : Char} {t t' : Token} (hpair : IsPair first last t t') {r : List Char}
    (hp : s.point.rest = last :: r) : s.token = s.closeFlow t' := by
  cases hpair <;>
  · rw [token_cons hp (isMarker_head (by decide) _) (isMarker_head (by decide) _) (by decide)]
    simp

/-- A stream inside a flow collection that stands in a block; a key may have begun before. -/
def inFlow (b : Block) (q : Point) (key : Option PossibleKey) : Stream := { inBlock b q true with keys := [key] }

theorem dropStale_inFlow (hkey : ∀ k ∈ key, k.isStale q = false) :
    (inFlow b q key).dropStale = some (inFlow b q key) := by
  cases key with
  | none => rfl
  | some k => simp [dropStale, inFlow, inBlock, hkey k rfl]

theorem arrive_inFlow (hkey : ∀ k ∈ key, k.isStale q = false) (hrest : IsStart q.rest) :
    (inFlow b q key).arrive = some (inFlow b q key) := by
  have hnext : (inFlow b q key).toNext (q.rest.length + 1) = inFlow b (q.skip 0) key := toNext_spaces (k := 0) rfl hrest
  show (((inFlow b q key).toNext (q.rest.length + 1)).dropStale).map _ = _
  rw [hnext, Point.skip_zero, dropStale_inFlow hkey]
  rfl

/-- The key that may begin at a point inside the block, if one is allowed there. -/
theorem exists_noteKey (allowed : Bool) (hcolumn : b.indent < p.column) :
    ∃ key : Option PossibleKey, (∀ k ∈ key, k.required = false ∧ k.line = p.line ∧ k.index = p.index)
      ∧ (inBlock b p allowed).noteKey = some (holding b p allowed key) := by
  cases allowed with
  | false => exact ⟨none, nofun, rfl⟩
  | true =>
    refine ⟨some (keyAt b p), ?_, rfl⟩
    rintro k ⟨⟩
    exact ⟨beq_false_of_ne (by omega), rfl, rfl⟩

/-- A key is not stale right after where it began. -/
theorem isStale_skip {k : PossibleKey} {n : Nat} (hline : k.line = p.line) (hindex : k.index = p.index)
    (hn : n ≤ keyLength) : k.isStale (p.skip n) = false := by
  simp [PossibleKey.isStale, Point.skip, hline, hindex, hn]

theorem Arrives.pair {first last : Char} {t t' : Token} (h : Arrives s b p allowed) (hpair : IsPair first last t t')
    (hp : p.rest = first :: last :: '\n' :: (spaces k ++ rest)) (hcolumn : b.indent < p.column) (hrest : IsStart rest) :
    ∃ s', Reaches s s' ∧ Rests s' (b.add [t, t']) k rest := by
  obtain ⟨key, hkey, hnote⟩ := exists_noteKey allowed hcolumn
  have hfresh : ∀ k ∈ key, k.isStale (p.skip 1) = false := fun k hk =>
    isStale_skip (hkey k hk).2.1 (hkey k hk).2.2 (by decide)
  have hinner : (p.skip 1).rest = last :: '\n' :: (spaces k ++ rest) := Point.rest_skip_one hp
  have hend : ((p.skip 1).skip 1).rest = '\n' :: (spaces k ++ rest) := Point.rest_skip_one hinner
  have hopen : (inBlock b p allowed).token = some (inFlow (b.add [t]) (p.skip 1) key) := by
    rw [hpair.token_first hp, openFlow, hnote]
    rfl
  have hclose : (inFlow (b.add [t]) (p.skip 1) key).token
      = some (holding (b.add [t, t']) ((p.skip 1).skip 1) false key) := by
    rw [hpair.token_last hinner]
    rfl
  have hdrop : (holding (b.add [t, t']) ((p.skip 1).skip 1) false key).dropStale = _ :=
    dropStale_holding fun k hk _ => (hkey k hk).1
  have hstart : IsStart (p.skip 1).rest := by
    rw [hinner]
    rcases hpair <;> exact isStart_cons (by decide) _
  have hfirst : Step s (inFlow (b.add [t]) (p.skip 1) key) := by
    refine h.step (by rw [hp]; exact List.cons_ne_nil _ _) ?_ ?_
    · rw [hopen, Option.bind_some, dropStale_inFlow hfresh]
    · show (p.skip 1).rest.length < p.rest.length
      rw [hinner, hp]
      exact Nat.lt_succ_self _
  have hlast : Step (inFlow (b.add [t]) (p.skip 1) key) (holding (b.add [t, t']) ((p.skip 1).skip 1) false
      (key.filter fun k => !k.isStale ((p.skip 1).skip 1))) := by
    refine ⟨⟨_, arrive_inFlow hfresh hstart, ?_, by rw [hclose, Option.bind_some, hdrop]⟩, ?_⟩
    · show (p.skip 1).rest ≠ []
      rw [hinner]
      exact List.cons_ne_nil _ _
    · show ((p.skip 1).skip 1).rest.length < (p.skip 1).rest.length
      rw [hend, hinner]
      exact Nat.lt_succ_self _
  refine ⟨_, .tail (.single hfirst) hlast, rests_line (fun k hk => ?_) hend hrest⟩
  have hk' := hkey k (Option.mem_filter_iff.mp hk).1
  exact ⟨hk'.1, Nat.le_of_eq hk'.2.1⟩

/-! ## keys -/

theorem value_scanned {q : Point} :
    (scanned b p true t q false).value
      = some (inBlock ((b.enter .blockMapping p.column).add [.key, t, .value]) (q.skip 1) false) := by
  by_cases h : b.indent < p.column
  · rw [Block.enter_deeper h]
    simp [scanned, holding, keyAt, value, deepen, insertAt, take, push, inBlock, isFlow, Block.add, h]
  · have hsame : b.enter .blockMapping p.column = b := if_neg h
    rw [hsame]
    simp [scanned, holding, keyAt, value, deepen, insertAt, take, push, inBlock, isFlow, Block.add, h]

/-- A scalar that may be a key still may right after it. -/
theorem dropStale_scanned {len : Nat} (hlen : len ≤ keyLength) :
    (scanned b p true t (p.skip len) after).dropStale = some (scanned b p true t (p.skip len) after) := by
  have hfresh : (keyAt b p).isStale (p.skip len) = false := isStale_skip rfl rfl hlen
  refine (dropStale_holding ?_).trans ?_
  · rintro k ⟨⟩ hstale
    rw [hfresh] at hstale
    cases hstale
  · simp [scanned, Option.filter, hfresh]

/-- A scalar on its line with a colon after it is a key. -/
theorem Arrives.simpleKey {len : Nat} (h : Arrives s b p true)
    (htoken : (inBlock b p true).token = some (scanned b p true t (p.skip len) false)) (hpos : 0 < len)
    (hlen : len ≤ keyLength) (hp : (p.skip len).rest = ':' :: r) (hr : gapNext r = true)
    (hcolumn : b.indent ≤ p.column) :
    ∃ q, Reaches s (inBlock ((b.enter .blockMapping p.column).add [.key, t, .value]) q false) ∧ q.rest = r
      ∧ p.column ≤ q.column := by
  have hlength : (p.skip len).rest.length < p.rest.length := by
    have hdrop : (p.skip len).rest.length = p.rest.length - len := List.length_drop
    rw [hp, List.length_cons] at hdrop ⊢
    omega
  have hdrop : (scanned b p true t (p.skip len) false).dropStale = some (scanned b p true t (p.skip len) false) :=
    dropStale_scanned hlen
  have hfirst : Step s (scanned b p true t (p.skip len) false) :=
    h.step (List.ne_nil_of_length_pos (Nat.zero_lt_of_lt hlength)) (by rw [htoken, Option.bind_some, hdrop]) hlength
  have harrive : (scanned b p true t (p.skip len) false).arrive = some (scanned b p true t (p.skip len) false) := by
    have hnext : (scanned b p true t (p.skip len) false).toNext ((p.skip len).rest.length + 1)
        = scanned b p true t ((p.skip len).skip 0) false :=
      toNext_spaces (k := 0) hp (isStart_cons (by decide) r)
    have hout : (scanned b p true t (p.skip len) false).outdent ((p.skip len).column : Int) = _ :=
      outdent_stay (Int.le_trans hcolumn (Int.ofNat_le.mpr (Nat.le_add_right _ _)))
    show (((scanned b p true t (p.skip len) false).toNext ((p.skip len).rest.length + 1)).dropStale).map _ = _
    rw [hnext, Point.skip_zero, hdrop]
    exact congrArg some hout
  have hlast : Step (scanned b p true t (p.skip len) false)
      (inBlock ((b.enter .blockMapping p.column).add [.key, t, .value]) ((p.skip len).skip 1) false) := by
    refine ⟨⟨_, harrive, ?_, ?_⟩, ?_⟩
    · show (p.skip len).rest ≠ []
      rw [hp]
      exact List.cons_ne_nil _ _
    · rw [token_colon hp hr, value_scanned]
      exact dropStale_none rfl rfl
    · show ((p.skip len).skip 1).rest.length < (p.skip len).rest.length
      rw [Point.rest_skip_one hp, hp]
      exact Nat.lt_succ_self _
  exact ⟨_, .tail (.single hfirst) hlast, Point.rest_skip_one hp,
    Nat.le_trans (Nat.le_add_right _ len) (Nat.le_add_right _ 1)⟩

/-! ## texts that are keys -/

theorem two_le_utf8Size {c : Char} (h : ¬c.toNat ≤ 0xFF) : 2 ≤ c.utf8Size := by
  have hval : c.toNat = c.val.toNat := rfl
  simp only [Char.utf8Size, UInt32.le_iff_toNat_le, UInt32.toNat_ofNatLT, ← hval]
  rw [if_neg (by omega)]
  split
  · exact Nat.le_refl 2
  split <;> decide

theorem four_le_utf8Size {c : Char} (h : ¬c.toNat ≤ 0xFFFF) : 4 ≤ c.utf8Size := by
  have hval : c.toNat = c.val.toNat := rfl
  simp only [Char.utf8Size, UInt32.le_iff_toNat_le, UInt32.toNat_ofNatLT, ← hval]
  rw [if_neg (by omega), if_neg (by omega), if_neg (by omega)]

theorem length_doubleQuotedChar_le (c : Char) : (Printer.doubleQuotedChar c).length ≤ 4 * c.utf8Size := by
  have hpos := c.utf8Size_pos
  unfold Printer.doubleQuotedChar
  split
  · show 1 ≤ _
    omega
  split
  · show 2 ≤ _
    omega
  dsimp only
  split
  · rw [List.length_cons, List.length_cons, length_hex]
    omega
  next hlarge =>
    have hsize := two_le_utf8Size hlarge
    split
    · rw [List.length_cons, List.length_cons, length_hex]
      omega
    next hlarge =>
      have hsize := four_le_utf8Size hlarge
      rw [List.length_cons, List.length_cons, length_hex]
      omega

theorem length_flatMap_le {write : Char → List Char} (hwrite : ∀ c, (write c).length ≤ 4 * c.utf8Size)
    (cs : List Char) :
    (cs.flatMap write).length ≤ 4 * String.utf8Len cs := by
  induction cs with
  | nil => exact Nat.le_refl _
  | cons c cs ih =>
    have hc := hwrite c
    rw [List.flatMap_cons, List.length_append, String.utf8Len_cons]
    omega

theorem length_singleQuotedChar_le (c : Char) : (singleQuotedChar c).length ≤ 4 * c.utf8Size := by
  have hpos := c.utf8Size_pos
  rw [singleQuotedChar, apply_ite List.length]
  simp only [List.length_cons, List.length_nil]
  split <;> omega

theorem length_le_utf8Len (cs : List Char) : cs.length ≤ String.utf8Len cs := by
  induction cs with
  | nil => exact Nat.le_refl _
  | cons c cs ih =>
    have hpos := c.utf8Size_pos
    rw [List.length_cons, String.utf8Len_cons]
    omega

/-- A key on one line is a key as it is written. -/
theorem Arrives.keyText (h : Arrives s b p true) {str : String} (hkey : Printer.isSimpleKey str = true)
    (hp : p.rest = Printer.simpleKey str ++ ':' :: r) (hr : gapNext r = true) (hcolumn : b.indent ≤ p.column) :
    ∃ q, Reaches s
      (inBlock ((b.enter .blockMapping p.column).add [.key, .scalar str (Printer.style str), .value]) q false)
      ∧ q.rest = r ∧ p.column ≤ q.column := by
  rw [Printer.isSimpleKey, Bool.and_eq_true, Bool.not_eq_true', Printer.isMultiline, List.any_eq_false,
    decide_eq_true_eq] at hkey
  obtain ⟨hline, hsize⟩ := hkey
  have hlen : String.utf8Len str.toList ≤ 128 := by
    rw [← String.utf8ByteSize_ofList, String.ofList_toList]
    exact hsize
  unfold Printer.simpleKey at hp
  dsimp only at hp
  rcases style_cases str with ⟨hstyle, hcs⟩ | ⟨hstyle, hcs, hfeed⟩ | ⟨hstyle, hfeed, hprint⟩ | hstyle <;>
    rw [hstyle] at hp ⊢
  · have hread : plainFrom (p.rest.length + 1) false (b.indent + 1) .none p = _ :=
      hcs.plainFrom_key hr hp (by omega) (Nat.lt_succ_self _)
    have htoken : (inBlock b p true).token = _ :=
      (token_isPlain hcs hp rfl (by decide)).trans (plain_inBlock hread)
    rw [String.ofList_toList] at htoken
    refine h.simpleKey htoken (List.length_pos_iff.mpr hcs.ne_nil) ?_ (Point.rest_skip hp) hr hcolumn
    exact Nat.le_trans (length_le_utf8Len _) (Nat.le_trans hlen (by decide))
  · have hall : ∀ c ∈ str.toList, isPrintable c = true ∧ isBreak c = false := fun c hc => by
      rw [Printer.mayBeSingle, Bool.and_eq_true, Bool.and_eq_true, List.all_eq_true] at hcs
      exact ⟨hcs.1.1 c hc, by simpa using hline c hc⟩
    have hquoted := quoted_singleLine hall (by simp) hp
    have htoken : (inBlock b p true).token = _ := token_single hp hquoted
    rw [String.ofList_toList] at htoken
    refine h.simpleKey htoken (Nat.succ_pos _) ?_ (Point.rest_skip hp) hr hcolumn
    have hle := length_flatMap_le length_singleQuotedChar_le str.toList
    have hlimit : 4 * 128 + 2 ≤ keyLength := by decide
    rw [singleQuoted_line fun c hc => (hall c hc).2, List.length_cons, List.length_append, List.length_singleton]
    omega
  · exact absurd (hline '\n' hfeed) (by decide)
  · have htoken : (inBlock b p true).token = _ := token_double hp (quoted_double hp)
    rw [String.ofList_toList] at htoken
    refine h.simpleKey htoken (Nat.succ_pos _) ?_ (Point.rest_skip hp) hr hcolumn
    have hle := length_flatMap_le length_doubleQuotedChar_le str.toList
    have hlimit : 4 * 128 + 2 ≤ keyLength := by decide
    rw [Printer.doubleQuoted, List.length_append, List.length_cons, List.length_singleton]
    omega

end

end Stream

end DeviceSettings.Yaml

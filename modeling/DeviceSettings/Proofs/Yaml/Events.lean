import DeviceSettings.Proofs.Yaml.Tokens
import DeviceSettings.Yaml.Source

/-!
# The document of what is written

The tokens of a written value give its tree (`source_print`).  The grammar and the builder of trees run together here,
one event at a time (`Leads`); a step that takes no token is paid for by a token before it, so that two steps to a
token are enough.
-/

namespace DeviceSettings.Yaml

open Document (Builder DataTree Event Source)
open Printer (style)

/-! ## trees -/

mutual

/-- The tree of a value. -/
def Value.tree : Value → DataTree Scalar
  | .boolean b => .scalar ⟨if b then "true" else "false", .plain, none⟩
  | .natural n => .scalar ⟨toString n, .plain, none⟩
  | .text s => .scalar ⟨s, style s, none⟩
  | .list items => .list false (treeItems items) true
  | .map entries => .map false (treeEntries entries) true

def Value.treeItems : List Value → List (DataTree Scalar)
  | [] => []
  | v :: rest => v.tree :: treeItems rest

def Value.treeEntries : List (String × Value) → List (DataTree Scalar × DataTree Scalar)
  | [] => []
  | (k, v) :: rest => (.scalar ⟨k, style k, none⟩, v.tree) :: treeEntries rest

end

namespace Grammar

/-! ## runs -/

/-- What a machine adds to a tree, and how it ends. -/
def build (fuel : Nat) (m : Machine) (b : Builder Scalar) : Builder Scalar × Option Machine :=
  ((m.run fuel).1.foldl Builder.step b, (m.run fuel).2)

/-- In so many steps a machine becomes another, and a tree that is being built too. -/
def Leads (n : Nat) (m : Machine) (b : Builder Scalar) (m' : Machine) (b' : Builder Scalar) : Prop :=
  ∀ fuel, build (n + fuel) m b = build fuel m' b'

section
variable {n k : Nat} {m m' m'' : Machine} {b b' b'' : Builder Scalar}

theorem Leads.refl (m : Machine) (b : Builder Scalar) : Leads 0 m b m b := fun fuel => by rw [Nat.zero_add]

theorem Leads.trans (h : Leads n m b m' b') (h' : Leads k m' b' m'' b'') : Leads (n + k) m b m'' b'' := by
  intro fuel
  rw [Nat.add_assoc, h, h']

theorem Leads.head {e : Event Scalar} (h : m.step = some (e, m')) (h' : Leads n m' (b.step e) m'' b'') :
    Leads (n + 1) m b m'' b'' := by
  intro fuel
  have hplaces : m.places.isEmpty = false := by
    cases hps : m.places with
    | nil =>
      rw [Machine.step, hps] at h
      cases h
    | cons => rfl
  have hstep : build (n + fuel + 1) m b = build (n + fuel) m' (b.step e) := by
    rw [build, Machine.run, hplaces, if_neg Bool.false_ne_true, h]
    rfl
  rw [Nat.add_right_comm, hstep, h']

end

/-! ## trees that are being built -/

def inList (b : Builder Scalar) (items : List (DataTree Scalar)) : Builder Scalar :=
  { b with frames := .list false none items :: b.frames }

def inMap (b : Builder Scalar) (entries : List (DataTree Scalar × DataTree Scalar)) : Builder Scalar :=
  { b with frames := .map false none entries none :: b.frames }

def inEntry (b : Builder Scalar) (entries : List (DataTree Scalar × DataTree Scalar)) (key : DataTree Scalar) :
    Builder Scalar :=
  { b with frames := .map false none entries (some key) :: b.frames }

section
variable {b : Builder Scalar} {items : List (DataTree Scalar)} {entries : List (DataTree Scalar × DataTree Scalar)}

theorem close_inList : (inList b items).step .close = b.add (.list false items.reverse true) := rfl

theorem close_inMap : (inMap b entries).step .close = b.add (.map false entries.reverse true) := rfl

end

/-! ## machines in a document without directives -/

/-- A machine before some tokens. -/
def on (ts : List Token) (ps : List Place) : Machine := ⟨ts, ps, standardHandles, []⟩

/-- A node is read in at most so many steps, and then what follows it. -/
def Takes (step : Step) (n : Nat) (b : Builder Scalar) (rest : List Token) (ps : List Place)
    (t : DataTree Scalar) : Prop :=
  ∃ e m k, step = some (e, m) ∧ k + 1 ≤ n ∧ Leads k m (b.step e) (on rest ps) (b.add t)

/-- A token that a value begins with, and no list that is not indented. -/
def IsOpening (t : Token) : Prop := t ≠ .blockEntry ∧ t ≠ .key ∧ t ≠ .value ∧ t ≠ .blockEnd

theorem markedTokens_cons (v : Value) : ∃ t ts, markedTokens v = t :: ts ∧ IsOpening t := by
  cases v with
  | boolean | natural | text =>
    rw [markedTokens]
    exact ⟨_, _, rfl, by simp [IsOpening]⟩
  | list vs =>
    cases vs with
    | nil => exact ⟨_, _, rfl, by simp [IsOpening]⟩
    | cons v vs => exact ⟨_, _, markedTokens_list v vs, by simp [IsOpening]⟩
  | map es =>
    cases es with
    | nil => exact ⟨_, _, rfl, by simp [IsOpening]⟩
    | cons e es => exact ⟨_, _, markedTokens_map e es, by simp [IsOpening]⟩

/-- Under a simple key a value begins as it does after a mark, or it is a list that is not indented. -/
theorem keyedTokens_cons (v : Value) : ∃ t ts, keyedTokens v = t :: ts ∧ (t = .blockEntry ∨ IsOpening t) := by
  match v, keyedTokens_eq (v := v) with
  | .list (v :: vs), _ =>
    rw [keyedTokens_list, itemTokens]
    exact ⟨_, _, rfl, .inl rfl⟩
  | .boolean _, heq | .natural _, heq | .text _, heq | .list [], heq | .map _, heq =>
    rw [heq nofun]
    obtain ⟨t, ts, hts, ht⟩ := markedTokens_cons _
    exact ⟨t, ts, hts, .inr ht⟩

section
variable {t : Token} {ts rest : List Token} {ps : List Place} {place : Place}

theorem step_item (hplace : place = .blockItem ∨ place = .flushItem) (ht : IsOpening t) :
    (on (.blockEntry :: t :: ts) (place :: ps)).step = (on (t :: ts) (place :: ps)).node true false (place :: ps) := by
  obtain ⟨hentry, hkey, hvalue, hend⟩ := ht
  rcases hplace with rfl | rfl
  · have hstop : [.blockEntry, .blockEnd].contains t = false := by simp [hentry, hend]
    show (if [.blockEntry, .blockEnd].contains t then _ else _) = _
    rw [hstop, if_neg Bool.false_ne_true]
    rfl
  · have hstop : [.blockEntry, .key, .value, .blockEnd].contains t = false := by simp [hentry, hkey, hvalue, hend]
    show (if [.blockEntry, .key, .value, .blockEnd].contains t then _ else _) = _
    rw [hstop, if_neg Bool.false_ne_true]
    rfl

theorem step_key (s : String) (st : Style) :
    (on (.key :: .scalar s st :: rest) (.blockKey :: ps)).step
      = some (.scalar ⟨s, st, none⟩ none, on rest (.blockValue :: ps)) := rfl

theorem step_value (ht : t = .blockEntry ∨ IsOpening t) :
    (on (.value :: t :: ts) (.blockValue :: ps)).step
      = (on (t :: ts) (.blockValue :: ps)).node true true (.blockKey :: ps) := by
  have hstop : [.key, .value, .blockEnd].contains t = false := by
    rcases ht with rfl | ⟨-, hkey, hvalue, hend⟩
    · rfl
    · simp [hkey, hvalue, hend]
  show (if [.key, .value, .blockEnd].contains t then _ else _) = _
  rw [hstop, if_neg Bool.false_ne_true]
  rfl

/-- A list that is not indented ends where no further item comes. -/
theorem step_flushEnd (ht : t ≠ .blockEntry) :
    (on (t :: rest) (.flushItem :: ps)).step = some (.close, on (t :: rest) ps) := by
  cases t with
  | blockEntry => exact absurd rfl ht
  | _ => rfl

theorem entryTokens_head (es : List (String × Value)) (rest : List Token) :
    ∃ t ts, entryTokens es ++ .blockEnd :: rest = t :: ts ∧ t ≠ .blockEntry := by
  cases es with
  | nil => exact ⟨_, _, rfl, by simp⟩
  | cons e es =>
    rw [entryTokens]
    exact ⟨_, _, rfl, by simp⟩

end

mutual

theorem takes_marked (v : Value) (flush : Bool) (rest : List Token) (ps qs : List Place) (b : Builder Scalar) :
    Takes ((on (markedTokens v ++ rest) qs).node true flush ps) (2 * (markedTokens v).length) b rest ps v.tree := by
  match v with
  | .boolean _ | .natural _ | .text _ =>
    rw [markedTokens, Value.tree]
    exact ⟨_, _, 0, rfl, Nat.le_succ _, .refl _ _⟩
  | .list [] | .map [] =>
    rw [markedTokens, Value.tree]
    exact ⟨_, _, 1, rfl, by decide, .head rfl (.refl _ _)⟩
  | .list (w :: ws) =>
    obtain ⟨k, hk, hleads⟩ := leads_items (w :: ws) .blockItem (.inl rfl) (.blockEnd :: rest) ps b []
    rw [markedTokens_list, List.cons_append, List.cons_append, List.append_assoc, Value.tree]
    refine ⟨.openList false none, on (itemTokens (w :: ws) ++ .blockEnd :: rest) (.blockItem :: ps), k + 1, rfl, ?_, ?_⟩
    · rw [List.length_cons, List.length_append, List.length_singleton]
      omega
    · refine hleads.trans (.head rfl ?_)
      rw [close_inList, List.append_nil, List.reverse_reverse]
      exact .refl _ _
  | .map (e :: es) =>
    obtain ⟨k, hk, hleads⟩ := leads_entries (e :: es) rest ps b []
    rw [markedTokens_map, List.cons_append, List.cons_append, List.append_assoc, Value.tree]
    refine ⟨.openMap false none, on (entryTokens (e :: es) ++ .blockEnd :: rest) (.blockKey :: ps), k + 1, rfl, ?_, ?_⟩
    · rw [List.length_cons, List.length_append, List.length_singleton]
      omega
    · refine hleads.trans (.head rfl ?_)
      rw [close_inMap, List.append_nil, List.reverse_reverse]
      exact .refl _ _

theorem takes_keyed (v : Value) {t : Token} (ht : t ≠ .blockEntry) (rest : List Token) (ps qs : List Place)
    (b : Builder Scalar) :
    Takes ((on (keyedTokens v ++ t :: rest) qs).node true true ps) (2 * (keyedTokens v).length) b
      (t :: rest) ps v.tree := by
  match v, keyedTokens_eq (v := v) with
  | .boolean _, heq | .natural _, heq | .text _, heq | .list [], heq | .map _, heq =>
    rw [heq nofun]
    exact takes_marked _ true _ _ _ _
  | .list (w :: ws), _ =>
    obtain ⟨k, hk, hleads⟩ := leads_items (w :: ws) .flushItem (.inr rfl) (t :: rest) ps b []
    rw [keyedTokens_list, Value.tree]
    refine ⟨.openList false none, on (itemTokens (w :: ws) ++ t :: rest) (.flushItem :: ps), k + 1, ?_, ?_, ?_⟩
    · rw [itemTokens]
      rfl
    · rw [List.length_cons] at hk
      omega
    · refine hleads.trans (.head (step_flushEnd ht) ?_)
      rw [close_inList, List.append_nil, List.reverse_reverse]
      exact .refl _ _

theorem leads_items (vs : List Value) (place : Place) (hplace : place = .blockItem ∨ place = .flushItem)
    (rest : List Token) (ps : List Place) (b : Builder Scalar) (done : List (DataTree Scalar)) :
    ∃ n, n + 2 * vs.length ≤ 2 * (itemTokens vs).length
      ∧ Leads n (on (itemTokens vs ++ rest) (place :: ps)) (inList b done)
        (on rest (place :: ps)) (inList b ((Value.treeItems vs).reverse ++ done)) := by
  match vs with
  | [] => exact ⟨0, Nat.zero_le _, .refl _ _⟩
  | v :: vs =>
    obtain ⟨e, m, k, hstep, hk, hleads⟩ :=
      takes_marked v false (itemTokens vs ++ rest) (place :: ps) (place :: ps) (inList b done)
    obtain ⟨n, hn, hleads'⟩ := leads_items vs place hplace rest ps b (v.tree :: done)
    obtain ⟨t, ts, hts, ht⟩ := markedTokens_cons v
    have hitem : (on (itemTokens (v :: vs) ++ rest) (place :: ps)).step = some (e, m) := by
      rw [hts] at hstep
      rw [itemTokens, hts, ← hstep, List.append_assoc]
      exact step_item hplace ht
    refine ⟨k + 1 + n, ?_, ?_⟩
    · rw [itemTokens, List.length_append, List.length_cons, List.length_cons]
      omega
    · rw [Value.treeItems, List.reverse_cons, List.append_assoc]
      exact (Leads.head hitem hleads).trans hleads'

theorem leads_entries (es : List (String × Value)) (rest : List Token) (ps : List Place) (b : Builder Scalar)
    (done : List (DataTree Scalar × DataTree Scalar)) :
    ∃ n, n ≤ 2 * (entryTokens es).length ∧
      Leads n (on (entryTokens es ++ .blockEnd :: rest) (.blockKey :: ps)) (inMap b done)
        (on (.blockEnd :: rest) (.blockKey :: ps)) (inMap b ((Value.treeEntries es).reverse ++ done)) := by
  match es with
  | [] => exact ⟨0, Nat.zero_le _, .refl _ _⟩
  | (key, v) :: es =>
    obtain ⟨ws, hws⟩ : ∃ ws, ws = if Printer.isSimpleKey key then keyedTokens v else markedTokens v := ⟨_, rfl⟩
    obtain ⟨u, us, hus, hu⟩ := entryTokens_head es rest
    have hnode : Takes ((on (ws ++ u :: us) (.blockValue :: ps)).node true true (.blockKey :: ps)) (2 * ws.length)
        (inEntry b done (.scalar ⟨key, style key, none⟩)) (u :: us) (.blockKey :: ps) v.tree := by
      rw [hws]
      split
      · exact takes_keyed v hu _ _ _ _
      · exact takes_marked v true _ _ _ _
    have hhead : ∃ t ts, ws = t :: ts ∧ (t = .blockEntry ∨ IsOpening t) := by
      rw [hws]
      split
      · exact keyedTokens_cons v
      · obtain ⟨t, ts, hts, ht⟩ := markedTokens_cons v
        exact ⟨t, ts, hts, .inr ht⟩
    obtain ⟨e, m, k, hstep, hk, hleads⟩ := hnode
    obtain ⟨t, ts, rfl, ht⟩ := hhead
    obtain ⟨n, hn, hleads'⟩ := leads_entries es rest ps b ((.scalar ⟨key, style key, none⟩, v.tree) :: done)
    have htokens : entryTokens ((key, v) :: es) ++ .blockEnd :: rest
        = .key :: .scalar key (style key) :: .value :: t :: (ts ++ u :: us) := by
      rw [entryTokens, ← hws, List.append_assoc, hus]
      rfl
    refine ⟨k + 1 + 1 + n, ?_, ?_⟩
    · have hmarks : [Token.key, .scalar key (style key), .value].length = 3 := rfl
      rw [entryTokens, ← hws, List.length_append, List.length_append, hmarks]
      omega
    · rw [htokens, Value.treeEntries, List.reverse_cons, List.append_assoc]
      rw [hus] at hleads'
      exact (Leads.head (step_key _ _) (.head ((step_value ht).trans hstep) hleads)).trans hleads'

end

end Grammar

open Grammar in
/-- A written document is the document of its entries. -/
theorem source_print {entries : List (String × Value)} (h : entries ≠ []) :
    ∃ follows, source (Value.print entries) = ⟨(Value.map entries).tree, [], true, follows⟩ := by
  obtain ⟨e, es, rfl⟩ := List.exists_cons_of_ne_nil h
  obtain ⟨ts, hts⟩ : ∃ ts, markedTokens (.map (e :: es)) ++ [.streamEnd] = .blockMapping :: ts := by
    rw [markedTokens_map]
    exact ⟨_, rfl⟩
  have htokens : tokens (Value.print (e :: es)).toList = .blockMapping :: ts := by
    rw [tokens_print h, ← hts, markedTokens_map, List.append_assoc]
    rfl
  obtain ⟨_, m, k, hstep, hk, hleads⟩ := takes_marked (.map (e :: es)) false [.streamEnd] [] [.node] .start
  rw [hts] at hstep
  have hrun : Leads (k + 1) (on (.blockMapping :: ts) [.node]) .start (on [.streamEnd] []) _ := .head hstep hleads
  have hlength : k + 1 ≤ 2 * (Token.blockMapping :: ts).length := by
    rw [← hts, List.length_append]
    omega
  obtain ⟨fuel, hfuel⟩ : ∃ fuel, 4 * (Token.blockMapping :: ts).length + 8 = k + 1 + (fuel + 1) :=
    ⟨4 * (Token.blockMapping :: ts).length + 8 - (k + 2), by omega⟩
  obtain ⟨hfold, hafter⟩ := Prod.mk.inj (hrun (fuel + 1))
  have hbegin : begin (.blockMapping :: ts) = some (standardHandles, .blockMapping :: ts, false) := rfl
  have hon : (⟨.blockMapping :: ts, [.node], standardHandles, []⟩ : Machine) = on (.blockMapping :: ts) [.node] := rfl
  refine ⟨(Machine.run (k + 1 + (fuel + 1)) (on (.blockMapping :: ts) [.node])).1.length * 100, ?_⟩
  rw [source, htokens]
  dsimp only
  rw [if_neg (by simp), hbegin]
  dsimp only
  rw [Bool.false_and, if_neg Bool.false_ne_true, hfuel]
  rw [hon, Source.ofEvents, hfold, hafter]
  rfl

end DeviceSettings.Yaml

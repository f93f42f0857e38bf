import DeviceSettings.Document.Stamped
import DeviceSettings.Proofs.Json.Pretty
import DeviceSettings.Proofs.Timestamp

/-!
# Stamped documents read back

A table stored at a moment is read back, the moment with it, if its entries are
(`Stamped.read_print`).  A reader that succeeds is stated as an equation with `pure`: it follows no
reference.
-/

namespace DeviceSettings

/-! ## tables from their entries -/

namespace Table
variable {κ α : Type} [Ord κ] [DecidableEq κ] [Std.TransOrd κ] [Std.LawfulEqOrd κ]

theorem get?_foldl_insert (k : κ) {es : List (κ × α)} (acc : Table κ α)
    (h : es.Pairwise fun a b => compare a.1 b.1 = .lt) :
    (es.foldl (fun t e => t.insert e.1 e.2) acc).get? k = (find k es).or (acc.get? k) := by
  induction es generalizing acc with
  | nil => rfl
  | cons e es ih =>
    obtain ⟨he, hes⟩ := List.pairwise_cons.1 h
    rw [List.foldl_cons, ih _ hes, get?_insert, find]
    by_cases hk : k = e.1
    · -- the key comes once, so the entries after it do not have it
      have hnone : find k es = none := by
        cases hf : find k es with
        | none => rfl
        | some a =>
          have hlt := he _ ((find_eq_some_iff hes).1 hf)
          subst hk
          simp at hlt
      rw [if_pos hk, if_pos hk, hnone]
      rfl
    · rw [if_neg hk, if_neg hk]

theorem ofList_entries (t : Table κ α) : ofList t.entries = t := by
  refine ext_get? fun k => ?_
  rw [ofList, get?_foldl_insert k _ t.ascending, get?_empty, Option.or_none]
  rfl

end Table

namespace Document

open Json (Scalar textDialect)

variable {α ρ : Type}

/-- Where a reader of a JSON text stands, some containers deep. -/
def inText (path : NodePath) (levels : Nat) : Cursor Scalar := ⟨textDialect, [], path, levels⟩

theorem locate_inText (path : NodePath) (levels : Nat) (r : Read α) :
    (inText path levels).locate r = r := by
  funext n
  rw [Cursor.locate]
  cases r n <;> rfl

theorem follow_map (path : NodePath) (levels : Nat) (entries : List (DataTree Scalar × DataTree Scalar))
    (whole : Bool) :
    (inText path levels).follow (.map false entries whole) = pure (.map false entries whole) := rfl

theorem enter_inText (path : NodePath) (levels : Nat) :
    (inText path (levels + 1)).enter = pure (inText path levels) := rfl

theorem text_tree (path : NodePath) (levels : Nat) (what s : String) :
    textOf what (inText path levels) (Json.Value.text s).tree = pure s := by
  rw [textOf, locate_inText]
  rfl

theorem boolean_tree (path : NodePath) (levels : Nat) (b : Bool) :
    boolean (inText path levels) (Json.Value.boolean b).tree = pure b := by
  rw [boolean, locate_inText]
  rfl

theorem timestamp_tree (path : NodePath) (levels : Nat) {t : Timestamp} (h : t.IsValid) :
    timestamp (inText path levels) (Json.Value.text t.text).tree = pure t := by
  rw [timestamp, locate_inText, text_tree, pure_bind, Timestamp.parse?_text h]

/-! ## tables -/

theorem foldlM_treeFields {step : ρ → DataTree Scalar × DataTree Scalar → Read ρ}
    (next : ρ → String × α → ρ) {write : α → Json.Value} (es : List (String × α)) (draft : ρ)
    (h : ∀ e ∈ es, ∀ draft, step draft (.scalar (.text (some e.1)), (write e.2).tree)
      = pure (next draft e)) :
    (Json.Value.treeFields (es.map fun (k, a) => (k, write a))).foldlM step draft
      = pure (es.foldl next draft) := by
  induction es generalizing draft with
  | nil => rfl
  | cons e es ih =>
    obtain ⟨k, a⟩ := e
    rw [List.map_cons, Json.Value.treeFields, List.foldlM_cons, h _ List.mem_cons_self, pure_bind,
      List.foldl_cons]
    exact ih _ fun e he => h e (List.mem_cons_of_mem _ he)

/-- A table is read back if each entry is. -/
theorem table_tree {write : α → Json.Value} {r : Reader Scalar α} (t : Table String α)
    (path : NodePath) (levels : Nat)
    (h : ∀ e ∈ t.entries, ∀ path, r (inText path levels) (write e.2).tree = pure e.2) :
    table r (inText path (levels + 1))
        (Json.Value.object (t.entries.map fun (k, a) => (k, write a))).tree = pure t := by
  rw [table, locate_inText, Json.Value.tree, follow_map, pure_bind]
  dsimp only
  rw [enter_inText, pure_bind]
  refine Eq.trans (congrArg (· >>= _)
    (foldlM_treeFields (fun t e => t.insert e.1 e.2) t.entries Table.empty fun e he acc => ?_)) ?_
  · have hvalue := h e he (.key e.1 :: path)
    have hkey : key "a string" (inText path levels) (.scalar (.text (some e.1)))
        = (pure e.1 : Read String) := rfl
    refine Eq.trans (congrArg (· >>= _) hkey) ?_
    rw [pure_bind]
    refine Eq.trans (congrArg (· >>= _) hvalue) ?_
    rw [pure_bind]
  · rw [pure_bind]
    exact congrArg pure (Table.ofList_entries t)

/-! ## records -/

theorem recordEntry_tree {fields : List (Field Scalar ρ)} {f : Field Scalar ρ} {levels : Nat}
    {draft next : ρ} {v : DataTree Scalar} (path : NodePath) (seen : List String)
    (hfind : fields.find? (·.name == f.name) = some f) (hseen : seen.contains f.name = false)
    (hread : f.read draft (inText (.key f.name :: path) levels) v = pure next) :
    recordEntry fields (inText path levels) draft seen (.scalar (.text (some f.name))) v
      = pure (next, f.name :: seen) := by
  have hkey : key "field identifier" (inText path levels) (.scalar (.text (some f.name)))
      = (pure f.name : Read String) := rfl
  rw [recordEntry, hkey, pure_bind]
  dsimp only
  rw [hfind]
  dsimp only
  rw [hseen, if_neg Bool.false_ne_true]
  refine Eq.trans (congrArg (· >>= _) hread) ?_
  rw [pure_bind]

/-- A record of two fields is read back from an object that holds both in their order. -/
theorem record_pair {name : String} {f₁ f₂ : Field Scalar ρ} {draft done : ρ} {v₁ v₂ : Json.Value}
    (mid : ρ) (path : NodePath) (levels : Nat) (hne : f₁.name ≠ f₂.name)
    (h₁ : ∀ path, f₁.read draft (inText path levels) v₁.tree = pure mid)
    (h₂ : ∀ path, f₂.read mid (inText path levels) v₂.tree = pure done) :
    record name [f₁, f₂] draft (inText path (levels + 1))
      (Json.Value.object [(f₁.name, v₁), (f₂.name, v₂)]).tree = pure done := by
  have hfind₁ : [f₁, f₂].find? (·.name == f₁.name) = some f₁ := by simp
  have hfind₂ : [f₁, f₂].find? (·.name == f₂.name) = some f₂ := by simp [hne]
  have hentry₁ := recordEntry_tree path [] hfind₁ rfl (h₁ _)
  have hentry₂ := recordEntry_tree path [f₁.name] hfind₂ (by simp [hne.symm]) (h₂ _)
  rw [record, locate_inText, Json.Value.tree, follow_map, pure_bind]
  dsimp only
  rw [enter_inText, pure_bind, Json.Value.treeFields, Json.Value.treeFields, Json.Value.treeFields]
  rw [List.foldlM_cons]
  dsimp only
  rw [hentry₁, pure_bind, List.foldlM_cons]
  dsimp only
  rw [hentry₂, pure_bind, List.foldlM_nil, pure_bind]
  simp

/-! ## stamped tables -/

namespace Stamped

variable {form : StampedForm} {write : α → Json.Value} {r : Reader Scalar α}

theorem reader_tree {s : Stamped α} (hform : form.moment ≠ form.table) (hm : s.moment.IsValid)
    (path : NodePath) (levels : Nat)
    (h : ∀ e ∈ s.table.entries, ∀ path, r (inText path levels) (write e.2).tree = pure e.2) :
    reader form r (inText path (levels + 2)) (s.json form write).tree = pure s := by
  refine record_pair ⟨s.moment, .empty⟩ path (levels + 1) hform (fun path => ?_) fun path => ?_
  · show (_ <$> timestamp _ _) = _
    rw [timestamp_tree path _ hm, map_pure]
  · show (_ <$> Document.table r _ _) = _
    rw [table_tree s.table path levels h, map_pure]

theorem plainFields_map {es : List (String × α)} (h : ∀ e ∈ es, (write e.2).isPlain = true) :
    Json.Value.plainFields (es.map fun (k, a) => (k, write a)) = true := by
  induction es with
  | nil => rfl
  | cons e es ih =>
    rw [List.map_cons, Json.Value.plainFields, h e List.mem_cons_self, Bool.true_and]
    exact ih fun e he => h e (List.mem_cons_of_mem _ he)

/-- A stamped table is read back from its document. -/
theorem read_print {s : Stamped α} (hform : form.moment ≠ form.table) (hm : s.moment.IsValid)
    (hplain : ∀ e ∈ s.table.entries, (write e.2).isPlain = true)
    (h : ∀ e ∈ s.table.entries, ∀ path, r (inText path 125) (write e.2).tree = pure e.2) :
    Json.read (reader form r) (s.print form write) = .ok s := by
  have hp : (s.json form write).isPlain = true := by
    rw [json, Json.Value.isPlain, Json.Value.plainFields, Json.Value.plainFields,
      Json.Value.plainFields, Json.Value.isPlain, Json.Value.isPlain, plainFields_map hplain]
    rfl
  obtain ⟨follows, hsource⟩ := Json.source_pretty hp
  have hread := reader_tree hform hm [] 125 h
  rw [Json.read, print, hsource, Source.read]
  dsimp only
  rw [show (⟨textDialect, [], [], textDialect.levels⟩ : Cursor Scalar) = inText [] 127 from rfl, hread]
  rfl

end Stamped

end Document

end DeviceSettings

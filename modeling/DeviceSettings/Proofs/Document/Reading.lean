import DeviceSettings.Document.Reader
import DeviceSettings.Proofs.Document.Stamped
import Mathlib.Data.List.Forall2

/-!
# Trees that are read

`Reads d n r t a`: a reader `r` gets `a` from the tree `t`, wherever it stands and whatever else the document holds, if
`n` more containers may be entered there.  There is a lemma for each shape; a record is read from the entries that
fill its fields in their order (`Reads.record`), with those left out that it may lack.
-/

namespace DeviceSettings.Document

variable {σ α ρ : Type} {d : Dialect σ} {n : Nat}

/-- A reader gets a value from a tree. -/
def Reads (d : Dialect σ) (n : Nat) (r : Reader σ α) (t : DataTree σ) (a : α) : Prop :=
  ∀ c : Cursor σ, c.dialect = d → n ≤ c.levels → r c t = pure a

namespace Cursor
variable (c : Cursor σ)

theorem locate_pure (a : α) : c.locate (pure a) = pure a := rfl

theorem follow_scalar (s : σ) : c.follow (.scalar s) = pure (.scalar s) := rfl

theorem follow_list (tagged : Bool) (items : List (DataTree σ)) (whole : Bool) :
    c.follow (.list tagged items whole) = pure (.list tagged items whole) := rfl

theorem follow_map (tagged : Bool) (entries : List (DataTree σ × DataTree σ)) (whole : Bool) :
    c.follow (.map tagged entries whole) = pure (.map tagged entries whole) := rfl

theorem enter_succ {c : Cursor σ} (h : n + 1 ≤ c.levels) :
    ∃ inner : Cursor σ, c.enter = pure inner ∧ inner.dialect = c.dialect ∧ n ≤ inner.levels := by
  obtain ⟨dialect, marked, path, levels⟩ := c
  cases levels with
  | zero => exact absurd h (Nat.not_succ_le_zero n)
  | succ m => exact ⟨⟨dialect, marked, path, m⟩, rfl, rfl, Nat.le_of_succ_le_succ h⟩

end Cursor

theorem lift_ok (a : α) : lift (.ok a) = pure a := rfl

theorem textOf_scalar {c : Cursor σ} {s : σ} {text : String} (h : c.dialect.text? s = .ok (some text))
    (what : String) : textOf what c (.scalar s) = pure text := by
  rw [textOf, c.follow_scalar, pure_bind]
  dsimp only
  rw [h, lift_ok, pure_bind, c.locate_pure]

theorem key_scalar {c : Cursor σ} {s : σ} {name : String} (h : c.dialect.text? s = .ok (some name)) (what : String) :
    key what c (.scalar s) = pure name := by
  unfold key
  dsimp only
  rw [h, textOf_scalar h, ite_self]

namespace Reads

/-! ## scalars -/

theorem map {β : Type} {r : Reader σ α} {t : DataTree σ} {a : α} (h : Reads d n r t a) (f : α → β) :
    Reads d n (fun c t => f <$> r c t) t (f a) := by
  intro c hc hn
  dsimp only
  rw [h c hc hn, map_pure]

theorem textOf {s : σ} {text : String} (h : d.text? s = .ok (some text)) (what : String) :
    Reads d n (textOf what) (.scalar s) text := by
  rintro c rfl -
  exact textOf_scalar h what

theorem boolean {s : σ} {b : Bool} (h : d.boolean? s = some b) : Reads d n boolean (.scalar s) b := by
  rintro c rfl -
  rw [Document.boolean, c.follow_scalar, pure_bind]
  dsimp only
  rw [h, c.locate_pure]

theorem natural {s : σ} {k bound : Nat} (h : d.integer? s = .ok (some k)) (hk : k < bound) (what : String) :
    Reads d n (natural what bound) (.scalar s) k := by
  rintro c rfl -
  rw [Document.natural, c.follow_scalar, pure_bind]
  dsimp only
  rw [h, lift_ok, pure_bind]
  dsimp only
  rw [if_pos (by simp [hk]), c.locate_pure, Int.toNat_natCast]

theorem optional {r : Reader σ α} {t : DataTree σ} {a : α} (h : Reads d n r t a) (hcut : t.isWhole = true)
    (href : ∀ m, t ≠ .reference m) (hnull : ∀ s, t = .scalar s → d.isNull s = .ok false) :
    Reads d n (optional r) t (some a) := by
  rintro c rfl hn
  have hread : some <$> r c t = pure (some a) := by rw [h c rfl hn, map_pure]
  cases t with
  | scalar s =>
    rw [Document.optional, c.follow_scalar, pure_bind]
    dsimp only
    rw [hnull s rfl, lift_ok, pure_bind, if_neg Bool.false_ne_true, hread]
  | list => rw [Document.optional, c.follow_list, pure_bind]; exact hread
  | map => rw [Document.optional, c.follow_map, pure_bind]; exact hread
  | reference m => exact absurd rfl (href m)
  | cut => simp [DataTree.isWhole] at hcut

theorem optional_scalar {r : Reader σ α} {s : σ} {a : α} (h : Reads d n r (.scalar s) a)
    (hnull : d.isNull s = .ok false) : Reads d n (Document.optional r) (.scalar s) (some a) :=
  h.optional rfl nofun fun _ hs => DataTree.scalar.inj hs ▸ hnull

theorem optional_null {r : Reader σ α} {s : σ} (hnull : d.isNull s = .ok true) :
    Reads d n (Document.optional r) (.scalar s) none := by
  rintro c rfl -
  rw [Document.optional, c.follow_scalar, pure_bind]
  dsimp only
  rw [hnull, lift_ok, pure_bind, if_pos rfl]

theorem variant {names : List String} {s : σ} {name : String} (h : d.text? s = .ok (some name))
    (hmem : name ∈ names) : Reads d n (variant names) (.scalar s) name := by
  rintro c rfl -
  rw [Document.variant, textOf_scalar h, pure_bind, if_pos (by simpa using hmem), c.locate_pure]

theorem choice {names : List String} {s : σ} {name : String} (h : d.text? s = .ok (some name))
    (hmem : name ∈ names) : Reads d n (choice names) (.scalar s) name := by
  rintro c rfl hn
  rw [Document.choice, h, lift_ok, pure_bind]
  exact variant h hmem c rfl hn

/-! ## nodes of any kind -/

theorem content {s : σ} {f : Found} (h : ∀ c : Cursor σ, c.dialect = d → anyScalar c s = pure f) :
    Reads d n content (.scalar s) (.scalar f) := by
  intro c hc _
  have hwith (deeper : Option (Reader σ Content)) : contentWith deeper c (.scalar s) = pure (.scalar f) := by
    rw [contentWith, c.follow_scalar, pure_bind]
    dsimp only
    rw [h c hc, map_pure, c.locate_pure]
  rw [Document.content]
  cases c.levels with
  | zero => exact hwith none
  | succ n => exact hwith (some (contentWithin n))

theorem content_text {s : σ} {text : String} (h : d.any s = .ok (.text text)) :
    Reads d n Document.content (.scalar s) (.scalar (.text text)) :=
  content fun c hc => by rw [anyScalar, hc, h, lift_ok, pure_bind]

theorem content_boolean {s : σ} {b : Bool} (h : d.any s = .ok (.boolean b)) :
    Reads d n Document.content (.scalar s) (.scalar (.boolean b)) :=
  content fun c hc => by rw [anyScalar, hc, h, lift_ok, pure_bind]

/-- An entry with another text for its key than `tag`, and what is kept of it. -/
def IsBeside (d : Dialect σ) (n : Nat) (tag : String) (e : DataTree σ × DataTree σ) (kept : Content × Content) : Prop :=
  ∃ name, name ≠ tag ∧ kept.1 = .scalar (.text name) ∧ Reads d n Document.content e.1 kept.1
    ∧ Reads d n Document.content e.2 kept.2

/-- A form is told by its first entry, and the others are kept. -/
theorem tagged {k v : σ} {tag name : String} {names : List String} {es : List (DataTree σ × DataTree σ)}
    {kept : List (Content × Content)} (hk : d.any k = .ok (.text tag)) (hv : d.text? v = .ok (some name))
    (hmem : name ∈ names) (hes : List.Forall₂ (IsBeside d n tag) es kept) (type : String) :
    Reads d (n + 1) (tagged type tag names) (.map false ((.scalar k, .scalar v) :: es) true) (name, .map kept) := by
  rintro c rfl hn
  obtain ⟨inner, henter, hdialect, hlevels⟩ := c.enter_succ hn
  have hfirst : taggedEntry tag names inner none [] (.scalar k) (.scalar v) = pure (some name, []) := by
    have hvariant : Document.variant names (inner.child (inner.keyStep (.scalar k))) (.scalar v) = pure name :=
      variant hv hmem _ hdialect hlevels
    rw [taggedEntry, content_text hk inner hdialect hlevels, pure_bind]
    dsimp only
    rw [if_pos rfl]
    show (Document.variant names _ _ >>= fun name => pure (some name, [])) = _
    rw [hvariant, pure_bind]
  have hrest (done : List (Content × Content)) :
      es.foldlM (fun r e => taggedEntry tag names inner r.1 r.2 e.1 e.2) (some name, done)
        = (pure (some name, done ++ kept) : Read _) := by
    induction hes generalizing done with
    | nil => rw [List.append_nil]; rfl
    | @cons e kept es kepts he _ ih =>
      obtain ⟨k, v⟩ := e
      obtain ⟨key, value⟩ := kept
      obtain ⟨text, hne, rfl, hkey, hvalue⟩ := he
      have hentry : taggedEntry tag names inner (some name) done k v
          = pure (some name, done ++ [(.scalar (.text text), value)]) := by
        have hvalue' : Document.content (inner.child (inner.keyStep k)) v = pure value := hvalue _ hdialect hlevels
        rw [taggedEntry, hkey inner hdialect hlevels, pure_bind]
        dsimp only
        rw [if_neg hne, hvalue', pure_bind]
      rw [List.foldlM_cons]
      dsimp only
      rw [hentry, pure_bind, ih, List.append_assoc]
      rfl
  rw [Document.tagged, c.follow_map, pure_bind]
  dsimp only
  rw [henter, pure_bind, List.foldlM_cons]
  dsimp only
  rw [hfirst, pure_bind, hrest, pure_bind]
  rfl

/-! ## lists and tables -/

theorem list {β : Type} {r : Reader σ α} {write : β → DataTree σ} {f : β → α} {xs : List β}
    (h : ∀ x ∈ xs, Reads d n r (write x) (f x)) :
    Reads d (n + 1) (list r) (.list false (xs.map write) true) (xs.map f) := by
  rintro c rfl hn
  obtain ⟨inner, henter, hdialect, hlevels⟩ := c.enter_succ hn
  have hitems (i : Nat) : ((xs.map write).zipIdx i).mapM (fun e => r (inner.child (.index e.2)) e.1)
      = pure (xs.map f) := by
    induction xs generalizing i with
    | nil => rfl
    | cons x xs ih =>
      have hx : r (inner.child (.index i)) (write x) = pure (f x) := h x List.mem_cons_self _ hdialect hlevels
      rw [List.map_cons, List.zipIdx_cons, List.mapM_cons]
      dsimp only
      rw [hx, pure_bind, ih (fun y hy => h y (List.mem_cons_of_mem _ hy)), pure_bind, List.map_cons]
  rw [Document.list, c.follow_list, pure_bind]
  dsimp only
  rw [henter, pure_bind, hitems 0, pure_bind, if_pos rfl, c.locate_pure]

/-- What the entries of a map add to a table. -/
theorem foldlM_insert {c : Cursor σ} {asKey : String → σ} {write : α → DataTree σ}
    (read : DataTree σ → DataTree σ → Read α) (hkey : ∀ k, c.dialect.text? (asKey k) = .ok (some k))
    {es : List (String × α)} (h : ∀ e ∈ es, ∀ k, read k (write e.2) = pure e.2) (acc : Table String α) :
    (es.map fun (k, a) => (DataTree.scalar (asKey k), write a)).foldlM (fun (acc : Table String α) (k, v) => do
      let name ← key "a string" c k
      let value ← read k v
      pure (acc.insert name value)) acc
      = (pure (es.foldl (fun t e => t.insert e.1 e.2) acc) : Read _) := by
  induction es generalizing acc with
  | nil => rfl
  | cons e es ih =>
    obtain ⟨k, a⟩ := e
    rw [List.map_cons, List.foldlM_cons]
    dsimp only
    rw [key_scalar (hkey k), pure_bind, h (k, a) List.mem_cons_self, pure_bind, pure_bind]
    exact ih (fun e he => h e (List.mem_cons_of_mem _ he)) _

/-- A table is read from its entries. -/
theorem table {r : Reader σ α} {asKey : String → σ} {write : α → DataTree σ} (t : Table String α)
    (hkey : ∀ k, d.text? (asKey k) = .ok (some k)) (h : ∀ e ∈ t.entries, Reads d n r (write e.2) e.2) :
    Reads d (n + 1) (table r)
      (.map false (t.entries.map fun (k, a) => (.scalar (asKey k), write a)) true) t := by
  rintro c rfl hn
  obtain ⟨inner, henter, hdialect, hlevels⟩ := c.enter_succ hn
  have hentries := foldlM_insert (fun k v => r (inner.child (c.keyStep k)) v) (hdialect ▸ hkey)
    (fun e he k => h e he _ hdialect hlevels) Table.empty
  rw [Document.table, c.follow_map, pure_bind]
  dsimp only
  rw [henter, pure_bind, hentries, pure_bind, if_pos rfl, c.locate_pure]
  exact congrArg pure (Table.ofList_entries t)

end Reads

/-! ## records -/

/-- Entries that fill the fields of a record in their order, some of them left out: they turn the record `r` that holds
the defaults into `last`. -/
inductive Fills (d : Dialect σ) (n : Nat) : List (Field σ ρ) → ρ → List (DataTree σ × DataTree σ) → ρ → Prop
  | done {r : ρ} : Fills d n [] r [] r
  | present {f : Field σ ρ} {fs : List (Field σ ρ)} {r next last : ρ} {k : σ} {v : DataTree σ}
      {es : List (DataTree σ × DataTree σ)} (key : d.text? k = .ok (some f.name))
      (read : Reads d n (f.read r) v next) (rest : Fills d n fs next es last) : Fills d n (f :: fs) r ((.scalar k, v) :: es) last
  | absent {f : Field σ ρ} {fs : List (Field σ ρ)} {r last : ρ} {es : List (DataTree σ × DataTree σ)}
      (dispensable : f.required = false) (rest : Fills d n fs r es last) :
      Fills d n (f :: fs) r es last

namespace Fills

variable {fs : List (Field σ ρ)} {r last : ρ} {es : List (DataTree σ × DataTree σ)}

/-- A field that is filled only if there is something to say. -/
theorem sparse {f : Field σ ρ} {o : Option α} {k : σ} {write : α → DataTree σ} (next : Option α → ρ)
    (dispensable : f.required = false) (hnone : next none = r) (key : d.text? k = .ok (some f.name))
    (read : ∀ a, o = some a → Reads d n (f.read r) (write a) (next (some a))) (rest : Fills d n fs (next o) es last) :
    Fills d n (f :: fs) r (o.toList.map (fun a => (.scalar k, write a)) ++ es) last := by
  cases o with
  | none => exact .absent dispensable (hnone ▸ rest)
  | some a => exact .present key (read a rfl) rest

theorem find?_name {all : List (Field σ ρ)} (hnodup : (all.map Field.name).Nodup) {f : Field σ ρ} (hf : f ∈ all) :
    all.find? (·.name == f.name) = some f := by
  induction all with
  | nil => cases hf
  | cons g all ih =>
    rw [List.map_cons, List.nodup_cons] at hnodup
    rcases List.mem_cons.mp hf with rfl | hf
    · exact List.find?_cons_of_pos (beq_self_eq_true _)
    · have hne : g.name ≠ f.name := fun heq => hnodup.1 (heq ▸ List.mem_map_of_mem hf)
      rw [List.find?_cons_of_neg (by simpa using hne), ih hnodup.2 hf]

/-- What the entries of a record leave: the record, and fields seen among which are all that are required. -/
theorem foldlM_recordEntry (h : Fills d n fs r es last) {all : List (Field σ ρ)}
    (hnodup : (all.map Field.name).Nodup) (hsub : ∀ f ∈ fs, f ∈ all) (hfs : (fs.map Field.name).Nodup) {c : Cursor σ}
    (hc : c.dialect = d) (hn : n ≤ c.levels) {seen : List String} (hseen : ∀ f ∈ fs, f.name ∉ seen) :
    ∃ seen', es.foldlM (fun (draft, seen) (k, v) => recordEntry all c draft seen k v) (r, seen)
        = (pure (last, seen') : Read _)
      ∧ (∀ name ∈ seen, name ∈ seen') ∧ ∀ f ∈ fs, f.required = true → f.name ∈ seen' := by
  induction h generalizing seen with
  | done => exact ⟨seen, rfl, fun _ h => h, nofun⟩
  | @present f fs r next last k v es hkey hread _ ih =>
    rw [List.map_cons, List.nodup_cons] at hfs
    have hlater : ∀ g ∈ fs, g.name ∉ f.name :: seen := by
      intro g hg hmem
      rcases List.mem_cons.mp hmem with heq | hmem
      · exact hfs.1 (heq ▸ List.mem_map_of_mem hg)
      · exact hseen g (List.mem_cons_of_mem _ hg) hmem
    obtain ⟨seen', hfold, hkeep, hall⟩ := ih (fun g hg => hsub g (List.mem_cons_of_mem _ hg)) hfs.2 hlater
    have hentry : recordEntry all c r seen (.scalar k) v = pure (next, f.name :: seen) := by
      have hnew : seen.contains f.name = false := by simpa using hseen f List.mem_cons_self
      rw [recordEntry, key_scalar (hc ▸ hkey), pure_bind]
      dsimp only
      rw [find?_name hnodup (hsub f List.mem_cons_self)]
      dsimp only
      rw [hnew, if_neg Bool.false_ne_true]
      show f.read r _ v >>= _ = _
      rw [hread (c.child _) hc hn, pure_bind]
    refine ⟨seen', ?_, fun name hname => hkeep name (List.mem_cons_of_mem _ hname), fun g hg hreq => ?_⟩
    · rw [List.foldlM_cons]
      dsimp only
      rw [hentry, pure_bind, hfold]
    · rcases List.mem_cons.mp hg with rfl | hg
      · exact hkeep _ List.mem_cons_self
      · exact hall g hg hreq
  | @absent f fs r last es hdispensable _ ih =>
    obtain ⟨seen', hfold, hkeep, hall⟩ := ih (fun g hg => hsub g (List.mem_cons_of_mem _ hg))
      (List.nodup_cons.mp hfs).2 fun g hg => hseen g (List.mem_cons_of_mem _ hg)
    refine ⟨seen', hfold, hkeep, fun g hg hreq => ?_⟩
    rcases List.mem_cons.mp hg with rfl | hg
    · rw [hdispensable] at hreq
      cases hreq
    · exact hall g hg hreq

end Fills

/-- A record is read from the entries that fill it. -/
theorem Reads.record {fs : List (Field σ ρ)} {draft last : ρ} {es : List (DataTree σ × DataTree σ)}
    (h : Fills d n fs draft es last) (hnodup : (fs.map Field.name).Nodup) (name : String) :
    Reads d (n + 1) (record name fs draft) (.map false es true) last := by
  rintro c hc hn
  obtain ⟨inner, henter, hdialect, hlevels⟩ := c.enter_succ hn
  have hnew : ∀ f ∈ fs, f.name ∉ ([] : List String) := nofun
  obtain ⟨seen, hfold, -, hall⟩ := h.foldlM_recordEntry hnodup (fun _ hf => hf) hnodup (hdialect.trans hc) hlevels hnew
  have hcomplete : fs.find? (fun f => f.required && !seen.contains f.name) = none := by
    rw [List.find?_eq_none]
    intro f hf hmissing
    rw [Bool.and_eq_true, Bool.not_eq_true', List.contains_eq_mem, decide_eq_false_iff_not] at hmissing
    exact hmissing.2 (hall f hf hmissing.1)
  rw [Document.record, c.follow_map, pure_bind]
  dsimp only
  rw [henter, pure_bind, hfold, pure_bind]
  dsimp only
  rw [if_pos rfl, hcomplete, c.locate_pure]

/-- A document is read if its tree is. -/
theorem Source.read_of_reads {r : Reader σ α} {t : DataTree σ} {a : α} (h : Reads d n r t a) (hn : n ≤ d.levels)
    (marked : List (Nat × DataTree σ)) (follows : Nat) :
    (⟨t, marked, true, follows⟩ : Source σ).read d r = .ok a := by
  rw [Source.read]
  dsimp only
  rw [h ⟨d, marked, [], d.levels⟩ rfl hn]
  rfl

end DeviceSettings.Document

import DeviceSettings.Document.Reader

/-!
# What readers give

A property of everything that a reader gives, whatever it reads (`Yields`).  A record has what its defaults have if
every field keeps it (`Yields.record`).
-/

namespace DeviceSettings.Document

variable {σ α β ρ : Type} {P : α → Prop} {Q : β → Prop} {R : ρ → Prop}

/-! ## steps of reading -/

/-- If reading succeeds, its result has a property. -/
def Gives (r : Read α) (P : α → Prop) : Prop := ∀ n a n', r n = .ok (a, n') → P a

namespace Gives

theorem pure {a : α} (h : P a) : Gives (pure a) P := by
  rintro n b n' ⟨⟩
  exact h

theorem fail (m : Mismatch) : Gives (fail m) P := nofun

theorem bind {x : Read β} {f : β → Read α} (hx : Gives x Q) (hf : ∀ b, Q b → Gives (f b) P) : Gives (x >>= f) P := by
  intro n a n' h
  change (x n >>= fun bm => f bm.1 bm.2) = _ at h
  cases hb : x n with
  | ok bm =>
    rw [hb] at h
    exact hf bm.1 (hx n bm.1 bm.2 hb) bm.2 a n' h
  | error p =>
    rw [hb] at h
    cases h

theorem after {x : Read β} {f : β → Read α} (hf : ∀ b, Gives (f b) P) : Gives (x >>= f) P :=
  bind (Q := fun _ => True) (fun _ _ _ _ => trivial) fun b _ => hf b

theorem map {x : Read β} {f : β → α} (hx : Gives x Q) (hf : ∀ b, Q b → P (f b)) : Gives (f <$> x) P := by
  rw [map_eq_pure_bind]
  exact hx.bind fun b hb => pure (hf b hb)

theorem locate {c : Cursor σ} {r : Read α} (h : Gives r P) : Gives (c.locate r) P := by
  intro n a n' hr
  rw [Cursor.locate] at hr
  split at hr
  next ok hok =>
    cases hr
    exact h n a n' hok
  next => cases hr

theorem foldlM {f : β → α → Read β} (hf : ∀ b, Q b → ∀ x, Gives (f b x) Q) {b : β} (hb : Q b) (xs : List α) :
    Gives (xs.foldlM f b) Q := by
  induction xs generalizing b with
  | nil => exact pure hb
  | cons x xs ih =>
    rw [List.foldlM_cons]
    exact (hf b hb x).bind fun b hb => ih hb

end Gives

/-! ## readers -/

/-- Whatever a reader gives has a property. -/
def Yields (r : Reader σ α) (P : α → Prop) : Prop := ∀ c t, Gives (r c t) P

/-- A field keeps a property of the record that it is read into. -/
def Field.Keeps (f : Field σ ρ) (R : ρ → Prop) : Prop := ∀ draft, R draft → Yields (f.read draft) R

namespace Yields

theorem anything (r : Reader σ α) : Yields r fun _ => True := fun _ _ _ _ _ _ => trivial

theorem natural (what : String) (bound : Nat) : Yields (natural what bound : Reader σ Nat) (· < bound) := by
  intro c t
  refine Gives.locate (.after fun t => ?_)
  cases t with
  | scalar s =>
    refine .after fun n => ?_
    cases n with
    | none => exact .fail _
    | some n =>
      dsimp only
      split
      next h =>
        rw [Bool.and_eq_true, decide_eq_true_eq, decide_eq_true_eq] at h
        exact .pure (by omega)
      next => exact .fail _
  | _ => exact .fail _

theorem recordEntry {fields : List (Field σ ρ)} (h : ∀ f ∈ fields, f.Keeps R) (c : Cursor σ) {draft : ρ}
    (hdraft : R draft) (seen : List String) (k v : DataTree σ) :
    Gives (recordEntry fields c draft seen k v) fun r => R r.1 := by
  refine .after fun name => ?_
  dsimp only
  split
  next f hf =>
    have hread : Gives (f.read draft (c.child (c.keyStep k)) v >>= fun draft => Pure.pure (draft, name :: seen))
        fun r => R r.1 :=
      (h f (List.mem_of_find?_eq_some hf) draft hdraft _ _).bind fun _ hnext => .pure hnext
    split
    · exact .after fun _ => hread
    · exact hread
  next => exact .after fun _ => .pure hdraft

theorem recordItems {fields : List (Field σ ρ)} (h : ∀ f ∈ fields, f.Keeps R) (what : String) (c : Cursor σ)
    (whole : Bool) (i : Nat) {draft : ρ} (hdraft : R draft) (items : List (DataTree σ)) :
    Gives (recordItems what c whole i draft fields items) R := by
  induction fields generalizing i draft items with
  | nil =>
    rw [Document.recordItems]
    split
    · exact .fail _
    split
    · exact .pure hdraft
    · exact .fail _
  | cons f fields ih =>
    have hlater := fun g hg => h g (List.mem_cons_of_mem _ hg)
    cases items with
    | nil =>
      rw [Document.recordItems]
      split
      · exact .fail _
      split
      · exact .fail _
      · exact ih hlater _ hdraft []
    | cons item items =>
      rw [Document.recordItems]
      exact (h f List.mem_cons_self draft hdraft _ _).bind fun _ hnext => ih hlater _ hnext items

/-- A record has what its defaults have if every field keeps it. -/
theorem record {fields : List (Field σ ρ)} {draft : ρ} (h : ∀ f ∈ fields, f.Keeps R) (hdraft : R draft)
    (name : String) :
    Yields (record name fields draft) R := by
  intro c t
  refine Gives.locate (.after fun t => ?_)
  cases t with
  | map tagged entries whole =>
    refine .after fun inner => ?_
    refine Gives.bind (Q := fun r : ρ × List String => R r.1) ?_ fun r hr => ?_
    · refine Gives.foldlM (Q := fun r : ρ × List String => R r.1) (fun r hr e => ?_) hdraft entries
      exact recordEntry h inner hr r.2 e.1 e.2
    · dsimp only
      split
      · split
        · exact .fail _
        · exact .pure hr
      · exact .fail _
  | list tagged items whole => exact .after fun inner => recordItems h _ inner whole 0 hdraft items
  | scalar s =>
    dsimp only
    split
    · split
      · exact .fail _
      · exact .pure hdraft
    · exact .fail _
  | reference m => exact .fail _
  | cut => exact .fail _

end Yields

section
variable {name : String} {r : Reader σ α} {set : ρ → α → ρ}

theorem Field.keeps_needed (hr : Yields r P) (hset : ∀ draft a, R draft → P a → R (set draft a)) :
    (Field.needed name r set).Keeps R :=
  fun draft hdraft c t => (hr c t).map fun a ha => hset draft a hdraft ha

theorem Field.keeps_defaulted (hr : Yields r P) (hset : ∀ draft a, R draft → P a → R (set draft a)) :
    (Field.defaulted name r set).Keeps R :=
  fun draft hdraft c t => (hr c t).map fun a ha => hset draft a hdraft ha

end

theorem Yields.read {r : Reader σ α} (h : Yields r P) {s : Source σ} {d : Dialect σ} {a : α}
    (hread : s.read d r = .ok a) :
    P a := by
  rw [Source.read] at hread
  split at hread
  next b n' hb =>
    split at hread
    · cases hread
      exact h _ _ _ _ _ hb
    · cases hread
  next => cases hread

end DeviceSettings.Document

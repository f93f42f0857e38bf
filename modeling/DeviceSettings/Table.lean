/-!
# Tables

Finite maps kept as a list of entries in strictly ascending key order, so that two tables with the
same entries are equal and listing a table is reading it from the front.

* `Table.get?_insert`, `Table.get?_erase`   what the two changes do to every key;
* `Table.ext_get?`                          a table is determined by its look-ups.
-/

set_option linter.unusedSectionVars false

namespace DeviceSettings

/-- Entries in strictly ascending key order. -/
structure Table (κ : Type) [Ord κ] (α : Type) where
  entries : List (κ × α)
  ascending : entries.Pairwise fun a b => compare a.1 b.1 = .lt

namespace Table
variable {κ α β : Type} [Ord κ] [DecidableEq κ]

instance [DecidableEq α] : DecidableEq (Table κ α) := fun s t =>
  if h : s.entries = t.entries then
    isTrue (by cases s; cases t; subst h; rfl)
  else isFalse fun e => h (e ▸ rfl)

def empty : Table κ α := ⟨[], .nil⟩

instance : Inhabited (Table κ α) := ⟨empty⟩
instance : EmptyCollection (Table κ α) := ⟨empty⟩

def keys (t : Table κ α) : List κ := t.entries.map (·.1)
def values (t : Table κ α) : List α := t.entries.map (·.2)
def size (t : Table κ α) : Nat := t.entries.length
def isEmpty (t : Table κ α) : Bool := t.entries.isEmpty

/-! ## looking up -/

def find (k : κ) : List (κ × α) → Option α
  | [] => none
  | (k', a) :: rest => if k = k' then some a else find k rest

def get? (t : Table κ α) (k : κ) : Option α := find k t.entries

def contains (t : Table κ α) (k : κ) : Bool := (t.get? k).isSome

theorem get?_empty (k : κ) : (empty : Table κ α).get? k = none := rfl

/-! ## changing -/

/-- the entry of a key put in its place among ascending entries -/
def place (k : κ) (a : α) : List (κ × α) → List (κ × α)
  | [] => [(k, a)]
  | (k', b) :: rest =>
    match compare k k' with
    | .lt => (k, a) :: (k', b) :: rest
    | .eq => (k, a) :: rest
    | .gt => (k', b) :: place k a rest

theorem mem_place {k : κ} {a : α} {es : List (κ × α)} {e : κ × α} (h : e ∈ place k a es) :
    e = (k, a) ∨ e ∈ es := by
  induction es with
  | nil => simpa [place] using h
  | cons f es ih =>
    rw [place] at h
    split at h <;> simp only [List.mem_cons] at h ⊢ <;> grind

variable [Std.TransOrd κ] [Std.LawfulEqOrd κ]

theorem ascending_place (k : κ) (a : α) {es : List (κ × α)}
    (h : es.Pairwise fun a b => compare a.1 b.1 = .lt) :
    (place k a es).Pairwise fun a b => compare a.1 b.1 = .lt := by
  induction es with
  | nil => simp [place]
  | cons f es ih =>
    obtain ⟨hf, hes⟩ := List.pairwise_cons.1 h
    rw [place]
    split
    · rename_i hlt
      refine List.pairwise_cons.2 ⟨fun g hg => ?_, h⟩
      rcases List.mem_cons.1 hg with rfl | hg
      · exact hlt
      · exact Std.TransCmp.lt_trans hlt (hf g hg)
    · rename_i heq
      have : k = f.1 := Std.LawfulEqCmp.eq_of_compare heq
      subst this
      exact List.pairwise_cons.2 ⟨hf, hes⟩
    · rename_i hgt
      refine List.pairwise_cons.2 ⟨fun g hg => ?_, ih hes⟩
      rcases mem_place hg with rfl | hg
      · exact Std.OrientedCmp.lt_of_gt hgt
      · exact hf g hg

/-- The table with `k` standing for `a`. -/
def insert (t : Table κ α) (k : κ) (a : α) : Table κ α :=
  ⟨place k a t.entries, ascending_place k a t.ascending⟩

/-- The table without `k`. -/
def erase (t : Table κ α) (k : κ) : Table κ α :=
  ⟨t.entries.filter fun e => e.1 ≠ k, t.ascending.filter _⟩

/-- The table with only the entries that pass a test. -/
def filter (t : Table κ α) (p : κ → α → Bool) : Table κ α :=
  ⟨t.entries.filter fun e => p e.1 e.2, t.ascending.filter _⟩

/-- Later entries of a list win over earlier ones with the same key. -/
def ofList (es : List (κ × α)) : Table κ α :=
  es.foldl (fun t e => t.insert e.1 e.2) empty

theorem find_place (k k' : κ) (a : α) {es : List (κ × α)}
    (h : es.Pairwise fun a b => compare a.1 b.1 = .lt) :
    find k' (place k a es) = if k' = k then some a else find k' es := by
  induction es with
  | nil => simp [place, find]
  | cons f es ih =>
    obtain ⟨hf, hes⟩ := List.pairwise_cons.1 h
    rw [place]
    split
    · simp [find]
    · rename_i heq
      have : k = f.1 := Std.LawfulEqCmp.eq_of_compare heq
      simp only [find]
      grind
    · rename_i hgt
      have : k ≠ f.1 := by
        rintro rfl
        simp at hgt
      simp only [find, ih hes]
      grind

@[simp] theorem get?_insert (t : Table κ α) (k k' : κ) (a : α) :
    (t.insert k a).get? k' = if k' = k then some a else t.get? k' :=
  find_place k k' a t.ascending

theorem find_filter_ne (k k' : κ) (es : List (κ × α)) :
    find k' (es.filter fun e => e.1 ≠ k) = if k' = k then none else find k' es := by
  induction es with
  | nil => simp [find]
  | cons f es ih =>
    by_cases hf : f.1 = k
    · rw [List.filter_cons_of_neg (by simp [hf]), ih]
      simp only [find]
      grind
    · rw [List.filter_cons_of_pos (by simpa using hf)]
      simp only [find, ih]
      grind

@[simp] theorem get?_erase (t : Table κ α) (k k' : κ) :
    (t.erase k).get? k' = if k' = k then none else t.get? k' :=
  find_filter_ne k k' t.entries

theorem find_eq_some_iff {k : κ} {a : α} {es : List (κ × α)}
    (h : es.Pairwise fun a b => compare a.1 b.1 = .lt) :
    find k es = some a ↔ (k, a) ∈ es := by
  induction es with
  | nil => simp [find]
  | cons f es ih =>
    obtain ⟨hf, hes⟩ := List.pairwise_cons.1 h
    simp only [find, List.mem_cons]
    split
    · rename_i hk
      subst hk
      constructor
      · intro h
        exact .inl (by grind)
      · rintro (h | h)
        · rw [← h]
        · have := hf _ h
          simp at this
    · rename_i hk
      rw [ih hes]
      grind

theorem get?_eq_some_iff {t : Table κ α} {k : κ} {a : α} :
    t.get? k = some a ↔ (k, a) ∈ t.entries :=
  find_eq_some_iff t.ascending

theorem entries_eq_of_mem {es fs : List (κ × α)}
    (he : es.Pairwise fun a b => compare a.1 b.1 = .lt)
    (hf : fs.Pairwise fun a b => compare a.1 b.1 = .lt) (h : ∀ e, e ∈ es ↔ e ∈ fs) : es = fs := by
  induction es generalizing fs with
  | nil =>
    cases fs with
    | nil => rfl
    | cons f fs => simpa using h f
  | cons e es ih =>
    cases fs with
    | nil => simpa using h e
    | cons f fs =>
      obtain ⟨he₁, he₂⟩ := List.pairwise_cons.1 he
      obtain ⟨hf₁, hf₂⟩ := List.pairwise_cons.1 hf
      have hef : e = f := by
        rcases List.mem_cons.1 ((h e).1 List.mem_cons_self) with heq | hm
        · exact heq
        · rcases List.mem_cons.1 ((h f).2 List.mem_cons_self) with heq | hm'
          · exact heq.symm
          · have h₁ := hf₁ e hm
            have h₂ := he₁ f hm'
            have := Std.TransCmp.lt_trans h₁ h₂
            simp at this
      subst hef
      congr 1
      refine ih he₂ hf₂ fun g => ?_
      have hg := h g
      simp only [List.mem_cons] at hg
      constructor
      · intro hm
        rcases hg.1 (.inr hm) with rfl | hm'
        · have := he₁ _ hm
          simp at this
        · exact hm'
      · intro hm
        rcases hg.2 (.inr hm) with rfl | hm'
        · have := hf₁ _ hm
          simp at this
        · exact hm'

/-- A table is determined by its look-ups. -/
theorem ext_get? {s t : Table κ α} (h : ∀ k, s.get? k = t.get? k) : s = t := by
  obtain ⟨es, he⟩ := s
  obtain ⟨fs, hf⟩ := t
  congr
  refine entries_eq_of_mem he hf fun ⟨k, a⟩ => ?_
  rw [← find_eq_some_iff he, ← find_eq_some_iff hf, show find k es = find k fs from h k]

end Table

end DeviceSettings

import DeviceSettings.Proofs.Disk.Changes

/-!
# Saving a document

The plan by which documents are saved either succeeds, and then the path leads to a file of the new content, or fails
(`Device.carryOut_savePlan`).  Then the path leads to what it led to before (`Disk.IsTree.entry_again`,
`Disk.IsTree.exists_before`).  In either case nothing else changes but the temporary file and the directories above.
-/

namespace DeviceSettings

namespace Disk

variable {d d' : Disk} {p : Path}

/-- The directories that are made when a file is saved. -/
def Makes (d : Disk) (p : Path) (x : Place) : Prop :=
  ∃ q, p.parent? = some q ∧ q.text ≠ "" ∧ d.Above q x

theorem Grown.makes_iff {files made : Place → Prop} (h : Grown files made d d') (p : Path) (x : Place) :
    d'.Makes p x ↔ d.Makes p x := by
  constructor <;> rintro ⟨q, hq, htext, hx⟩
  · exact ⟨q, hq, htext, (h.above_iff q x).1 hx⟩
  · exact ⟨q, hq, htext, (h.above_iff q x).2 hx⟩

/-- If a path's own place is among the directories above it, the path goes up out of it. -/
theorem IsTree.isDirectoryAt_of_makes (ht : d.IsTree) (hs : Steady (d.Makes p) d p)
    (h : d.Makes p (d.placeOf p)) : d.isDirectoryAt (d.placeOf p) = true := by
  obtain ⟨q, hq, htext, hx⟩ := h
  obtain ⟨hnames, habs, hne⟩ := Path.names_of_parent? hq
  have hbase : d.base q = d.base p := by rw [base, base, habs]
  rcases List.eq_nil_or_concat p.names with hnil | ⟨front, last, hconcat⟩
  · exact absurd hnil (hne htext)
  rw [List.concat_eq_append] at hconcat
  rw [hconcat, List.dropLast_concat] at hnames
  have hlast : Path.isTrivial last = false := by
    have hmem : last ∈ p.names := hconcat ▸ List.mem_append_right front List.mem_cons_self
    simpa using (List.mem_filter.1 hmem).2
  have hfront : d.placeOf q = front.foldl stepTo (d.base p) := by rw [placeOf, hbase, hnames]
  have hplace : d.placeOf p = stepTo (d.placeOf q) last := by
    rw [hfront, placeOf, hconcat, List.foldl_append]
    rfl
  have hexits (x : Place) (hx : x ∈ exits (d.base p) p.names) (hm : d.Above q x) :
      d.isDirectoryAt x = true := hs x hx ⟨q, hq, htext, hm⟩
  by_cases hup : last = ".."
  · -- the directory above was left by the last `..`
    have hdir : d.isDirectoryAt (d.placeOf q) = true := by
      refine hexits _ ?_ (foldl_mem_visits _ _)
      rw [hconcat, exits_append, hfront]
      exact List.mem_append_right _ (by simp [exits, hup])
    rw [hplace, hup, stepTo_parent]
    exact ht.isDirectoryAt_dropLast hdir
  · -- the path came back to its own place, so it left it in between
    have hout : ¬d.placeOf p <+: d.placeOf q := by
      rw [hplace, stepTo_name _ hlast hup]
      intro hpre
      have hlen := hpre.length_le
      rw [List.length_append, List.length_singleton] at hlen
      omega
    refine hexits _ ?_ hx
    rw [Above, hbase, hnames] at hx
    rw [hfront] at hout
    rw [hconcat, exits_append]
    exact List.mem_append_left _ (mem_exits_of_visits hx hout)

/-! ## the file when its save failed -/

theorem exists_of_entry {e : Entry} (h : d.entry p = .ok e) : d.exists_ p = true := by
  rw [exists_, h]
  rfl

theorem entry_of_exists (h : d.exists_ p = true) : ∃ e, d.entry p = .ok e := by
  rw [exists_] at h
  cases he : d.entry p with
  | error e => rw [he] at h; cases h
  | ok e => exact ⟨e, rfl⟩

theorem exists_of_nothing (h : d.at? (d.placeOf p) = none) : d.exists_ p = false := by
  cases he : d.exists_ p with
  | false => rfl
  | true =>
    obtain ⟨e, hentry⟩ := entry_of_exists he
    obtain ⟨q, hr, hat⟩ := entry_ok.1 hentry
    rw [resolve_eq hr, h] at hat
    cases hat

/-- If the path ends in a name, the place of that name is not among the files. -/
def Spares (files : Place → Prop) (d : Disk) (p : Path) : Prop :=
  ∀ name, p.pieces.getLast? = some name → Path.IsName name → ¬files (d.placeOf p)

theorem Spares.congr {files : Place → Prop} (h : Spares files d p) (hg : d'.placeOf p = d.placeOf p) :
    Spares files d' p := by
  intro name hlast hname
  rw [hg]
  exact h name hlast hname

theorem Spares.not_files {files : Place → Prop} {e : Disk} {q : Place} (h : Spares files d p) (hn : e.Named p q) :
    ¬files (d.placeOf p) := by
  obtain ⟨before, dir, name, hn, -⟩ := hn
  exact h name (by rw [hn.pieces, List.getLast?_concat]) hn.isName

/-- Paths go on naming other places. -/
theorem Spares.of_grown {files made : Place → Prop} {p' : Path} (h : Spares (d.Spot p') d p)
    (hg : Grown files made d d') : Spares (d'.Spot p') d' p := by
  intro name hlast hname hspot
  rw [hg.placeOf_eq] at hspot
  exact h name hlast hname ((hg.spot_iff _ _).mp hspot)

/-- A path that ends in another name spares the file. -/
theorem spares_spot {p' : Path}
    (h : ∀ name, p.pieces.getLast? = some name → Path.IsName name → p'.pieces.getLast? ≠ some name) :
    Spares (d.Spot p') d p := by
  intro name hlast hname hs
  have hplace : (d.placeOf p).getLast? = some name := getLast?_placeOf hlast hname
  exact h name hlast hname (hs.2.symm.trans hplace)

/-- A path that ends in a name ends in another one under a temporary extension. -/
theorem spares_temporary (d : Disk) (p : Path) : Spares (d.Spot (p.withExtension "json.tmp")) d p :=
  spares_spot fun _ => Path.getLast?_pieces_temporary

section
variable {files : Place → Prop}

/-- A file is still there. -/
theorem IsTree.entry_again (ht : d.IsTree) {made : Place → Prop} {e : Entry} (h : Grown files made d d')
    (hf : Spares files d p) (he : d.entry p = .ok e) (hdir : e.isDirectory = false) : d'.entry p = .ok e :=
  h.entry_again (hf.not_files (named_of_entry ht he hdir).1) he

/-- Where nothing was, there is nothing still. -/
theorem IsTree.exists_before (ht : d.IsTree) (h : Grown files (d.Makes p) d d') (hf : Spares files d p)
    (hs : Steady (d.Makes p) d p) (he : d'.exists_ p = true) : d.exists_ p = true := by
  obtain ⟨e, he⟩ := entry_of_exists he
  cases hdir : e.isDirectory with
  | false =>
    obtain ⟨hn, -⟩ := named_of_entry (h.isTree ht) he hdir
    refine exists_of_entry (h.entry_before ht hs (hf.not_files hn) he fun hd => ?_)
    rw [hdir] at hd
    cases hd
  | true =>
    obtain ⟨q, hr, hat⟩ := entry_ok.1 he
    have hq : q = d.placeOf p := (resolve_eq hr).trans (h.placeOf_eq p)
    have hold : d.isDirectoryAt q = true := by
      rcases h.fresh q ((isDirectoryAt_eq hat).trans hdir) with hd | hm
      · exact hd
      · rw [hq] at hm ⊢
        exact ht.isDirectoryAt_of_makes hs hm
    have hsome := isSome_of_isDirectoryAt hold
    obtain ⟨e', he'⟩ := Option.isSome_iff_exists.1 hsome
    exact exists_of_entry (entry_ok.2 ⟨q, h.resolve_before ht hs hr hsome fun _ => hold, he'⟩)

/-- A path leads to the same file as before, if it led anywhere or goes up out of no new directory. -/
theorem IsTree.file_iff (ht : d.IsTree) {made : Place → Prop} (h : Grown files made d d') (hf : Spares files d p)
    (hs : d.exists_ p = true ∨ Steady made d p) (content : ByteArray) (mode : Nat) :
    d'.entry p = .ok (.file content mode) ↔ d.entry p = .ok (.file content mode) := by
  constructor
  · intro he'
    have hnot := hf.not_files (named_of_entry (h.isTree ht) he' rfl).1
    rcases hs with hthere | hs
    · obtain ⟨e, he⟩ := entry_of_exists hthere
      rw [h.entry_again hnot he] at he'
      rw [he, he']
    · exact h.entry_before ht hs hnot he' fun hdir => nomatch hdir
  · intro he
    exact ht.entry_again h hf he rfl

end

end Disk

namespace Device

open Disk (Grown Spot Makes)

variable {d d' : Device} {p temporary : Path} {content : ByteArray} {mode : Option Nat}
  {files made : Place → Prop}

/-! ## steps -/

/-- A step that is one call is refused or fails and changes nothing, or the call succeeds. -/
theorem perform_cases {s : Step} {r : Except OsError Disk} (h : s.run d.disk = Step.ofResult d.disk r) :
    (∃ e d', d.perform s = (.error e, d') ∧ d'.disk = d.disk)
      ∨ ∃ disk d', r = .ok disk ∧ d.perform s = (.ok (), d') ∧ d'.disk = disk := by
  unfold perform
  split
  · exact .inl ⟨_, _, rfl, rfl⟩
  all_goals
    rw [h]
    cases r with
    | error e => exact .inl ⟨_, _, rfl, rfl⟩
    | ok disk => exact .inr ⟨_, _, rfl, rfl, rfl⟩

theorem perform_ensureDirectory (ht : d.disk.IsTree)
    (hm : p.text ≠ "" → ∀ x, d.disk.Above p x → made x) :
    Grown files made d.disk (d.perform (.ensureDirectory p)).2.disk := by
  unfold perform
  split
  · exact .refl _
  all_goals exact ht.grown_ensureDirectory hm

theorem grown_create (ht : d.disk.IsTree) (hf : ∀ x, d.disk.Spot p x → files x) :
    Grown files made d.disk (d.perform (.create p)).2.disk := by
  rcases perform_cases (d := d) (s := .create p) rfl with ⟨e, d₁, hs, hd⟩ | ⟨disk, d₁, hok, hs, rfl⟩
  · rw [hs]
    exact hd ▸ .refl _
  · rw [hs]
    exact (ht.grown_write hf hok).1

theorem grown_fill (ht : d.disk.IsTree) (hf : ∀ x, d.disk.Spot p x → files x) :
    Grown files made d.disk (d.perform (.fill p content)).2.disk := by
  rcases perform_cases (d := d) (s := .fill p content) rfl with ⟨e, d₁, hs, hd⟩ | ⟨disk, d₁, hok, hs, rfl⟩
  · rw [hs]
    exact hd ▸ .refl _
  · rw [hs]
    exact (ht.grown_overwrite hf hok).1

theorem entry_of_fill (ht : d.disk.IsTree) (h : d.perform (.fill p content) = (.ok (), d')) :
    ∃ m, d'.disk.entry p = .ok (.file content m) := by
  rcases perform_cases (d := d) (s := .fill p content) rfl with ⟨e, d₁, hs, hd⟩ | ⟨disk, d₁, hok, hs, rfl⟩
  · cases hs.symm.trans h
  · cases hs.symm.trans h
    obtain ⟨-, he⟩ : Grown (fun _ => True) Disk.nowhere d.disk d'.disk ∧ _ :=
      ht.grown_overwrite (fun _ _ => trivial) hok
    exact he

theorem grown_mode {m : Nat} (hf : files (d.disk.placeOf p)) :
    Grown files made d.disk (d.perform (.chmod p m)).2.disk := by
  rcases perform_cases (d := d) (s := .chmod p m) rfl with ⟨e, d₁, hs, hd⟩ | ⟨disk, d₁, hok, hs, rfl⟩
  · rw [hs]
    exact hd ▸ .refl _
  · rw [hs]
    exact Disk.grown_mode hf hok

/-- The directory above a path is made or not; nothing else changes. -/
theorem grown_ensureParent (ht : d.disk.IsTree) (hm : ∀ x, d.disk.Makes p x → made x) :
    Grown files made d.disk (carryOut (ensureParent p) d).2.disk := by
  rw [ensureParent]
  cases hp : p.parent? with
  | none => exact .refl _
  | some q =>
    have hg : Grown files made d.disk (d.perform (.ensureDirectory q)).2.disk :=
      perform_ensureDirectory ht fun htext x hx => hm x ⟨q, hp, htext, hx⟩
    rw [Option.toList_some, List.map_singleton, carryOut]
    split
    · rename_i heq
      rw [heq] at hg
      exact hg
    · rename_i heq
      rw [heq] at hg
      exact hg

/-! ## the temporary file -/

/-- Making the temporary file changes nothing else; if all goes well it holds the content. -/
theorem carryOut_prepare (ht : d.disk.IsTree) (hf : ∀ x, d.disk.Spot temporary x → files x) :
    ∃ r d', carryOut ([.create temporary, .fill temporary content]
        ++ mode.toList.map fun m => Step.chmod temporary m) d = (r, d')
      ∧ Grown files made d.disk d'.disk
      ∧ (∀ u, r = .ok u → ∃ m, d'.disk.entry temporary = .ok (.file content m)) := by
  have hg₁ : Grown files made d.disk (d.perform (.create temporary)).2.disk := grown_create ht hf
  rw [List.cons_append, carryOut]
  cases hs₁ : d.perform (.create temporary) with
  | mk r₁ d₁ =>
  rw [hs₁] at hg₁
  cases r₁ with
  | error e => exact ⟨_, d₁, rfl, hg₁, fun _ hr => by cases hr⟩
  | ok u₁ =>
  have ht₁ := hg₁.isTree ht
  have hf₁ : ∀ x, d₁.disk.Spot temporary x → files x := fun x hx => hf x ((hg₁.spot_iff _ x).1 hx)
  have hg₂ : Grown files made d₁.disk (d₁.perform (.fill temporary content)).2.disk := grown_fill ht₁ hf₁
  dsimp only
  rw [List.cons_append, carryOut]
  cases hs₂ : d₁.perform (.fill temporary content) with
  | mk r₂ d₂ =>
  rw [hs₂] at hg₂
  cases r₂ with
  | error e => exact ⟨_, d₂, rfl, hg₁.trans hg₂, fun _ hr => by cases hr⟩
  | ok u₂ =>
  have hg := hg₁.trans hg₂
  have ht₂ := hg₂.isTree ht₁
  obtain ⟨m, he⟩ := entry_of_fill ht₁ hs₂
  cases mode with
  | none => exact ⟨.ok (), d₂, rfl, hg, fun _ _ => ⟨m, he⟩⟩
  | some mode =>
    have hf₂ : ∀ x, d₂.disk.Spot temporary x → files x := fun x hx => hf₁ x ((hg₂.spot_iff _ x).1 hx)
    dsimp only
    rw [Option.toList_some, List.map_singleton, List.nil_append, carryOut]
    rcases perform_cases (d := d₂) (s := .chmod temporary mode) rfl
      with ⟨e, d₃, hs₃, hd⟩ | ⟨disk₃, d₃, hok₃, hs₃, rfl⟩
    · rw [hs₃]
      exact ⟨_, d₃, rfl, hd ▸ hg, fun _ hr => by cases hr⟩
    · obtain ⟨hg₃, he₃⟩ : Grown files made d₂.disk d₃.disk ∧ _ := ht₂.grown_chmod hf₂ he hok₃
      rw [hs₃]
      exact ⟨_, d₃, rfl, hg.trans hg₃, fun _ _ => ⟨mode, he₃⟩⟩

/-! ## the plan -/

/-- A file is replaced, and the path leads to the content, or only the temporary file changes. -/
theorem carryOut_replaceFile (ht : d.disk.IsTree) :
    (∃ d', carryOut (replaceFile p temporary content mode) d = (.ok (), d')
        ∧ Grown (fun x => d.disk.Spot temporary x ∨ d.disk.Spot p x) made d.disk d'.disk
        ∧ ∃ m, d'.disk.entry p = .ok (.file content m))
      ∨ ∃ f d', carryOut (replaceFile p temporary content mode) d = (.error f, d')
        ∧ Grown (d.disk.Spot temporary) made d.disk d'.disk := by
  obtain ⟨r₁, d₁, hprep, hg, hfile⟩ := @carryOut_prepare d temporary content mode (d.disk.Spot temporary) made ht
    fun _ hx => hx
  rw [replaceFile, carryOut_append, hprep]
  cases r₁ with
  | error f => exact .inr ⟨f, d₁, rfl, hg⟩
  | ok u =>
  dsimp only
  obtain ⟨m, he⟩ := hfile u rfl
  rw [carryOut]
  rcases perform_cases (d := d₁) (s := .rename temporary p) rfl
    with ⟨e, d₂, hs, hd⟩ | ⟨disk, d₂, hok, hs, hd⟩
  · rw [hs]
    exact .inr ⟨_, d₂, rfl, hd ▸ hg⟩
  · subst hd
    obtain ⟨hg₂, he₂⟩ : Grown (fun x => d.disk.Spot temporary x ∨ d.disk.Spot p x) made d₁.disk d₂.disk ∧ _ :=
      (hg.isTree ht).grown_rename (fun x hx => .inl ((hg.spot_iff _ x).1 hx))
        (fun x hx => .inr ((hg.spot_iff _ x).1 hx)) he hok
    rw [hs]
    exact .inl ⟨d₂, rfl, (hg.mono (fun _ => .inl) fun _ h => h).trans hg₂, m, he₂⟩

/-- The plan of a save. -/
def savePlan (p temporary : Path) (content : ByteArray) (mode : Option Nat) : List Step :=
  ensureParent p ++ replaceFile p temporary content mode

/-- A save succeeds, and the path leads to the content, or it fails, and the file is as it was. -/
theorem carryOut_savePlan (ht : d.disk.IsTree) :
    (∃ d', carryOut (savePlan p temporary content mode) d = (.ok (), d')
        ∧ Grown (fun x => d.disk.Spot temporary x ∨ d.disk.Spot p x) (d.disk.Makes p) d.disk d'.disk
        ∧ ∃ m, d'.disk.entry p = .ok (.file content m))
      ∨ ∃ f d', carryOut (savePlan p temporary content mode) d = (.error f, d')
        ∧ Grown (d.disk.Spot temporary) (d.disk.Makes p) d.disk d'.disk := by
  have hg₀ : Grown (d.disk.Spot temporary) (d.disk.Makes p) d.disk (carryOut (ensureParent p) d).2.disk :=
    grown_ensureParent ht fun _ hx => hx
  rw [savePlan, carryOut_append]
  cases hpar : carryOut (ensureParent p) d with
  | mk r₀ d₀ =>
  rw [hpar] at hg₀
  cases r₀ with
  | error f => exact .inr ⟨f, d₀, rfl, hg₀⟩
  | ok u =>
  dsimp only
  have hspot (path : Path) (x : Place) (hx : d₀.disk.Spot path x) : d.disk.Spot path x := (hg₀.spot_iff path x).1 hx
  rcases @carryOut_replaceFile d₀ p temporary content mode (d.disk.Makes p) (hg₀.isTree ht)
    with ⟨d', hrun, hg, he⟩ | ⟨f, d', hrun, hg⟩
  · refine .inl ⟨d', hrun, ?_, he⟩
    exact (hg₀.mono (fun _ => .inl) fun _ h => h).trans
      (hg.mono (fun x => Or.imp (hspot temporary x) (hspot p x)) fun _ h => h)
  · exact .inr ⟨f, d', hrun, hg₀.trans (hg.mono (hspot temporary) fun _ h => h)⟩

end Device

end DeviceSettings

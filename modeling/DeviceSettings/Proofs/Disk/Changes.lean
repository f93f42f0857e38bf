import DeviceSettings.Device
import DeviceSettings.Proofs.Disk.Places

/-!
# Changes of a disk

What a change leaves alone.  A disk has `Grown` when entries changed at some places only and some directories
are new: whatever a path led to elsewhere it still leads to (`Grown.entry_again`), and a path that led nowhere
elsewhere leads to no file (`Grown.entry_before`), unless its way goes up out of a new directory (`Steady`).

Every call that succeeds is such a change, at the place that its path spells.
-/

namespace DeviceSettings.Disk

variable {d d' : Disk} {p : Path} {place q : Place} {e : Entry}

theorem entry_ok : d.entry p = .ok e ↔ ∃ q, d.resolve p = .ok q ∧ d.at? q = some e := by
  constructor
  · intro h
    obtain ⟨q, hq, h⟩ := bind_eq_ok.1 h
    refine ⟨q, hq, ?_⟩
    split at h
    · rename_i f hf
      cases h
      exact hf
    · cases h
  · rintro ⟨q, hq, he⟩
    exact bind_eq_ok.2 ⟨q, hq, by rw [he]⟩

theorem read_ok {content : ByteArray} :
    d.read p = .ok content ↔ ∃ mode, d.entry p = .ok (.file content mode) := by
  rw [read, openToRead]
  constructor
  · intro h
    obtain ⟨opened, hopened, hbytes⟩ := bind_eq_ok.1 h
    obtain ⟨e, he, hopened⟩ := bind_eq_ok.1 hopened
    cases e with
    | file bytes mode =>
      cases hopened
      cases hbytes
      exact ⟨mode, he⟩
    | directory mode =>
      cases hopened
      cases hbytes
    | sealed cause mode => cases hopened
  · rintro ⟨mode, he⟩
    rw [he]
    rfl

theorem isDirectoryAt_eq (h : d.at? q = some e) : d.isDirectoryAt q = e.isDirectory := by
  rw [isDirectoryAt, h]

/-! ## growth -/

/-- Entries change only at the places of `files`, where no directory comes or goes, and directories are made
only at those of `made`. -/
structure Grown (files made : Place → Prop) (d d' : Disk) : Prop where
  work : d'.work = d.work
  keep : ∀ x, d.isDirectoryAt x = true → d'.isDirectoryAt x = true
  fresh : ∀ x, d'.isDirectoryAt x = true → d.isDirectoryAt x = true ∨ made x
  same : ∀ x, ¬files x → d'.at? x = d.at? x ∨ (d.at? x = none ∧ d'.isDirectoryAt x = true)
  isTree : d.IsTree → d'.IsTree

/-- A `..` of the path leaves no directory that is still to be made. -/
def Steady (made : Place → Prop) (d : Disk) (p : Path) : Prop :=
  ∀ x ∈ exits (d.base p) p.names, made x → d.isDirectoryAt x = true

theorem isDirectoryAt_of_exits {ss : List String} (h : ss.foldlM d.walk place = .ok q) {x : Place}
    (hx : x ∈ exits place ss) : d.isDirectoryAt x = true := by
  induction ss generalizing place with
  | nil => cases hx
  | cons s ss ih =>
    obtain ⟨hs, hrest⟩ := foldlM_walk_cons h
    rcases List.mem_append.mp hx with hx | hx
    · split at hx
      · rw [List.mem_singleton.mp hx]
        exact (walk_ok hs).1
      · cases hx
    · exact ih hrest hx

/-- A path that leads somewhere goes up out of directories only that are there. -/
theorem steady_of_entry {made : Place → Prop} (h : d.entry p = .ok e) : Steady made d p := by
  obtain ⟨q, hr, -⟩ := entry_ok.mp h
  intro x hx _
  rw [Path.names, exits_filter] at hx
  exact isDirectoryAt_of_exits (resolve_ok hr).2 hx

namespace Grown

variable {files made : Place → Prop}

theorem refl (d : Disk) : Grown files made d d :=
  ⟨rfl, fun _ h => h, fun _ h => .inl h, fun _ _ => .inl rfl, fun h => h⟩

theorem trans {d'' : Disk} (h : Grown files made d d') (k : Grown files made d' d'') :
    Grown files made d d'' := by
  refine ⟨k.work.trans h.work, fun x hx => k.keep x (h.keep x hx), ?_, ?_, fun ht => k.isTree (h.isTree ht)⟩
  · intro x hx
    rcases k.fresh x hx with hx | hx
    · exact h.fresh x hx
    · exact .inr hx
  · intro x hx
    rcases h.same x hx with h₁ | ⟨h₁, hdir⟩
    · rcases k.same x hx with h₂ | ⟨h₂, hdir⟩
      · exact .inl (h₂.trans h₁)
      · exact .inr ⟨h₁ ▸ h₂, hdir⟩
    · exact .inr ⟨h₁, k.keep x hdir⟩

theorem mono {files' made' : Place → Prop} (h : Grown files made d d') (hf : ∀ x, files x → files' x)
    (hm : ∀ x, made x → made' x) : Grown files' made' d d' :=
  ⟨h.work, h.keep, fun x hx => (h.fresh x hx).imp_right (hm x), fun x hx => h.same x fun k => hx (hf x k),
    h.isTree⟩

theorem anywhere (h : Grown files made d d') : Grown (fun _ => True) (fun _ => True) d d' :=
  h.mono (fun _ _ => trivial) fun _ _ => trivial

theorem base_eq (h : Grown files made d d') (p : Path) : d'.base p = d.base p := by
  rw [base, base, h.work]

theorem placeOf_eq (h : Grown files made d d') (p : Path) : d'.placeOf p = d.placeOf p := by
  rw [placeOf, placeOf, h.base_eq]

theorem steady {later : Place → Prop} (h : Grown files made d d') (hs : Steady later d p) :
    Steady later d' p := by
  intro x hx hm
  rw [h.base_eq] at hx
  exact h.keep x (hs x hx hm)

/-- A walk can be taken again if its end is still there. -/
theorem walk_again (h : Grown files made d d') {ss : List String}
    (hw : ss.foldlM d.walk place = .ok q) (hq : (d'.at? q).isSome = true) :
    ss.foldlM d'.walk place = .ok q := by
  induction ss generalizing place with
  | nil => exact hw
  | cons s ss ih =>
    obtain ⟨hs, hrest⟩ := foldlM_walk_cons hw
    obtain ⟨hdir, -, hname⟩ := walk_ok hs
    refine foldlM_walk_of (walk_of (h.keep _ hdir) fun ht hp => ⟨(hname ht hp).1, ?_⟩) (ih hrest)
    rcases isDirectoryAt_of_foldlM hrest with ⟨-, heq⟩ | hdir
    · exact heq ▸ hq
    · exact isSome_of_isDirectoryAt (h.keep _ hdir)

/-- A walk was there before if its end was and none of its `..` leaves a new directory. -/
theorem walk_before (ht : d.IsTree) (h : Grown files made d d') {ss : List String}
    (hs : ∀ x ∈ exits place ss, made x → d.isDirectoryAt x = true)
    (hw : ss.foldlM d'.walk place = .ok q) (hq : (d.at? q).isSome = true)
    (hdir : d'.isDirectoryAt q = true → d.isDirectoryAt q = true) :
    ss.foldlM d.walk place = .ok q := by
  induction ss generalizing place with
  | nil => exact hw
  | cons s ss ih =>
    obtain ⟨hfirst, hrest⟩ := foldlM_walk_cons hw
    obtain ⟨hplace, -, hname⟩ := walk_ok hfirst
    have hrest' := ih (fun x hx => hs x (List.mem_append_right _ hx)) hrest
    -- where the walk goes on something stood before
    have hnext : (d.at? (stepTo place s)).isSome = true := by
      rcases isDirectoryAt_of_foldlM hrest' with ⟨-, heq⟩ | hd
      · exact heq ▸ hq
      · exact isSome_of_isDirectoryAt hd
    have hbefore : d.isDirectoryAt place = true := by
      by_cases htr : Path.isTrivial s = true
      · rw [stepTo_trivial htr] at hrest'
        rcases isDirectoryAt_of_foldlM hrest' with ⟨-, heq⟩ | hd
        · subst heq
          exact hdir hplace
        · exact hd
      · by_cases hp : s = ".."
        · subst hp
          rcases h.fresh place hplace with hd | hm
          · exact hd
          · exact hs place (List.mem_append_left _ List.mem_cons_self) hm
        · rw [stepTo_name _ (by simpa using htr) hp] at hnext
          exact ht place s hnext
    exact foldlM_walk_of (walk_of hbefore fun ht hp => ⟨(hname ht hp).1, hnext⟩) hrest'

theorem resolve_again (h : Grown files made d d') (hr : d.resolve p = .ok q)
    (hq : (d'.at? q).isSome = true) : d'.resolve p = .ok q := by
  obtain ⟨hstart, hw⟩ := resolve_ok hr
  refine resolve_of ?_ ?_
  · rw [start_congr h.work, hstart, h.base_eq]
  · rw [h.base_eq]
    exact h.walk_again hw hq

theorem resolve_before (ht : d.IsTree) (h : Grown files made d d') (hs : Steady made d p)
    (hr : d'.resolve p = .ok q) (hq : (d.at? q).isSome = true)
    (hdir : d'.isDirectoryAt q = true → d.isDirectoryAt q = true) : d.resolve p = .ok q := by
  obtain ⟨hstart, hw⟩ := resolve_ok hr
  rw [h.base_eq] at hstart hw
  refine resolve_of ?_ (h.walk_before ht ?_ hw hq hdir)
  · rw [← start_congr h.work, hstart]
  · rw [← exits_filter]
    exact hs

/-- A path still leads to what it led to. -/
theorem entry_again (h : Grown files made d d') (hp : ¬files (d.placeOf p)) (he : d.entry p = .ok e) :
    d'.entry p = .ok e := by
  obtain ⟨q, hr, hat⟩ := entry_ok.1 he
  have hq := resolve_eq hr
  have hat' : d'.at? q = some e := by
    rcases h.same q (hq ▸ hp) with heq | ⟨hnone, -⟩
    · rw [heq, hat]
    · rw [hnone] at hat
      cases hat
  exact entry_ok.2 ⟨q, h.resolve_again hr (by rw [hat']; rfl), hat'⟩

/-- A path that led to the place of another leads to what the other leads to now. -/
theorem entry_of_placeOf {p' : Path} {e' : Entry} (h : Grown files made d d') (he : d'.entry p = .ok e)
    (hold : d.entry p' = .ok e') (hplace : d.placeOf p' = d.placeOf p) : d'.entry p' = .ok e := by
  obtain ⟨q, hr, hat⟩ := entry_ok.1 he
  obtain ⟨q', hr', -⟩ := entry_ok.1 hold
  have hq : q' = q := by rw [resolve_eq hr, resolve_eq hr', h.placeOf_eq, hplace]
  subst hq
  exact entry_ok.2 ⟨q', h.resolve_again hr' (by rw [hat]; rfl), hat⟩

/-- What a path leads to now, if it is no new directory, it led to before. -/
theorem entry_before (ht : d.IsTree) (h : Grown files made d d') (hs : Steady made d p)
    (hp : ¬files (d.placeOf p)) (he : d'.entry p = .ok e)
    (hdir : e.isDirectory = true → d.isDirectoryAt (d.placeOf p) = true) : d.entry p = .ok e := by
  obtain ⟨q, hr, hat⟩ := entry_ok.1 he
  have hq : q = d.placeOf p := (resolve_eq hr).trans (h.placeOf_eq p)
  have hold : d.at? q = some e := by
    rcases h.same q (hq ▸ hp) with heq | ⟨hnone, hd⟩
    · rw [← heq, hat]
    · rw [isDirectoryAt_eq hat] at hd
      have hsome := isSome_of_isDirectoryAt (hq ▸ hdir hd)
      rw [hnone] at hsome
      cases hsome
  refine entry_ok.2 ⟨q, h.resolve_before ht hs hr (by rw [hold]; rfl) fun hd => ?_, hold⟩
  rwa [isDirectoryAt_eq hat, ← isDirectoryAt_eq hold] at hd

/-- A path whose place is not to become a directory leads to the same as before, or still nowhere. -/
theorem toOption_entry (ht : d.IsTree) (h : Grown files made d d') (hs : Steady made d p)
    (hp : ¬files (d.placeOf p)) (hm : made (d.placeOf p) → d.isDirectoryAt (d.placeOf p) = true) :
    (d'.entry p).toOption = (d.entry p).toOption := by
  cases he : d.entry p with
  | ok e => rw [h.entry_again hp he]
  | error why =>
    cases he' : d'.entry p with
    | error why' => rfl
    | ok e =>
      have hdir : e.isDirectory = true → d.isDirectoryAt (d.placeOf p) = true := by
        intro hd
        obtain ⟨q, hr, hat⟩ := entry_ok.1 he'
        rw [resolve_eq hr, h.placeOf_eq] at hat
        rcases h.fresh _ ((isDirectoryAt_eq hat).trans hd) with hold | hmade
        · exact hold
        · exact hm hmade
      have hbefore := h.entry_before ht hs hp he' hdir
      rw [he] at hbefore
      cases hbefore

/-- What can be read elsewhere is what could be read. -/
theorem toOption_read (ht : d.IsTree) (h : Grown files made d d') (hs : Steady made d p)
    (hp : ¬files (d.placeOf p)) : (d'.read p).toOption = (d.read p).toOption := by
  cases hread : d.read p with
  | ok content =>
    obtain ⟨mode, he⟩ := read_ok.mp hread
    rw [read_ok.mpr ⟨mode, h.entry_again hp he⟩]
  | error why =>
    cases hread' : d'.read p with
    | error why' => rfl
    | ok content =>
      obtain ⟨mode, he'⟩ := read_ok.mp hread'
      have hbefore := read_ok.mpr ⟨mode, h.entry_before ht hs hp he' nofun⟩
      rw [hread] at hbefore
      cases hbefore

/-- What stands at a place that is neither changed nor made a directory. -/
theorem at?_eq {x : Place} (h : Grown files made d d') (hf : ¬files x) (hm : ¬made x) : d'.at? x = d.at? x := by
  rcases h.same x hf with heq | ⟨hnone, hdir⟩
  · exact heq
  · rcases h.fresh x hdir with hold | hmade
    · have hsome := isSome_of_isDirectoryAt hold
      rw [hnone] at hsome
      cases hsome
    · exact absurd hmade hm

end Grown

/-! ## single entries -/

theorem isDirectoryAt_put (d : Disk) (place q : Place) (e : Entry) :
    (d.put place e).isDirectoryAt q
      = if q = [] then true else if q = place then e.isDirectory else d.isDirectoryAt q := by
  rw [isDirectoryAt, at?_put]
  by_cases hq : q = []
  · rw [if_pos hq, if_pos hq]
    rfl
  · rw [if_neg hq, if_neg hq]
    by_cases hp : q = place
    · rw [if_pos hp, if_pos hp]
    · rw [if_neg hp, if_neg hp, isDirectoryAt]

theorem isDirectoryAt_drop (d : Disk) (place q : Place) :
    (d.drop place).isDirectoryAt q
      = if q = [] then true else if q = place then false else d.isDirectoryAt q := by
  rw [isDirectoryAt, at?_drop]
  by_cases hq : q = []
  · rw [if_pos hq, if_pos hq]
    rfl
  · rw [if_neg hq, if_neg hq]
    by_cases hp : q = place
    · rw [if_pos hp, if_pos hp]
    · rw [if_neg hp, if_neg hp, isDirectoryAt]

theorem at?_put_self (h : place ≠ []) : (d.put place e).at? place = some e := by
  rw [at?_put, if_neg h, if_pos rfl]

theorem at?_put_ne (h : q ≠ place) : (d.put place e).at? q = d.at? q := by
  rw [at?_put]
  by_cases hq : q = []
  · rw [if_pos hq, hq]
    rfl
  · rw [if_neg hq, if_neg h]

theorem at?_drop_ne (h : q ≠ place) : (d.drop place).at? q = d.at? q := by
  rw [at?_drop]
  by_cases hq : q = []
  · rw [if_pos hq, hq]
    rfl
  · rw [if_neg hq, if_neg h]

namespace Grown

variable {files made : Place → Prop}

/-- A file, a socket or nothing gives way to a file or a socket, in a directory that is there. -/
theorem put (hfiles : files place) (hne : place ≠ []) (hparent : d.isDirectoryAt place.dropLast = true)
    (hold : d.isDirectoryAt place = false) (hnew : e.isDirectory = false) :
    Grown files made d (d.put place e) := by
  have hdir (x : Place) : (d.put place e).isDirectoryAt x = d.isDirectoryAt x := by
    rw [isDirectoryAt_put]
    by_cases hx : x = []
    · rw [if_pos hx, hx]
      rfl
    · rw [if_neg hx]
      by_cases hp : x = place
      · rw [if_pos hp, hp, hnew, hold]
      · rw [if_neg hp]
  refine ⟨rfl, fun x hx => (hdir x).trans hx, fun x hx => .inl ((hdir x).symm.trans hx), ?_, ?_⟩
  · intro x hx
    refine .inl (at?_put_ne ?_)
    rintro rfl
    exact hx hfiles
  · intro ht x name hsome
    rw [hdir]
    by_cases hp : x ++ [name] = place
    · rw [← hp, List.dropLast_concat] at hparent
      exact hparent
    · rw [at?_put_ne hp] at hsome
      exact ht x name hsome

/-- A directory is made in one that is there. -/
theorem makeDirectory (mode : Nat) (hmade : made place) (hne : place ≠ [])
    (hparent : d.isDirectoryAt place.dropLast = true) (hold : d.at? place = none) :
    Grown files made d (d.put place (.directory mode)) := by
  have hkeep (x : Place) (hx : d.isDirectoryAt x = true) :
      (d.put place (.directory mode)).isDirectoryAt x = true := by
    rw [isDirectoryAt_put]
    by_cases hn : x = []
    · rw [if_pos hn]
    · rw [if_neg hn]
      by_cases hp : x = place
      · rw [if_pos hp]
        rfl
      · rw [if_neg hp, hx]
  refine ⟨rfl, hkeep, ?_, ?_, ?_⟩
  · intro x hx
    by_cases hp : x = place
    · exact .inr (hp ▸ hmade)
    · rw [isDirectoryAt, at?_put_ne hp] at hx
      exact .inl hx
  · intro x _
    by_cases hp : x = place
    · rw [hp]
      refine .inr ⟨hold, ?_⟩
      rw [isDirectoryAt, at?_put_self hne]
      rfl
    · exact .inl (at?_put_ne hp)
  · intro ht x name hsome
    by_cases hp : x ++ [name] = place
    · rw [← hp, List.dropLast_concat] at hparent
      exact hkeep x hparent
    · rw [at?_put_ne hp] at hsome
      exact hkeep x (ht x name hsome)

/-- A file or a socket is taken away. -/
theorem drop (hfiles : files place) (hne : place ≠ []) (hold : d.isDirectoryAt place = false) :
    Grown files made d (d.drop place) := by
  have hdir (x : Place) : (d.drop place).isDirectoryAt x = d.isDirectoryAt x := by
    rw [isDirectoryAt_drop]
    by_cases hx : x = []
    · rw [if_pos hx, hx]
      rfl
    · rw [if_neg hx]
      by_cases hp : x = place
      · rw [if_pos hp, hp, hold]
      · rw [if_neg hp]
  refine ⟨rfl, fun x hx => (hdir x).trans hx, fun x hx => .inl ((hdir x).symm.trans hx), ?_, ?_⟩
  · intro x hx
    refine .inl (at?_drop_ne ?_)
    rintro rfl
    exact hx hfiles
  · intro ht x name hsome
    rw [hdir]
    by_cases hp : x ++ [name] = place
    · rw [at?_drop, if_neg (by simp), if_pos hp] at hsome
      cases hsome
    · rw [at?_drop_ne hp] at hsome
      exact ht x name hsome

end Grown

/-! ## calls -/

/-- The place that a path spells, under the name that the path ends in. -/
def Spot (d : Disk) (p : Path) (x : Place) : Prop := x = d.placeOf p ∧ x.getLast? = p.pieces.getLast?

theorem Named.spot (h : d.Named p q) : d.Spot p q := ⟨h.placeOf_eq, h.getLast?_eq⟩

theorem Grown.spot_iff {files made : Place → Prop} (h : Grown files made d d') (p : Path) (x : Place) :
    d'.Spot p x ↔ d.Spot p x := by
  rw [Spot, Spot, h.placeOf_eq]

theorem Grown.named {files made : Place → Prop} (h : Grown files made d d') (hn : d.Named p q) :
    d'.Named p q := by
  obtain ⟨before, dir, name, ⟨hp, hname, hshort, hstart, hw, hdir⟩, rfl⟩ := hn
  refine ⟨before, dir, name, ⟨hp, hname, hshort, ?_, ?_, h.keep _ hdir⟩, rfl⟩
  · rw [start_congr h.work, hstart, h.base_eq]
  · rw [h.base_eq]
    exact h.walk_again hw (isSome_of_isDirectoryAt (h.keep _ hdir))

theorem named_of_entry (ht : d.IsTree) (h : d.entry p = .ok e) (he : e.isDirectory = false) :
    d.Named p (d.placeOf p) ∧ d.at? (d.placeOf p) = some e := by
  obtain ⟨q, hr, hat⟩ := entry_ok.1 h
  obtain rfl := resolve_eq hr
  exact ⟨(ht.named_of_resolve hr ((isDirectoryAt_eq hat).trans he)).1, hat⟩

theorem Named.entry (h : d.Named p q) (hat : d.at? q = some e) : d.entry p = .ok e :=
  entry_ok.2 ⟨q, h.resolve (by rw [hat]; rfl), hat⟩

/-- What is put at the place of a path is what the path leads to. -/
theorem Named.put {files made : Place → Prop} (h : d.Named p q) (hfiles : files q)
    (hold : d.isDirectoryAt q = false) (hnew : e.isDirectory = false) :
    Grown files made d (d.put q e) ∧ (d.put q e).entry p = .ok e := by
  obtain ⟨hne, hparent⟩ := h.parent
  have hg : Grown files made d (d.put q e) := .put hfiles hne hparent hold hnew
  exact ⟨hg, (hg.named h).entry (at?_put_self hne)⟩

/-- A file or a socket that already stands at the place of a name. -/
theorem IsTree.named_of_target_at (ht : d.IsTree) {slashed : Bool} (hr : d.target p = .ok (d.placeOf p, slashed))
    (hat : d.at? (d.placeOf p) = some e) (he : e.isDirectory = false) :
    d.Named p (d.placeOf p) ∧ d.isDirectoryAt (d.placeOf p) = false := by
  have hdir : d.isDirectoryAt (d.placeOf p) = false := (isDirectoryAt_eq hat).trans he
  cases slashed with
  | true =>
    have hd := ht.isDirectory_of_target hr hat
    rw [he] at hd
    cases hd
  | false => exact ⟨ht.named_of_target hr hdir, hdir⟩

theorem Entry.isDirectory_eq_false (h : ∀ mode, e = .directory mode → False) : e.isDirectory = false := by
  cases e with
  | directory mode => exact absurd rfl (h mode)
  | file content mode => rfl
  | sealed cause mode => rfl

theorem overwrite_ok {content : ByteArray} (h : d.overwrite p content = .ok d') :
    ∃ old mode, d.entry p = .ok (.file old mode)
      ∧ d' = d.put (d.placeOf p) (.file content mode) := by
  obtain ⟨q, hr, h⟩ := bind_eq_ok.1 h
  obtain rfl := resolve_eq hr
  split at h
  · rename_i old mode hat
    cases h
    exact ⟨old, mode, entry_ok.2 ⟨_, hr, hat⟩, rfl⟩
  all_goals cases h

theorem chmod_ok {mode : Nat} (h : d.chmod p mode = .ok d') :
    ∃ e, d.entry p = .ok e ∧ d' = d.put (d.placeOf p) (e.withMode mode) := by
  obtain ⟨q, hr, h⟩ := bind_eq_ok.1 h
  obtain rfl := resolve_eq hr
  split at h
  · rename_i e hat
    cases h
    exact ⟨e, entry_ok.2 ⟨_, hr, hat⟩, rfl⟩
  · cases h

theorem remove_ok (h : d.remove p = .ok d') :
    ∃ e, d.entry p = .ok e ∧ e.isDirectory = false ∧ d' = d.drop (d.placeOf p) := by
  obtain ⟨q, hr, h⟩ := bind_eq_ok.1 h
  obtain rfl := resolve_eq hr
  split at h
  · cases h
  · rename_i e hdir hat
    cases h
    exact ⟨e, entry_ok.2 ⟨_, hr, hat⟩, Entry.isDirectory_eq_false hdir, rfl⟩
  · cases h

theorem makeDirectory_ok (h : d.makeDirectory p = .ok d') :
    ∃ slashed, d.target p = .ok (d.placeOf p, slashed) ∧ d.at? (d.placeOf p) = none
      ∧ d' = d.put (d.placeOf p) (.directory directoryMode) := by
  obtain ⟨⟨q, slashed⟩, hr, h⟩ := bind_eq_ok.1 h
  obtain rfl := target_eq hr
  dsimp only at h
  split at h
  · cases h
  · rename_i hat
    cases h
    exact ⟨slashed, hr, hat, rfl⟩

theorem write_ok {content : ByteArray} (ht : d.IsTree) (h : d.write p content = .ok d') :
    d.Named p (d.placeOf p) ∧ d.isDirectoryAt (d.placeOf p) = false
      ∧ ∃ mode, d' = d.put (d.placeOf p) (.file content mode) := by
  obtain ⟨⟨q, slashed⟩, hr, h⟩ := bind_eq_ok.1 h
  obtain rfl := target_eq hr
  dsimp only at h
  split at h
  · rename_i old mode hat
    cases h
    obtain ⟨hn, hdir⟩ := ht.named_of_target_at hr hat rfl
    exact ⟨hn, hdir, mode, rfl⟩
  · cases h
  · cases h
  · rename_i hat
    have hdir : d.isDirectoryAt (d.placeOf p) = false := by rw [isDirectoryAt, hat]
    cases slashed with
    | true => cases h
    | false =>
      cases h
      exact ⟨ht.named_of_target hr hdir, hdir, fileMode, rfl⟩

/-- A file is moved to the place of a name. -/
theorem rename_ok {p' : Path} {content : ByteArray} {mode : Nat} (ht : d.IsTree)
    (h : d.rename p p' = .ok d') (he : d.entry p = .ok (.file content mode)) :
    d.Named p' (d.placeOf p') ∧ d.isDirectoryAt (d.placeOf p') = false
      ∧ d' = if d.placeOf p' = d.placeOf p then d
        else (d.drop (d.placeOf p)).put (d.placeOf p') (.file content mode) := by
  obtain ⟨q, hr, h⟩ := bind_eq_ok.1 h
  obtain ⟨⟨q', slashed⟩, hr', h⟩ := bind_eq_ok.1 h
  obtain rfl := resolve_eq hr
  obtain rfl := target_eq hr'
  obtain ⟨-, hat⟩ := named_of_entry ht he rfl
  rw [hat] at h
  dsimp only at h
  split at h
  · split at h <;> cases h
  · rename_i e hdir hat'
    obtain ⟨hn, hnot⟩ := ht.named_of_target_at hr' hat' (Entry.isDirectory_eq_false hdir)
    refine ⟨hn, hnot, ?_⟩
    rw [show (Entry.file content mode).isDirectory = false from rfl, if_neg Bool.false_ne_true] at h
    split at h
    · rename_i heq
      cases h
      rw [if_pos heq]
    · rename_i heq
      cases h
      rw [if_neg heq]
  · rename_i hat'
    have hnot : d.isDirectoryAt (d.placeOf p') = false := by rw [isDirectoryAt, hat']
    cases slashed with
    | true => cases h
    | false =>
      cases h
      refine ⟨ht.named_of_target hr' hnot, hnot, ?_⟩
      rw [if_neg fun heq => by rw [heq, hat] at hat'; cases hat']

/-! ## what calls change -/

/-- No place at all. -/
def nowhere : Place → Prop := fun _ => False

/-- The places that the directories of a path stand at. -/
def Above (d : Disk) (p : Path) (x : Place) : Prop := x ∈ visits (d.base p) p.names

section
variable {files made : Place → Prop}

theorem IsTree.grown_overwrite (ht : d.IsTree) {content : ByteArray} (hf : ∀ x, d.Spot p x → files x)
    (h : d.overwrite p content = .ok d') :
    Grown files made d d' ∧ ∃ mode, d'.entry p = .ok (.file content mode) := by
  obtain ⟨old, mode, he, rfl⟩ := overwrite_ok h
  obtain ⟨hn, hat⟩ := named_of_entry ht he rfl
  obtain ⟨hg, he'⟩ := hn.put (e := .file content mode) (hf _ hn.spot) (isDirectoryAt_eq hat) rfl
  exact ⟨hg, mode, he'⟩

theorem IsTree.grown_write (ht : d.IsTree) {content : ByteArray} (hf : ∀ x, d.Spot p x → files x)
    (h : d.write p content = .ok d') :
    Grown files made d d' ∧ ∃ mode, d'.entry p = .ok (.file content mode) := by
  obtain ⟨hn, hdir, mode, rfl⟩ := write_ok ht h
  obtain ⟨hg, he'⟩ := hn.put (e := .file content mode) (hf _ hn.spot) hdir rfl
  exact ⟨hg, mode, he'⟩

theorem IsTree.grown_chmod (ht : d.IsTree) {content : ByteArray} {mode old : Nat}
    (hf : ∀ x, d.Spot p x → files x) (he : d.entry p = .ok (.file content old))
    (h : d.chmod p mode = .ok d') :
    Grown files made d d' ∧ d'.entry p = .ok (.file content mode) := by
  obtain ⟨e, he', rfl⟩ := chmod_ok h
  obtain rfl : Entry.file content old = e := Except.ok.inj (he.symm.trans he')
  obtain ⟨hn, hat⟩ := named_of_entry ht he rfl
  exact hn.put (hf _ hn.spot) (isDirectoryAt_eq hat) rfl

theorem IsTree.grown_remove (ht : d.IsTree) (hf : ∀ x, d.Spot p x → files x)
    (h : d.remove p = .ok d') : Grown files made d d' ∧ d'.at? (d.placeOf p) = none := by
  obtain ⟨e, he, hdir, rfl⟩ := remove_ok h
  obtain ⟨hn, hat⟩ := named_of_entry ht he hdir
  refine ⟨.drop (hf _ hn.spot) hn.parent.1 ((isDirectoryAt_eq hat).trans hdir), ?_⟩
  rw [at?_drop, if_neg hn.parent.1, if_pos rfl]

/-- A file that is moved is what the path that it was moved to leads to. -/
theorem IsTree.grown_rename (ht : d.IsTree) {p' : Path} {content : ByteArray} {mode : Nat}
    (hf : ∀ x, d.Spot p x → files x) (hf' : ∀ x, d.Spot p' x → files x)
    (he : d.entry p = .ok (.file content mode)) (h : d.rename p p' = .ok d') :
    Grown files made d d' ∧ d'.entry p' = .ok (.file content mode) := by
  obtain ⟨hn', hdir', rfl⟩ := rename_ok ht h he
  obtain ⟨hn, hat⟩ := named_of_entry ht he rfl
  split
  · rename_i heq
    rw [heq] at hn'
    exact ⟨.refl d, hn'.entry hat⟩
  · rename_i hne
    have hdrop : Grown files made d (d.drop (d.placeOf p)) :=
      .drop (hf _ hn.spot) hn.parent.1 (isDirectoryAt_eq hat)
    have hnot : (d.drop (d.placeOf p)).isDirectoryAt (d.placeOf p') = false := by
      rw [isDirectoryAt, at?_drop_ne hne, ← isDirectoryAt, hdir']
    obtain ⟨hput, he'⟩ := (hdrop.named hn').put (e := .file content mode) (hf' _ hn'.spot) hnot rfl
    exact ⟨hdrop.trans hput, he'⟩

theorem IsTree.grown_makeDirectory (ht : d.IsTree) (hm : ∀ x, d.Above p x → made x)
    (h : d.makeDirectory p = .ok d') : Grown files made d d' := by
  obtain ⟨slashed, htarget, hat, rfl⟩ := makeDirectory_ok h
  obtain ⟨hne, hparent⟩ := ht.parent_of_target htarget hat
  exact .makeDirectory _ (hm _ (foldl_mem_visits _ _)) hne hparent hat

/-- Modes are no matter of where things stand. -/
theorem grown_mode {mode : Nat} (hf : files (d.placeOf p)) (h : d.chmod p mode = .ok d') : Grown files made d d' := by
  obtain ⟨e, he, rfl⟩ := chmod_ok h
  obtain ⟨q, hr, hat⟩ := entry_ok.1 he
  obtain rfl := resolve_eq hr
  have hsame : (e.withMode mode).isDirectory = e.isDirectory := by cases e <;> rfl
  have hdir (x : Place) : (d.put (d.placeOf p) (e.withMode mode)).isDirectoryAt x = d.isDirectoryAt x := by
    rw [isDirectoryAt_put]
    split
    · rename_i hx
      rw [hx, isDirectoryAt_nil]
    split
    · rename_i hx
      rw [hsame, hx, isDirectoryAt_eq hat]
    · rfl
  refine ⟨rfl, fun x hx => (hdir x).trans hx, fun x hx => .inl ((hdir x).symm.trans hx), ?_, ?_⟩
  · intro x hx
    refine .inl (at?_put_ne ?_)
    rintro rfl
    exact hx hf
  · intro ht x name hsome
    rw [hdir]
    by_cases hx : x ++ [name] = d.placeOf p
    · exact ht x name (by rw [hx, hat]; rfl)
    · exact ht x name (at?_put_ne hx ▸ hsome)

theorem IsTree.chmod {mode : Nat} (ht : d.IsTree) (h : d.chmod p mode = .ok d') : d'.IsTree := by
  have hg : Grown (fun _ => True) nowhere d d' := grown_mode trivial h
  exact hg.isTree ht

/-- The parent's directories are among those of a path. -/
theorem above_of_parent? {p' : Path} (h : p.parent? = some p') {x : Place} (hx : d.Above p' x) :
    d.Above p x := by
  obtain ⟨hnames, habs, -⟩ := Path.names_of_parent? h
  rw [Above, base, habs, hnames] at hx
  rw [Above, base]
  rcases List.eq_nil_or_concat p.names with hnil | ⟨front, last, hconcat⟩
  · rwa [hnil] at hx ⊢
  · rw [hconcat, List.concat_eq_append, List.dropLast_concat] at hx
    rw [hconcat, List.concat_eq_append]
    exact visits_append _ _ _ hx

theorem Grown.above_iff (h : Grown files made d d') (p : Path) (x : Place) : d'.Above p x ↔ d.Above p x := by
  rw [Above, Above, h.base_eq]

theorem IsTree.grown_makeDirectories (ht : d.IsTree)
    (hm : p.text ≠ "" → ∀ x, d.Above p x → made x) (fuel : Nat) :
    Grown files made d (makeDirectories fuel d p).2 := by
  induction fuel generalizing p with
  | zero =>
    unfold makeDirectories
    split
    · exact .refl d
    rename_i htext
    split
    · rename_i h
      exact ht.grown_makeDirectory (hm htext) h
    · exact .refl d
    · split <;> exact .refl d
  | succ fuel ih =>
    unfold makeDirectories
    split
    · exact .refl d
    rename_i htext
    split
    · rename_i h
      exact ht.grown_makeDirectory (hm htext) h
    · cases hparent : p.parent? with
      | none => exact .refl d
      | some p' =>
        have hrec := ih (p := p') fun _ x hx => hm htext x (above_of_parent? hparent hx)
        dsimp only
        cases hm' : makeDirectories fuel d p' with
        | mk r d₁ =>
          rw [hm'] at hrec
          cases r with
          | error e => exact hrec
          | ok u =>
            dsimp only
            split
            · rename_i h
              refine hrec.trans ((hrec.isTree ht).grown_makeDirectory (fun x hx => ?_) h)
              exact hm htext x ((hrec.above_iff p x).1 hx)
            · split <;> exact hrec
    · split <;> exact .refl d

theorem IsTree.grown_ensureDirectory (ht : d.IsTree) (hm : p.text ≠ "" → ∀ x, d.Above p x → made x) :
    Grown files made d (d.ensureDirectory p).2 :=
  ht.grown_makeDirectories hm _

end

end DeviceSettings.Disk

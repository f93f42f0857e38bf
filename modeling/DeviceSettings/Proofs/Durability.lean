import DeviceSettings.Proofs.Documents
import DeviceSettings.Proofs.Saving

/-!
# Preferences last

Whatever saves fail, opening the file of some preferences again gives the values that they had when they
were last saved (`Preferences.Use.durable`).  One save is treated once (`save_cases`): it succeeds and the
file holds the values, or it fails and the file is as it was.
-/

namespace DeviceSettings

open Disk (Grown Steady)

theorem Disk.readText_of_entry {d : Disk} {p : Path} {s : String} {mode : Nat}
    (h : d.entry p = .ok (.file s.toUTF8 mode)) : d.readText p = .ok s := by
  rw [readText, bind_eq_ok]
  refine ⟨_, read_ok.mpr ⟨mode, h⟩, ?_⟩
  rw [Text.fromUTF8?_toUTF8]

theorem Disk.readText_congr {d d' : Disk} {p : Path} (h : d'.entry p = d.entry p) :
    d'.readText p = d.readText p := by
  rw [readText, readText, read, read, openToRead, openToRead, h]

theorem Disk.entry_of_readText {d : Disk} {p : Path} {s : String} (h : d.readText p = .ok s) :
    ∃ content mode, d.entry p = .ok (.file content mode) := by
  obtain ⟨content, hread, -⟩ := bind_eq_ok.1 h
  exact ⟨content, read_ok.mp hread⟩

namespace Preferences

/-! ## opening -/

theorem openFile_of_absent {p : Path} {d : Disk} (h : d.exists_ p = false) :
    openFile p d = .ok ⟨some p, .empty, none⟩ := by
  rw [openFile, h]
  rfl

theorem openFile_of_entry {p : Path} {d : Disk} {moment : Timestamp} {values : Table Key Value}
    {mode : Nat} (hm : moment.IsValid) (h : d.entry p = .ok (.file (print moment values).toUTF8 mode)) :
    openFile p d = .ok ⟨some p, values, some moment⟩ := by
  have hparse := parse_print hm values
  rw [openFile, Disk.exists_of_entry h, Disk.readText_of_entry h, if_neg (by decide)]
  generalize print moment values = text at hparse ⊢
  dsimp only
  rw [hparse]

theorem openFile_congr {p : Path} {d d' : Disk} (h : d'.entry p = d.entry p) :
    openFile p d' = openFile p d := by
  rw [openFile, openFile, Disk.exists_, Disk.exists_, Disk.readText_congr h, h]

/-- What opens is a file, or is not there. -/
theorem openFile_ok {p : Path} {d : Disk} {s : Preferences} (h : openFile p d = .ok s) :
    (d.exists_ p = false ∧ s = ⟨some p, .empty, none⟩)
      ∨ s.path = some p ∧ ∃ content mode, d.entry p = .ok (.file content mode) := by
  cases he : d.exists_ p with
  | false =>
    rw [openFile_of_absent he] at h
    exact .inl ⟨rfl, (Except.ok.inj h).symm⟩
  | true =>
    obtain ⟨e, hentry⟩ := Disk.entry_of_exists he
    rw [openFile, he, if_neg (by decide)] at h
    split at h
    · cases h
    · rename_i text htext
      have hfile := Disk.entry_of_readText htext
      split at h
      · cases h
      · cases h
        exact .inr ⟨rfl, hfile⟩

/-! ## one save -/

/-- The file is there, or no `..` of its path leaves a directory that a save would make. -/
def Findable (p : Path) (d : Disk) : Prop := d.exists_ p = true ∨ Steady (d.Makes p) d p

/-- A save succeeds and its file opens as the preferences, or it fails and leaves its file alone. -/
theorem save_cases {s : Preferences} {p : Path} {d : Device} (hp : s.path = some p)
    (ht : d.disk.IsTree) (hc : d.clock.IsValid) :
    (∃ d', s.save d = (.ok (), { s with savedAt := some d.clock }, d') ∧ d'.disk.IsTree
        ∧ d'.disk.exists_ p = true
        ∧ openFile p d'.disk = .ok ⟨some p, s.values, some d.clock⟩)
      ∨ ∃ e d', s.save d = (.error e, s, d')
        ∧ Grown (d.disk.Spot (temporary p)) (d.disk.Makes p) d.disk d'.disk := by
  have hplan : savePlan p d.clock s.values = Device.savePlan p (temporary p)
      (print d.clock s.values).toUTF8 (some Device.privateMode) := rfl
  rw [save, hp]
  dsimp only
  rw [hplan]
  have hclock := Device.clock_carryOut (Device.savePlan p (temporary p)
    (print d.clock s.values).toUTF8 (some Device.privateMode)) d
  rcases @Device.carryOut_savePlan d p (temporary p) (print d.clock s.values).toUTF8
    (some Device.privateMode) ht with ⟨d', hrun, hg, mode, he⟩ | ⟨f, d', hrun, hg⟩
  · rw [hrun] at hclock ⊢
    dsimp only
    rw [hclock]
    exact .inl ⟨d', rfl, hg.isTree ht, Disk.exists_of_entry he, openFile_of_entry hc he⟩
  · rw [hrun]
    exact .inr ⟨_, d', rfl, hg⟩

/-- After a save that failed the file opens as before. -/
theorem openFile_again {s : Preferences} {p : Path} {d d' : Disk} (ht : d.IsTree)
    (hg : Grown (d.Spot (temporary p)) (d.Makes p) d d') (hf : Findable p d)
    (h : openFile p d = .ok s) : openFile p d' = .ok s ∧ Findable p d' := by
  rcases openFile_ok h with ⟨habsent, rfl⟩ | ⟨-, content, mode, he⟩
  · have hs : Steady (d.Makes p) d p := by
      rcases hf with hthere | hs
      · rw [habsent] at hthere
        cases hthere
      · exact hs
    have habsent' : d'.exists_ p = false := by
      refine Bool.eq_false_iff.2 fun he => ?_
      rw [ht.exists_before hg (Disk.spares_temporary d p) hs he] at habsent
      cases habsent
    refine ⟨openFile_of_absent habsent', .inr fun x hx hm => ?_⟩
    exact hg.steady hs x hx ((hg.makes_iff p x).1 hm)
  · have he' := ht.entry_again hg (Disk.spares_temporary d p) he rfl
    exact ⟨(openFile_congr (he'.trans he.symm)).trans h, .inl (Disk.exists_of_entry he')⟩

/-! ## runs -/

/-- What is done to preferences. -/
inductive Act
  | set (key : Key) (v : Value)
  | setSwitch (key : Key) (on : Bool)
  | setText (key : Key) (s : String)
  | remove (key : Key)

namespace Act

def run (a : Act) (s : Preferences) (d : Device) : Except StoreError Unit × Preferences × Device :=
  match a with
  | set key v => s.set key v d
  | setSwitch key on => s.set key (.switch on) d
  | setText key t => s.set key (.text t) d
  | remove key =>
    let (r, s, d) := s.remove key d
    (r.map fun _ => (), s, d)

/-- What it does to a plain map. -/
def onMap (a : Act) (m : Key → Option Value) (k : Key) : Option Value :=
  match a with
  | set key v => if k = key then some v else m k
  | setSwitch key on => if k = key then some (.switch on) else m k
  | setText key t => if k = key then some (.text t) else m k
  | remove key => if k = key then none else m k

/-- Is anything to be saved? -/
def saves (a : Act) (s : Preferences) : Bool :=
  match a with
  | remove key => s.contains key
  | _ => true

/-- An act saves the values that it leaves, or has nothing to do. -/
theorem run_cases (a : Act) (s : Preferences) (d : Device) :
    (a.saves s = false ∧ a.run s d = (.ok (), s, d) ∧ ∀ k, s.get? k = a.onMap s.get? k)
      ∨ ∃ values, a.saves s = true ∧ a.run s d = save { s with values } d
        ∧ ∀ k, values.get? k = a.onMap s.get? k := by
  cases a with
  | set key v => exact .inr ⟨_, rfl, rfl, fun k => Table.get?_insert s.values key k v⟩
  | setSwitch key on => exact .inr ⟨_, rfl, rfl, fun k => Table.get?_insert s.values key k _⟩
  | setText key t => exact .inr ⟨_, rfl, rfl, fun k => Table.get?_insert s.values key k _⟩
  | remove key =>
    cases hold : s.get? key with
    | none =>
      left
      refine ⟨?_, ?_, fun k => ?_⟩
      · show (s.get? key).isSome = false
        rw [hold]
        rfl
      · rw [run, Preferences.remove, hold]
        rfl
      · rw [onMap]
        split
        · rename_i hk
          rw [hk, hold]
        · rfl
    | some old =>
      right
      refine ⟨s.values.erase key, ?_, ?_, fun k => Table.get?_erase s.values key k⟩
      · show (s.get? key).isSome = true
        rw [hold]
        rfl
      · rw [run, Preferences.remove, hold]
        dsimp only
        cases hsave : save { s with values := s.values.erase key } d with
        | mk r sd => cases r <;> rfl

end Act

/-- An act at a moment, and what the system refuses in it. -/
structure Call where
  act : Act
  moment : Timestamp
  refusals : List (Option OsError)

/-- Preferences in use, with what their last successful save put into the file. -/
structure Use where
  store : Preferences
  device : Device
  saved : Table Key Value
  savedAt : Option Timestamp

namespace Use

/-- Preferences that were just opened. -/
def opened (s : Preferences) (d : Device) : Use := ⟨s, d, s.values, s.savedAt⟩

def step (u : Use) (c : Call) : Use :=
  match c.act.run u.store { u.device with clock := c.moment, refusals := c.refusals } with
  | (.ok _, s, d) =>
    if c.act.saves u.store then ⟨s, d, s.values, some c.moment⟩ else { u with store := s, device := d }
  | (.error _, s, d) => { u with store := s, device := d }

def run (u : Use) (cs : List Call) : Use := cs.foldl step u

/-- The file opens as what was saved last. -/
structure IsDurable (p : Path) (u : Use) : Prop where
  path : u.store.path = some p
  isTree : u.device.disk.IsTree
  findable : Findable p u.device.disk
  opens : openFile p u.device.disk = .ok ⟨some p, u.saved, u.savedAt⟩
  savedAt : u.store.savedAt = u.savedAt

theorem IsDurable.step {p : Path} {u : Use} (h : u.IsDurable p) {c : Call} (hc : c.moment.IsValid) :
    (u.step c).IsDurable p := by
  rcases c.act.run_cases u.store { u.device with clock := c.moment, refusals := c.refusals }
    with ⟨hsaves, hrun, -⟩ | ⟨values, hsaves, hrun, -⟩
  · rw [Use.step, hrun]
    dsimp only
    rw [hsaves, if_neg Bool.false_ne_true]
    exact ⟨h.path, h.isTree, h.findable, h.opens, h.savedAt⟩
  · have hcases := save_cases (s := { u.store with values }) h.path
      (d := { u.device with clock := c.moment, refusals := c.refusals }) h.isTree hc
    rcases hcases with ⟨d', hsave, ht, he, hopens⟩ | ⟨e, d', hsave, hg⟩
    · rw [Use.step, hrun, hsave]
      dsimp only
      rw [hsaves, if_pos rfl]
      exact ⟨h.path, ht, .inl he, hopens, rfl⟩
    · rw [Use.step, hrun, hsave]
      obtain ⟨hopens, hf⟩ := openFile_again h.isTree hg h.findable h.opens
      exact ⟨h.path, hg.isTree h.isTree, hf, hopens, h.savedAt⟩

theorem IsDurable.run {p : Path} {u : Use} (h : u.IsDurable p) {cs : List Call}
    (hc : ∀ c ∈ cs, c.moment.IsValid) : (u.run cs).IsDurable p := by
  induction cs generalizing u with
  | nil => exact h
  | cons c cs ih =>
    exact ih (h.step (hc c List.mem_cons_self)) fun c hm => hc c (List.mem_cons_of_mem _ hm)

/-- In memory no act is lost, whether or not it is saved. -/
theorem get?_step (u : Use) (c : Call) (k : Key) :
    (u.step c).store.get? k = c.act.onMap u.store.get? k := by
  rcases c.act.run_cases u.store { u.device with clock := c.moment, refusals := c.refusals }
    with ⟨hsaves, hrun, hget⟩ | ⟨values, hsaves, hrun, hget⟩
  · rw [step, hrun]
    dsimp only
    rw [hsaves, if_neg Bool.false_ne_true]
    exact hget k
  · have hvalues := values_save { u.store with values }
      { u.device with clock := c.moment, refusals := c.refusals }
    rw [← hrun] at hvalues
    rw [← hget k, step]
    split
    · rename_i heq
      rw [heq] at hvalues
      rw [hsaves, if_pos rfl]
      exact congrArg (·.get? k) hvalues
    · rename_i heq
      rw [heq] at hvalues
      exact congrArg (·.get? k) hvalues

theorem get?_run (u : Use) (cs : List Call) :
    (u.run cs).store.get? = cs.foldl (fun m c => c.act.onMap m) u.store.get? := by
  induction cs generalizing u with
  | nil => rfl
  | cons c cs ih =>
    have hstep : (u.step c).store.get? = c.act.onMap u.store.get? := funext (get?_step u c)
    rw [List.foldl_cons, ← hstep]
    exact ih (u.step c)

/-- Preferences without a file leave all files alone. -/
theorem disk_step {u : Use} (h : u.store.path = none) (c : Call) :
    (u.step c).store.path = none ∧ (u.step c).device.disk = u.device.disk := by
  rcases c.act.run_cases u.store { u.device with clock := c.moment, refusals := c.refusals }
    with ⟨hsaves, hrun, -⟩ | ⟨values, hsaves, hrun, -⟩
  · rw [step, hrun]
    dsimp only
    rw [hsaves, if_neg Bool.false_ne_true]
    exact ⟨h, rfl⟩
  · rw [step, hrun, save, h]
    dsimp only
    rw [hsaves, if_pos rfl]
    exact ⟨rfl, rfl⟩

theorem disk_run {u : Use} (h : u.store.path = none) (cs : List Call) :
    (u.run cs).device.disk = u.device.disk := by
  induction cs generalizing u with
  | nil => rfl
  | cons c cs ih =>
    obtain ⟨hpath, hdisk⟩ := disk_step h c
    exact (ih hpath).trans hdisk

/-- Over any run, with any saves failing: in memory stands what all acts together made of the values, and in
the file what the last successful save put there, or what was opened; removing what is not there does
nothing, and a detached copy begins with the same values and changes no file. -/
theorem durable {path : Path} {s : Preferences} {d : Device} (ht : d.disk.IsTree)
    (hf : Findable path d.disk) (hopen : openFile path d.disk = .ok s) (cs : List Call)
    (hc : ∀ c ∈ cs, c.moment.IsValid) :
    let u := (opened s d).run cs
    u.store.get? = cs.foldl (fun m c => c.act.onMap m) s.get?
      ∧ u.store.savedAt = u.savedAt
      ∧ openFile path u.device.disk = .ok ⟨some path, u.saved, u.savedAt⟩
      ∧ (∀ key, u.store.get? key = none → u.store.remove key u.device = (.ok none, u.store, u.device))
      ∧ u.store.detached.get? = u.store.get?
      ∧ ∀ more, ((opened u.store.detached u.device).run more).device.disk = u.device.disk := by
  have hpath : s.path = some path := by
    rcases openFile_ok hopen with ⟨-, rfl⟩ | ⟨hpath, -⟩
    · rfl
    · exact hpath
  have hs : s = ⟨some path, s.values, s.savedAt⟩ := by rw [← hpath]
  have hopened : (opened s d).IsDurable path := ⟨hpath, ht, hf, hopen.trans (congrArg _ hs), rfl⟩
  have hrun := hopened.run hc
  refine ⟨get?_run _ cs, hrun.savedAt, hrun.opens, fun key hnone => ?_, rfl, fun more => disk_run rfl more⟩
  rw [Preferences.remove, hnone]

/-- Midday of a day. -/
def midday : Timestamp := ⟨⟨2024, 5, 17⟩, 12, 0, 0, 0⟩

theorem isValid_midday : midday.IsValid := ⟨rfl, by decide, by decide, by decide, by decide⟩

/-- One save fails and the next succeeds. -/
theorem durable_first_refused :
    let path : Path := ⟨"h/prefs.json"⟩
    let u := (opened ⟨some path, .empty, none⟩ ⟨⟨.empty, []⟩, midday, []⟩).run
      [⟨.setText "k" "true", midday, [some .noTree]⟩, ⟨.setSwitch "l" true, midday, []⟩,
        ⟨.remove "k", midday, [some .noTree]⟩]
    u.store.get? "k" = none ∧ openFile path u.device.disk = .ok ⟨some path, u.saved, u.savedAt⟩
      ∧ u.saved.entries = [("k", .text "true"), ("l", .switch true)] := by
  have h := @durable ⟨"h/prefs.json"⟩ _ ⟨⟨.empty, []⟩, midday, []⟩ (Disk.isTree_empty []) (.inr nofun) rfl
    [⟨.setText "k" "true", midday, [some .noTree]⟩, ⟨.setSwitch "l" true, midday, []⟩,
      ⟨.remove "k", midday, [some .noTree]⟩]
    (by simp [isValid_midday])
  exact ⟨congrFun h.1 "k", h.2.2.1, rfl⟩

/-- A save that goes up out of the directory that it makes finds that directory in place of its file. -/
theorem lost_in_directory :
    let path : Path := ⟨"m/../m"⟩
    let u := (opened ⟨some path, .empty, none⟩ ⟨⟨.empty, []⟩, midday, []⟩).run
      [⟨.set "k" (.switch true), midday, []⟩]
    openFile path ⟨.empty, []⟩ = .ok ⟨some path, .empty, none⟩
      ∧ openFile path u.device.disk ≠ .ok ⟨some path, u.saved, u.savedAt⟩ := by
  have hdir : openFile ⟨"m/../m"⟩ ((opened ⟨some ⟨"m/../m"⟩, .empty, none⟩ ⟨⟨.empty, []⟩, midday, []⟩).run
      [⟨.set "k" (.switch true), midday, []⟩]).device.disk = .error (.io .isDirectory) := rfl
  refine ⟨rfl, fun h => ?_⟩
  cases hdir.symm.trans h

end Use

end Preferences

end DeviceSettings

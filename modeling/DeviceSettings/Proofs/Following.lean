import DeviceSettings.Proofs.Filing
import Mathlib.Data.List.Induction

/-!
# The session file follows memory

Threads that bring controls in line with their gates share the pending choices and the disk.  Each holds the
choices for the whole of a call, so what happens is a run of calls one after another, in any order.  After every
save that succeeds the file says what is in memory (`Gate.Shared.file_follows`).
-/

namespace DeviceSettings

open Disk (Grown Steady)

/-! ## memory -/

namespace Stores

/-- The same in memory; the files and the devices may differ. -/
structure SameMemory (s t : Stores) : Prop where
  values : t.preferences.values = s.preferences.values
  choices : t.pending.choices = s.pending.choices

namespace SameMemory

variable {s t : Stores}

theorem getSwitch (h : s.SameMemory t) (key : Key) (on : Bool) :
    t.preferences.getSwitch key on = s.preferences.getSwitch key on := by
  rw [Preferences.getSwitch, Preferences.getSwitch, Preferences.get?, Preferences.get?, h.values]

theorem get? (h : s.SameMemory t) (key : Key) : t.pending.get? key = s.pending.get? key := by
  rw [Pending.get?, Pending.get?, h.choices]

theorem put (h : s.SameMemory t) (key : Key) (v : Value) : (s.put key v).SameMemory (t.put key v) := by
  refine ⟨?_, h.choices⟩
  rw [values_put, values_put, h.values]

theorem setPending (h : s.SameMemory t) {p q : Pending} (hpq : q.choices = p.choices) :
    (s.setPending p).SameMemory (t.setPending q) :=
  ⟨h.values, hpq⟩

end SameMemory

end Stores

/-! ## the stages of a call -/

namespace Gate

open Stores (Saves)

/-- The pending choices that are saved, if any are. -/
def next? (key : Key) (isOpen : Bool) (c : Control) (s : Stores) : Option Pending :=
  if isOpen then (s.pending.get? key).map fun _ => s.pending.erase key
  else if c.enabled && c.checked then some (s.pending.insert key .taken)
  else none

/-- What is done before: a choice that comes back is stored. -/
def opening (key : Key) (isOpen : Bool) (s : Stores) : Stores :=
  match isOpen, s.pending.get? key with
  | true, some choice =>
    if choice.restore && choice.prior != s.preferences.getSwitch key false then s.put key (.switch choice.prior)
    else s
  | _, _ => s

/-- What is done after: a setting that is on is stored as off when it is shut out. -/
def closing (key : Key) (isOpen stored : Bool) (s : Stores) : Stores :=
  if !isOpen && stored then s.put key (.switch false) else s

def saving (key : Key) (isOpen : Bool) (c : Control) (s : Stores) : Stores :=
  match next? key isOpen c s with
  | some p => (opening key isOpen s).setPending p
  | none => opening key isOpen s

variable (key k : Key) (isOpen : Bool) (c : Control) (s : Stores)

/-- A reconciliation is its three stages. -/
theorem stores_reconcile : (reconcile key isOpen c s).2.2
    = closing key isOpen (s.preferences.getSwitch key false) (saving key isOpen c s) := by
  cases isOpen with
  | true =>
    show (letIn key c s).2 = saving key true c s
    unfold letIn saving next? opening
    cases hp : s.pending.get? key with
    | none => rfl
    | some choice =>
      have hpending (b : Bool) (v : Value) : (if b then s.put key v else s).pending = s.pending := by
        cases b <;> rfl
      dsimp only
      rw [hpending, if_pos rfl, Option.map_some]
  | false =>
    show (shutOut key c s).2 = _
    unfold shutOut closing saving next? opening
    dsimp only
    rw [if_neg Bool.false_ne_true]
    cases c.enabled && c.checked <;> rfl

theorem opening_eq_or_put : opening key isOpen s = s ∨ ∃ on, opening key isOpen s = s.put key (.switch on) := by
  unfold opening
  split
  · split
    · exact .inr ⟨_, rfl⟩
    · exact .inl rfl
  · exact .inl rfl

theorem tree_opening (ht : s.disk.IsTree) :
    Grown (fun _ => True) (fun _ => True) s.disk (opening key isOpen s).disk
      ∧ (opening key isOpen s).device.clock = s.device.clock
      ∧ (opening key isOpen s).device.refusals <:+ s.device.refusals
      ∧ (opening key isOpen s).preferences.path = s.preferences.path := by
  rcases opening_eq_or_put key isOpen s with heq | ⟨on, heq⟩ <;> rw [heq]
  · exact ⟨.refl _, rfl, List.suffix_refl _, rfl⟩
  · exact ⟨(Stores.grown_put ht _ _).anywhere, Preferences.clock_save _ _, Preferences.refusals_save _ _,
      Change.path_put s _ _⟩

theorem closing_eq_or_put (stored : Bool) : closing key isOpen stored s = s
    ∨ isOpen = false ∧ closing key isOpen stored s = s.put key (.switch false) := by
  unfold closing
  split
  · rename_i h
    exact .inr ⟨by simpa using (Bool.and_eq_true_iff.mp h).1, rfl⟩
  · exact .inl rfl

variable {key k isOpen c s}

theorem path_of_next? {p : Pending} (h : next? key isOpen c s = some p) : p.path = s.pending.path := by
  unfold next? at h
  split at h
  · obtain ⟨_, -, rfl⟩ := Option.map_eq_some_iff.mp h
    rfl
  · split at h
    · cases h
      rfl
    · cases h

theorem isEmpty_of_next? {p : Pending} (h : next? key false c s = some p) : p.choices.isEmpty = false := by
  unfold next? at h
  rw [if_neg Bool.false_ne_true] at h
  split at h
  · cases h
    exact Pending.isEmpty_insert _ _ _
  · cases h

/-- With nothing to be saved nothing comes back. -/
theorem saving_of_none (h : next? key isOpen c s = none) : saving key isOpen c s = s := by
  unfold saving
  rw [h]
  unfold next? at h
  cases isOpen with
  | false => rfl
  | true =>
    rw [if_pos rfl, Option.map_eq_none_iff] at h
    unfold opening
    rw [h]

/-- After a save that succeeds the session file says what the choices are, unless the preferences are kept in its
place. -/
theorem isFiled_reconcile {path : Path} {p : Pending} (hpath : s.pending.path = some path) (ht : s.disk.IsTree)
    (hc : s.device.clock.IsValid) (hr : some .notFound ∉ s.device.refusals)
    (hnext : next? key isOpen c s = some p) (hsaved : (p.save (opening key isOpen s).device).1 = .ok ())
    (hk : ¬s.preferences.KeptAt s.disk (s.disk.placeOf path)) :
    (reconcile key isOpen c s).2.2.pending.IsFiled path (reconcile key isOpen c s).2.2.disk := by
  have hp : p.path = some path := (path_of_next? hnext).trans hpath
  have hsaving : saving key isOpen c s = (opening key isOpen s).setPending p := by rw [saving, hnext]
  obtain ⟨hopening, hclock, hrefusals, hprefs⟩ := tree_opening key isOpen s ht
  have hg : Grown (fun _ => True) (fun _ => True) s.disk ((opening key isOpen s).setPending p).disk :=
    hopening.trans (Pending.grown_save hp (hopening.isTree ht)).anywhere
  have hfiled : p.IsFiled path ((opening key isOpen s).setPending p).disk :=
    Pending.isFiled_of_saved hp (hopening.isTree ht) (hclock ▸ hc) (fun h => hr (hrefusals.subset h)) hsaved
  rw [stores_reconcile, hsaving]
  rcases closing_eq_or_put key isOpen ((opening key isOpen s).setPending p)
    (s.preferences.getSwitch key false) with heq | ⟨hopen, heq⟩ <;> rw [heq]
  · exact hfiled
  · -- the preferences are saved after the choices, of which there is one then
    subst hopen
    refine hfiled.again (isEmpty_of_next? hnext) (Stores.grown_put (hg.isTree ht) _ _) fun hk' => hk ?_
    rw [hg.placeOf_eq] at hk'
    exact (Preferences.keptAt_iff hg hprefs _).mp hk'

/-! ### memory -/

variable {t : Stores} (key c)

theorem letIn_congr (h : s.SameMemory t) :
    (letIn key c t).1 = (letIn key c s).1 ∧ (letIn key c s).2.SameMemory (letIn key c t).2 := by
  unfold letIn
  rw [h.getSwitch, h.get?]
  cases s.pending.get? key with
  | none => exact ⟨rfl, h⟩
  | some choice =>
    have herase : (t.pending.erase key).choices = (s.pending.erase key).choices := by
      rw [Pending.erase, Pending.erase, h.choices]
    dsimp only
    cases choice.restore && choice.prior != s.preferences.getSwitch key false with
    | true => exact ⟨rfl, (h.put _ _).setPending herase⟩
    | false => exact ⟨rfl, h.setPending herase⟩

theorem shutOut_congr (h : s.SameMemory t) : (shutOut key c s).2.SameMemory (shutOut key c t).2 := by
  have hinsert : (t.pending.insert key .taken).choices = (s.pending.insert key .taken).choices := by
    rw [Pending.insert, Pending.insert, h.choices]
  have htaken := h.setPending hinsert
  unfold shutOut
  rw [h.getSwitch]
  cases c.enabled && c.checked with
  | true =>
    cases s.preferences.getSwitch key false with
    | true => exact htaken.put _ _
    | false => exact htaken
  | false =>
    cases s.preferences.getSwitch key false with
    | true => exact h.put _ _
    | false => exact h

/-- What a reconciliation comes to in memory depends on the values and the choices only. -/
theorem reconcile_congr (isOpen : Bool) (h : s.SameMemory t) :
    (reconcile key isOpen c t).1 = (reconcile key isOpen c s).1
      ∧ (reconcile key isOpen c t).2.1 = (reconcile key isOpen c s).2.1
      ∧ (reconcile key isOpen c s).2.2.SameMemory (reconcile key isOpen c t).2.2 := by
  cases isOpen with
  | true =>
    obtain ⟨hcontrol, hsame⟩ := letIn_congr key c h
    exact ⟨rfl, hcontrol, hsame⟩
  | false =>
    have hsame := shutOut_congr key c h
    refine ⟨?_, rfl, hsame⟩
    show State.disabled (((shutOut key c t).2.pending.get? key).any _) = _
    rw [hsame.get?]
    rfl

/-! ## calls -/

/-- A reconciliation: what a thread brings to it, and what the system refuses in it. -/
structure Call where
  key : Key
  isOpen : Bool
  control : Control
  preferences : Preferences
  moment : Timestamp
  refusals : List (Option OsError)
  isValid : moment.IsValid
  /-- the system calls missing only what is missing -/
  isHonest : some .notFound ∉ refusals

structure Shared where
  pending : Pending
  disk : Disk

/-- The memory of a call: what it brings, and what it finds. -/
structure Result where
  state : State
  control : Control
  values : Table Key Value

namespace Call

/-- A control that is on is shut out; that it was on becomes pending. -/
def Takes (c : Call) : Prop := c.isOpen = false ∧ c.control.enabled = true ∧ c.control.checked = true

/-- A control for which something is pending is let in. -/
def Consumes (c : Call) (p : Pending) : Prop := c.isOpen = true ∧ p.get? c.key ≠ none

def device (c : Call) (d : Disk) : Device := ⟨d, c.moment, c.refusals⟩

/-- A device on which the call has saved the preferences that it brings, or nothing. -/
def KeepsTo (c : Call) (d : Disk) (after : Device) : Prop :=
  after = c.device d ∨ ∃ on, after = (c.preferences.put c.key (.switch on) (c.device d)).2

/-- The preferences have no file at the place of a session file, and no directory on the way to theirs. -/
structure Apart (c : Call) (path : Path) (d : Disk) : Prop where
  file : ¬c.preferences.KeptAt d (d.placeOf path)
  directory : ¬c.preferences.MadeAt d (d.placeOf path)

end Call

namespace Shared

/-- The choices that are never written back. -/
def detached (u : Shared) : Shared := { u with pending := u.pending.detached }

def stores (u : Shared) (c : Call) : Stores := ⟨c.preferences, u.pending, c.device u.disk⟩

def call (u : Shared) (c : Call) : State × Control × Stores := reconcile c.key c.isOpen c.control (u.stores c)

def result (u : Shared) (c : Call) : Result :=
  let (state, control, s) := u.call c
  ⟨state, control, s.preferences.values⟩

def step (u : Shared) (c : Call) : Shared :=
  let (_, _, s) := u.call c
  ⟨s.pending, s.disk⟩

/-- What the save of the session file comes to, if the call makes one. -/
def saved? (u : Shared) (c : Call) : Option (Except DeviceError Unit) :=
  (next? c.key c.isOpen c.control (u.stores c)).map fun p =>
    (p.save (opening c.key c.isOpen (u.stores c)).device).1

/-- Calls one after another.  A call holds the choices until it is done, so whatever the threads are and however
they take turns, this is what happens; the calls of one thread need not stand together. -/
def run (u : Shared) (cs : List Call) : Shared := cs.foldl step u

def results (u : Shared) : List Call → List Result
  | [] => []
  | c :: cs => u.result c :: (u.step c).results cs

def saves (u : Shared) : List Call → List (Except DeviceError Unit)
  | [] => []
  | c :: cs => (u.saved? c).toList ++ (u.step c).saves cs

theorem run_concat (u : Shared) (cs : List Call) (c : Call) : u.run (cs ++ [c]) = (u.run cs).step c := by
  rw [run, List.foldl_append]
  rfl

theorem saves_concat (u : Shared) (cs : List Call) (c : Call) :
    u.saves (cs ++ [c]) = u.saves cs ++ ((u.run cs).saved? c).toList := by
  induction cs generalizing u with
  | nil => exact List.append_nil _
  | cons x cs ih =>
    rw [List.cons_append, saves, saves, ih, List.append_assoc]
    rfl

variable {u w : Shared} {c : Call} {path : Path}

/-! ## the memory of calls -/

theorem taken_of_step {k : Key} {choice : PendingChoice} (h : (u.step c).pending.get? k = some choice) :
    u.pending.get? k = some choice ∨ choice = .taken := by
  replace h : (reconcile c.key c.isOpen c.control (u.stores c)).2.2.pending.get? k = some choice := h
  cases hopen : c.isOpen with
  | true =>
    rw [hopen] at h
    replace h := (letIn_pending c.key k c.control (u.stores c)).symm.trans h
    split at h
    · cases h
    · exact .inl h
  | false =>
    rw [hopen] at h
    replace h := (shutOut_pending c.key k c.control (u.stores c)).symm.trans h
    split at h
    · exact .inr (Option.some.inj h).symm
    · exact .inl h

/-- Where the choices are kept and what the disk holds is nothing to the memory. -/
theorem results_congr (h : w.pending.choices = u.pending.choices) (cs : List Call) :
    w.results cs = u.results cs ∧ (w.run cs).pending.choices = (u.run cs).pending.choices := by
  induction cs generalizing u w with
  | nil => exact ⟨rfl, h⟩
  | cons c cs ih =>
    have hsame : (u.stores c).SameMemory (w.stores c) := ⟨rfl, h⟩
    obtain ⟨hstate, hcontrol, hafter⟩ := reconcile_congr c.key c.control c.isOpen hsame
    obtain ⟨hresults, hrun⟩ := ih (w := w.step c) (u := u.step c) hafter.choices
    refine ⟨?_, hrun⟩
    have hresult : w.result c = u.result c := by
      show Result.mk (w.call c).1 (w.call c).2.1 (w.call c).2.2.preferences.values
        = Result.mk (u.call c).1 (u.call c).2.1 (u.call c).2.2.preferences.values
      rw [call, call, hstate, hcontrol, hafter.values]
    rw [results, results, hresult, hresults]

/-! ## the disk of calls -/

theorem saves_call (u : Shared) (c : Call) : (u.stores c).Saves (u.call c).2.2 :=
  saves_reconcile c.key c.control (u.stores c) c.isOpen

theorem tree_run (ht : u.disk.IsTree) (cs : List Call) :
    Grown (fun _ => True) (fun _ => True) u.disk (u.run cs).disk
      ∧ (u.run cs).pending.path = u.pending.path := by
  induction cs generalizing u with
  | nil => exact ⟨.refl _, rfl⟩
  | cons c cs ih =>
    obtain ⟨hfirst, hpath⟩ := (saves_call u c).tree ht
    obtain ⟨hrest, hpaths⟩ := ih (u := u.step c) (hfirst.isTree ht)
    exact ⟨hfirst.trans hrest, hpaths.trans hpath⟩

theorem isFiled_step (hpath : u.pending.path = some path) (ht : u.disk.IsTree)
    (hs : u.saved? c = some (.ok ())) (hk : ¬c.preferences.KeptAt u.disk (u.disk.placeOf path)) :
    (u.step c).pending.IsFiled path (u.step c).disk := by
  obtain ⟨p, hnext, hsaved⟩ := Option.map_eq_some_iff.mp hs
  exact isFiled_reconcile hpath ht c.isValid c.isHonest hnext hsaved hk

theorem call_of_none (hn : next? c.key c.isOpen c.control (u.stores c) = none) :
    (u.call c).2.2 = u.stores c ∨ (u.call c).2.2 = (u.stores c).put c.key (.switch false) := by
  have hstores : (u.call c).2.2 = _ := stores_reconcile c.key c.isOpen c.control (u.stores c)
  rw [saving_of_none hn] at hstores
  rw [hstores]
  exact (closing_eq_or_put c.key c.isOpen (u.stores c) _).imp_right And.right

theorem keepsTo_of_none (hn : next? c.key c.isOpen c.control (u.stores c) = none) :
    c.KeepsTo u.disk (u.call c).2.2.device := by
  rcases call_of_none hn with heq | heq <;> rw [heq]
  · exact .inl rfl
  · exact .inr ⟨false, rfl⟩

theorem grown_of_none (ht : u.disk.IsTree) (hn : next? c.key c.isOpen c.control (u.stores c) = none) :
    Grown (c.preferences.KeptAt u.disk) (c.preferences.MadeAt u.disk) u.disk (u.step c).disk
      ∧ (u.step c).pending = u.pending := by
  show Grown _ _ _ (u.call c).2.2.disk ∧ (u.call c).2.2.pending = _
  rcases call_of_none hn with heq | heq <;> rw [heq]
  · exact ⟨.refl _, rfl⟩
  · exact ⟨Stores.grown_put (s := u.stores c) ht _ _, rfl⟩

theorem next?_of_quiet (htakes : ¬c.Takes) (hconsumes : ¬c.Consumes u.pending) :
    next? c.key c.isOpen c.control (u.stores c) = none := by
  unfold next?
  split
  · rename_i hopen
    rw [Option.map_eq_none_iff]
    by_cases hget : u.pending.get? c.key = none
    · exact hget
    · exact absurd ⟨hopen, hget⟩ hconsumes
  · rename_i hopen
    refine if_neg fun hon => htakes ⟨Bool.eq_false_iff.mpr hopen, ?_⟩
    exact Bool.and_eq_true_iff.mp hon

/-- Choices that are never written back leave the device to the preferences. -/
theorem keepsTo_of_detached (hd : u.pending.path = none) (c : Call) :
    c.KeepsTo u.disk (u.call c).2.2.device := by
  cases hn : next? c.key c.isOpen c.control (u.stores c) with
  | none => exact keepsTo_of_none hn
  | some p =>
    have hp : p.path = none := (path_of_next? hn).trans hd
    have hdevice (s : Stores) : (s.setPending p).device = s.device := by
      show (p.save s.device).2 = _
      rw [Pending.save, hp]
    have hstores : (u.call c).2.2 = _ := stores_reconcile c.key c.isOpen c.control (u.stores c)
    rw [hstores, saving, hn]
    dsimp only
    rcases closing_eq_or_put c.key c.isOpen (Stores.setPending _ p) _ with heq | ⟨hopen, heq⟩ <;> rw [heq]
    · rw [hdevice]
      rcases opening_eq_or_put c.key c.isOpen (u.stores c) with heq | ⟨on, heq⟩ <;> rw [heq]
      · exact .inl rfl
      · exact .inr ⟨on, rfl⟩
    · -- behind a closed gate nothing was stored before
      rw [hopen]
      refine .inr ⟨false, ?_⟩
      show (c.preferences.put c.key _ ((u.stores c).setPending p).device).2 = _
      rw [hdevice]
      rfl

/-! ## runs -/

/-- The file says what is in memory as long as the latest of its saves, if any, succeeded. -/
theorem isFiled_run (hpath : u.pending.path = some path) (ht : u.disk.IsTree)
    (hu : u.pending.IsFiled path u.disk) {cs : List Call}
    (hc : ∀ x ∈ cs, x.Apart path u.disk ∧ Steady (x.preferences.MadeAt u.disk) u.disk path)
    (hs : ∀ e, (u.saves cs).getLast? ≠ some (.error e)) :
    (u.run cs).pending.IsFiled path (u.run cs).disk := by
  -- from the last call backwards: its own save decides, and without one the call before it does
  induction cs using List.reverseRecOn with
  | nil => exact hu
  | append_singleton cs c ih =>
    obtain ⟨hg, hpath'⟩ := tree_run ht cs
    obtain ⟨hapart, hway⟩ := hc c (List.mem_append_right _ (List.mem_singleton_self c))
    have hkept : ¬c.preferences.KeptAt (u.run cs).disk ((u.run cs).disk.placeOf path) := by
      rw [hg.placeOf_eq, Preferences.keptAt_iff hg rfl]
      exact hapart.file
    rw [saves_concat] at hs
    rw [run_concat]
    cases hsaved : (u.run cs).saved? c with
    | none =>
      rw [hsaved, Option.toList_none, List.append_nil] at hs
      have hfiled := ih (fun x hx => hc x (List.mem_append_left _ hx)) hs
      have hn := Option.map_eq_none_iff.mp hsaved
      obtain ⟨hstep, hpending⟩ := grown_of_none (hg.isTree ht) hn
      rw [hpending]
      refine hfiled.still (hg.isTree ht) hstep hkept ?_ fun x hx hm => ?_
      · rw [hg.placeOf_eq, Preferences.madeAt_iff hg rfl]
        exact hapart.directory
      · exact hg.steady hway x hx ((Preferences.madeAt_iff hg rfl x).mp hm)
    | some r =>
      rw [hsaved, Option.toList_some, List.getLast?_concat] at hs
      cases r with
      | error e => exact absurd rfl (hs e)
      | ok _ => exact isFiled_step (hpath'.trans hpath) (hg.isTree ht) hsaved hkept

/-- **The session file follows memory.**  In whatever order threads bring controls in line with their gates: after a
call whose save of the session file succeeds the file says exactly what is pending, and is gone if nothing is,
unless the call keeps its preferences in that place; a call that neither takes nor consumes a choice leaves the file
to itself; the choices that calls take are to come back on; and detached choices give the same results without
a file.  With preferences that stay clear of the file it is right whenever its latest save succeeded. -/
theorem file_follows (hpath : u.pending.path = some path) (ht : u.disk.IsTree)
    (hu : u.pending.IsFiled path u.disk) (cs : List Call) (c : Call) :
    let v := u.run cs
    (v.saved? c = some (.ok ()) → ¬c.preferences.KeptAt u.disk (u.disk.placeOf path) →
        (v.step c).pending.IsFiled path (v.step c).disk)
      ∧ (¬c.Takes → ¬c.Consumes v.pending → c.KeepsTo v.disk (v.call c).2.2.device
        ∧ (v.step c).pending = v.pending
        ∧ (c.Apart path u.disk → (v.step c).disk.at? (u.disk.placeOf path) = v.disk.at? (u.disk.placeOf path)))
      ∧ (∀ k choice, (v.step c).pending.get? k = some choice →
        v.pending.get? k = some choice ∨ choice = ⟨true, true⟩)
      ∧ (u.detached.results cs = u.results cs ∧ (u.detached.run cs).pending = v.pending.detached
        ∧ c.KeepsTo (u.detached.run cs).disk ((u.detached.run cs).call c).2.2.device)
      ∧ ((∀ x ∈ cs, x.Apart path u.disk ∧ Steady (x.preferences.MadeAt u.disk) u.disk path) →
        (∀ e, (u.saves cs).getLast? ≠ some (.error e)) → v.pending.IsFiled path v.disk) := by
  intro v
  obtain ⟨hg, hpath'⟩ : Grown (fun _ => True) (fun _ => True) u.disk v.disk ∧ v.pending.path = u.pending.path :=
    tree_run ht cs
  have hplace : v.disk.placeOf path = u.disk.placeOf path := hg.placeOf_eq path
  refine ⟨fun hs hk => ?_, fun htakes hconsumes => ?_, fun k choice => taken_of_step, ?_, isFiled_run hpath ht hu⟩
  · refine isFiled_step (hpath'.trans hpath) (hg.isTree ht) hs ?_
    rw [hplace, Preferences.keptAt_iff hg rfl]
    exact hk
  · have hn := next?_of_quiet htakes hconsumes
    obtain ⟨hstep, hpending⟩ := grown_of_none (hg.isTree ht) hn
    refine ⟨keepsTo_of_none hn, hpending, fun hapart => hstep.at?_eq ?_ ?_⟩
    · rw [Preferences.keptAt_iff hg rfl]
      exact hapart.file
    · rw [Preferences.madeAt_iff hg rfl]
      exact hapart.directory
  · obtain ⟨hresults, hchoices⟩ := results_congr (w := u.detached) (u := u) rfl cs
    have hnone : (u.detached.run cs).pending.path = none := (tree_run (u := u.detached) ht cs).2
    refine ⟨hresults, ?_, keepsTo_of_detached hnone c⟩
    show (u.detached.run cs).pending = ⟨none, v.pending.choices⟩
    rw [← hchoices, ← hnone]

/-- A switch that is stored as on, in preferences with a file. -/
def switchOn (preferences : Path) (isOpen on : Bool) : Call where
  key := "fp_pocketmode"
  isOpen
  control := .switch "fp_pocketmode" on
  preferences := ⟨some preferences, .ofList [("fp_pocketmode", .switch true)], none⟩
  moment := Preferences.Use.midday
  refusals := []
  isValid := Preferences.Use.isValid_midday
  isHonest := List.not_mem_nil

/-- Nothing is pending yet, and nothing on the disk. -/
def fresh (path : Path) : Shared := ⟨⟨some path, .empty⟩, ⟨.empty, []⟩⟩

theorem isFiled_fresh (path : Path) (h : Disk.exists_ ⟨.empty, []⟩ path = false) :
    (fresh path).pending.IsFiled path (fresh path).disk :=
  ⟨Pending.loadFile_of_absent h, fun _ => h⟩

/-- A choice is taken and given back, and the session file comes and goes. -/
theorem file_follows_back :
    let v := (fresh ⟨"s.json"⟩).run [switchOn ⟨"p.json"⟩ false true]
    let w := v.step (switchOn ⟨"p.json"⟩ true true)
    v.disk.exists_ ⟨"s.json"⟩ = true ∧ w.disk.exists_ ⟨"s.json"⟩ = false := by
  have hfresh := isFiled_fresh ⟨"s.json"⟩ (by decide +kernel)
  have hsaved : ((fresh ⟨"s.json"⟩).run [switchOn ⟨"p.json"⟩ false true]).saved? (switchOn ⟨"p.json"⟩ true true)
      = some (.ok ()) := congrArg some (ok_of_toBool (by decide +kernel))
  have hkept : ¬(switchOn ⟨"p.json"⟩ true true).preferences.KeptAt (fresh ⟨"s.json"⟩).disk
      ((fresh ⟨"s.json"⟩).disk.placeOf ⟨"s.json"⟩) := by
    rintro ⟨q, hq, h | h⟩ <;> cases hq <;> exact absurd h.1 (by decide +kernel)
  obtain ⟨hfiled, -⟩ := file_follows rfl (Disk.isTree_empty []) hfresh [switchOn ⟨"p.json"⟩ false true]
    (switchOn ⟨"p.json"⟩ true true)
  exact ⟨by decide +kernel, (hfiled hsaved hkept).absent (by decide +kernel)⟩

/-- The file of the preferences takes the place of the session file, as its temporary name does; or a directory
takes it that is made for them in a call that neither takes nor consumes a choice. -/
theorem not_follows_in_place :
    (let u := fresh ⟨"s.json.tmp"⟩
      let c := switchOn ⟨"s.json"⟩ false true
      u.pending.IsFiled ⟨"s.json.tmp"⟩ u.disk ∧ u.saved? c = some (.ok ())
        ∧ ¬(u.step c).pending.IsFiled ⟨"s.json.tmp"⟩ (u.step c).disk)
      ∧ (let u := fresh ⟨"r"⟩
        let c := switchOn ⟨"r/prefs.json"⟩ false false
        u.pending.IsFiled ⟨"r"⟩ u.disk ∧ ¬c.Takes ∧ ¬c.Consumes u.pending
          ∧ (u.step c).disk.at? (u.disk.placeOf ⟨"r"⟩) ≠ u.disk.at? (u.disk.placeOf ⟨"r"⟩)) := by
  refine ⟨⟨isFiled_fresh _ (by decide +kernel), congrArg some (ok_of_toBool (by decide +kernel)), fun h => ?_⟩,
    isFiled_fresh _ (by decide +kernel), nofun, nofun, by decide +kernel⟩
  have habsent : ((fresh ⟨"s.json.tmp"⟩).step (switchOn ⟨"s.json"⟩ false true)).disk.exists_ ⟨"s.json.tmp"⟩
      = false := by decide +kernel
  have hloads := Pending.loadFile_of_absent habsent
  rw [h.loads] at hloads
  have hchoices := congrArg Pending.choices (Except.ok.inj hloads)
  revert hchoices
  decide +kernel

end Shared

end Gate

end DeviceSettings

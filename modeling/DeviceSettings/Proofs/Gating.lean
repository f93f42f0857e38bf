import DeviceSettings.Proofs.Stores
import DeviceSettings.Session

/-!
# What a gate does to a setting

A control that is let in shows what comes back (`Stores.comesBack`): what is pending, or else what is stored.
One that is shut out is off, in the store too.  Both leave all other settings alone.
-/

namespace DeviceSettings

open Disk (Grown)

/-! ## stores seen by key -/

namespace Stores

variable {home : Path} (s : Stores) (key k : Key)

@[simp] theorem get?_put (v : Value) :
    (s.put key v).preferences.get? k = if k = key then some v else s.preferences.get? k :=
  Preferences.get?_put s.preferences key k v s.device

@[simp] theorem pending_put (v : Value) : (s.put key v).pending = s.pending := rfl

@[simp] theorem preferences_setPending (p : Pending) : (s.setPending p).preferences = s.preferences := rfl

@[simp] theorem pending_setPending (p : Pending) : (s.setPending p).pending = p := rfl

theorem disk_setPending (p : Pending) : (s.setPending p).disk = (p.save s.device).2.disk := rfl

/-- Is the setting stored as a switch that is on? -/
def isOn : Bool := s.preferences.getSwitch key false

/-- What a setting is when its gate opens. -/
def comesBack : Bool :=
  match s.pending.get? key with
  | none => s.isOn key
  | some c => if c.restore then c.prior else s.isOn key

theorem isOn_congr {s t : Stores} {key : Key} (h : t.preferences.get? key = s.preferences.get? key) :
    t.isOn key = s.isOn key := by
  rw [isOn, isOn, Preferences.getSwitch, Preferences.getSwitch, h]

theorem isOn_of_get? {s : Stores} {key : Key} {on : Bool} (h : s.preferences.get? key = some (.switch on)) :
    s.isOn key = on := by
  rw [isOn, Preferences.getSwitch, h]
  rfl

/-- What is on is stored as a switch. -/
theorem get?_of_isOn {s : Stores} {key : Key} (h : s.isOn key = true) :
    s.preferences.get? key = some (.switch true) := by
  rw [isOn, Preferences.getSwitch] at h
  cases hv : s.preferences.get? key with
  | none =>
    rw [hv] at h
    cases h
  | some v =>
    rw [hv] at h
    cases v with
    | switch on =>
      have hon : on = true := h
      rw [hon]
    | text t => cases h

/-- The same is kept for a setting. -/
structure AgreeOn (key : Key) (s t : Stores) : Prop where
  value : t.preferences.get? key = s.preferences.get? key
  pending : t.pending.get? key = s.pending.get? key

section
variable {key : Key} {s t u : Stores}

theorem AgreeOn.symm (h : s.AgreeOn key t) : t.AgreeOn key s := ⟨h.value.symm, h.pending.symm⟩

theorem AgreeOn.trans (h : s.AgreeOn key t) (h' : t.AgreeOn key u) : s.AgreeOn key u :=
  ⟨h'.value.trans h.value, h'.pending.trans h.pending⟩

theorem AgreeOn.isOn (h : s.AgreeOn key t) : t.isOn key = s.isOn key := isOn_congr h.value

end

/-- Nothing changes but the documents of the stores. -/
inductive Saves (s : Stores) : Stores → Prop
  | refl : Saves s s
  | put {t : Stores} (h : Saves s t) (key : Key) (v : Value) : Saves s (t.put key v)
  | setAside {t : Stores} (h : Saves s t) (choices : Table Key PendingChoice) :
      Saves s (t.setPending { t.pending with choices })

theorem Saves.trans {s t u : Stores} (h : Saves s t) (h' : Saves t u) : Saves s u := by
  induction h' with
  | refl => exact h
  | put _ key v ih => exact ih.put key v
  | setAside _ choices ih => exact ih.setAside choices

/-- If no save fails, changes that are kept followed by saves are kept. -/
theorem Kept.saves {nodes : Path → Prop} {s t u : Stores} (h : Kept nodes s t)
    (hs : ∀ (u : Stores) (c : Change), Kept nodes s u → c.IsSaved u) (hu : t.Saves u) : Kept nodes s u := by
  induction hu with
  | refl => exact h
  | put _ key v ih => exact ih.put key v (hs _ _ ih)
  | setAside _ choices ih => exact ih.setAside choices (hs _ _ ih)

/-- The stores have no files. -/
structure InMemory (s : Stores) : Prop where
  preferences : s.preferences.path = none
  pending : s.pending.path = none

/-- What has no files leaves the device alone. -/
theorem Saves.inMemory {s t : Stores} (h : Saves s t) (hs : s.InMemory) : t.device = s.device ∧ t.InMemory := by
  induction h with
  | refl => exact ⟨rfl, hs⟩
  | @put t _ key v ih =>
    obtain ⟨hdevice, hmemory⟩ := ih
    refine ⟨?_, ?_, hmemory.pending⟩
    · show (t.preferences.put key v t.device).2 = s.device
      rw [Preferences.put, Preferences.set, Preferences.save, hmemory.preferences]
      exact hdevice
    · exact (Preferences.path_save _ _).trans hmemory.preferences
  | @setAside t _ choices ih =>
    obtain ⟨hdevice, hmemory⟩ := ih
    refine ⟨?_, hmemory.preferences, hmemory.pending⟩
    show (Pending.save { t.pending with choices } t.device).2 = s.device
    rw [Pending.save, hmemory.pending]
    exact hdevice

theorem grown_run {s t : Stores} (h : Grown (s.disk.IsStore home) (s.disk.Above (Home.run home)) s.disk t.disk
    ∧ t.Housed home) (c : Change) (hc : ∀ x, c.files home t.disk x → t.disk.IsStore home x) :
    Grown (s.disk.IsStore home) (s.disk.Above (Home.run home)) s.disk (c.run t).disk
      ∧ (c.run t).Housed home := by
  obtain ⟨hg, ht⟩ := h
  have hfiles (x : Place) (hx : c.files home t.disk x) : s.disk.IsStore home x :=
    (Disk.isStore_congr hg.work x).1 (hc x hx)
  have habove (x : Place) (hx : t.disk.Above (Home.run home) x) : s.disk.Above (Home.run home) x :=
    (hg.above_iff _ x).1 hx
  exact ⟨hg.trans ((c.grown ht).mono hfiles habove), c.housed ht⟩

theorem Saves.grown {s t : Stores} (h : Saves s t) (hs : s.Housed home) :
    Grown (s.disk.IsStore home) (s.disk.Above (Home.run home)) s.disk t.disk ∧ t.Housed home := by
  induction h with
  | refl => exact ⟨.refl _, hs⟩
  | put _ key v ih => exact grown_run ih (.put key v) fun _ hx => hx
  | setAside _ choices ih => exact grown_run ih (.setAside choices) fun _ hx => hx

end Stores

/-! ## through the gate -/

namespace Gate

open Stores (Saves)

variable (key k : Key) (c : Control) (s : Stores)

theorem letIn_control : (letIn key c s).1 = { c with enabled := true, checked := s.comesBack key } := by
  unfold letIn Stores.comesBack Stores.isOn
  cases s.pending.get? key with
  | none => rfl
  | some choice =>
    obtain ⟨prior, restore⟩ := choice
    cases restore with
    | false => rfl
    | true => cases prior <;> cases s.preferences.getSwitch key false <;> rfl

theorem letIn_pending :
    (letIn key c s).2.pending.get? k = if k = key then none else s.pending.get? k := by
  unfold letIn
  cases hp : s.pending.get? key with
  | none =>
    by_cases hk : k = key
    · rw [if_pos hk, hk]
      exact hp
    · rw [if_neg hk]
  | some choice =>
    have hput (b : Bool) (v : Value) : (if b then s.put key v else s).pending = s.pending := by
      cases b <;> rfl
    dsimp only
    rw [Stores.pending_setPending, Pending.get?_erase, hput]

theorem letIn_value : (letIn key c s).2.preferences.get? k
    = if k = key ∧ s.comesBack key ≠ s.isOn key then some (.switch (s.comesBack key))
      else s.preferences.get? k := by
  unfold letIn Stores.comesBack Stores.isOn
  cases s.pending.get? key with
  | none => simp
  | some choice =>
    obtain ⟨prior, restore⟩ := choice
    cases restore with
    | false => simp
    | true => cases prior <;> cases s.preferences.getSwitch key false <;> simp

theorem letIn_isOn : (letIn key c s).2.isOn key = s.comesBack key := by
  have hvalue := letIn_value key key c s
  by_cases heq : s.comesBack key = s.isOn key
  · rw [if_neg fun h => h.2 heq] at hvalue
    rw [Stores.isOn_congr hvalue, heq]
  · rw [if_pos ⟨rfl, heq⟩] at hvalue
    exact Stores.isOn_of_get? hvalue

theorem shutOut_control : (shutOut key c s).1 = { c with enabled := false, checked := false } := rfl

theorem shutOut_pending : (shutOut key c s).2.pending.get? k
    = if k = key ∧ c.enabled = true ∧ c.checked = true then some .taken else s.pending.get? k := by
  unfold shutOut
  cases c.enabled <;> cases c.checked <;> cases s.preferences.getSwitch key false <;> simp

theorem shutOut_value : (shutOut key c s).2.preferences.get? k
    = if k = key ∧ s.isOn key = true then some (.switch false) else s.preferences.get? k := by
  unfold shutOut Stores.isOn
  cases c.enabled <;> cases c.checked <;> cases s.preferences.getSwitch key false <;> simp

theorem shutOut_isOn : (shutOut key c s).2.isOn key = false := by
  have hvalue := shutOut_value key key c s
  by_cases hon : s.isOn key = true
  · rw [if_pos ⟨rfl, hon⟩] at hvalue
    exact Stores.isOn_of_get? hvalue
  · rw [if_neg fun h => hon h.2] at hvalue
    rw [Stores.isOn_congr hvalue]
    exact Bool.eq_false_iff.2 hon

/-- With nothing pending only the control changes. -/
theorem letIn_of_none {key : Key} {c : Control} {s : Stores} (h : s.pending.get? key = none) :
    (letIn key c s).2 = s := by
  rw [letIn, h]

/-- Of a setting that is off and does not show otherwise only the control changes. -/
theorem shutOut_of_off {key : Key} {c : Control} {s : Stores} (hc : (c.enabled && c.checked) = false)
    (hoff : s.isOn key = false) : (shutOut key c s).2 = s := by
  have hstored : s.preferences.getSwitch key false = false := hoff
  rw [shutOut, hc, hstored]
  rfl

/-- What is kept for another setting stays. -/
theorem agreeOn_reconcile {key k : Key} (hk : k ≠ key) (isOpen : Bool) (c : Control) (s : Stores) :
    s.AgreeOn k (reconcile key isOpen c s).2.2 := by
  cases isOpen with
  | true =>
    exact ⟨(letIn_value key k c s).trans (if_neg fun h => hk h.1), (letIn_pending key k c s).trans (if_neg hk)⟩
  | false =>
    exact ⟨(shutOut_value key k c s).trans (if_neg fun h => hk h.1),
      (shutOut_pending key k c s).trans (if_neg fun h => hk h.1)⟩

/-- What is kept when the setting's own switch is stored and when pending choices are set aside is kept. -/
theorem reconcile_keeps {motive : Stores → Prop} (hput : ∀ t on, motive t → motive (t.put key (.switch on)))
    (hset : ∀ t choices, motive t → motive (t.setPending { t.pending with choices })) (h : motive s) (isOpen : Bool) :
    motive (reconcile key isOpen c s).2.2 := by
  cases isOpen with
  | true =>
    show motive (letIn key c s).2
    unfold letIn
    cases s.pending.get? key with
    | none => exact h
    | some choice =>
      show motive (Stores.setPending (if choice.restore && choice.prior != _ then _ else s) _)
      split
      · exact hset _ _ (hput _ _ h)
      · exact hset _ _ h
  | false =>
    show motive (shutOut key c s).2
    have hfirst : motive (if c.enabled && c.checked then s.setPending (s.pending.insert key .taken) else s) := by
      split
      · exact hset _ _ h
      · exact h
    unfold shutOut
    dsimp only
    split
    · exact hput _ _ hfirst
    · exact hfirst

theorem saves_reconcile (isOpen : Bool) : Saves s (reconcile key isOpen c s).2.2 :=
  reconcile_keeps key c s (fun _ on h => h.put key (.switch on)) (fun _ choices h => h.setAside choices) .refl isOpen

end Gate

/-! ## in a session -/

namespace Session

variable (s : Session) (key k : Key)

/-- Two sessions agree about a setting. -/
structure AgreeAt (key : Key) (s t : Session) : Prop where
  control : t.screen.get? key = s.screen.get? key
  value : t.stores.preferences.get? key = s.stores.preferences.get? key
  pending : t.stores.pending.get? key = s.stores.pending.get? key

theorem AgreeAt.rfl {key : Key} {s : Session} : AgreeAt key s s := ⟨Eq.refl _, Eq.refl _, Eq.refl _⟩

theorem AgreeAt.symm {key : Key} {s t : Session} (h : AgreeAt key s t) : AgreeAt key t s :=
  ⟨h.control.symm, h.value.symm, h.pending.symm⟩

theorem AgreeAt.trans {key : Key} {s t u : Session} (h : AgreeAt key s t) (h' : AgreeAt key t u) :
    AgreeAt key s u :=
  ⟨h'.control.trans h.control, h'.value.trans h.value, h'.pending.trans h.pending⟩

/-- A setting without a control or a gate that can be read is left alone; any other goes through its gate. -/
theorem reconcile_cases : s.reconcile key = s ∨ ∃ isOpen c,
    Gate.isOpen? s.profile.buttons.gates s.stores.disk key = some isOpen ∧ s.screen.get? key = some c
      ∧ s.reconcile key = { s with screen := s.screen.set key (Gate.reconcile key isOpen c s.stores).2.1
                                   stores := (Gate.reconcile key isOpen c s.stores).2.2 } := by
  unfold reconcile
  cases Gate.isOpen? s.profile.buttons.gates s.stores.disk key with
  | none => exact .inl rfl
  | some isOpen =>
    cases s.screen.get? key with
    | none => exact .inl rfl
    | some c => exact .inr ⟨isOpen, c, rfl, rfl, rfl⟩

theorem reconcile_of_none {s : Session} {key : Key}
    (h : Gate.isOpen? s.profile.buttons.gates s.stores.disk key = none) : s.reconcile key = s := by
  rw [reconcile, h]

theorem reconcile_of_isOpen {isOpen : Bool} {c : Control} {s : Session} {key : Key}
    (hopen : Gate.isOpen? s.profile.buttons.gates s.stores.disk key = some isOpen)
    (hc : s.screen.get? key = some c) :
    s.reconcile key = { s with screen := s.screen.set key (Gate.reconcile key isOpen c s.stores).2.1
                               stores := (Gate.reconcile key isOpen c s.stores).2.2 } := by
  rw [reconcile, hopen, hc]

/-- Where two runs show the same control and find the same at its gate, either both leave it alone or both take it
through the gate. -/
theorem reconcile_alike {s t : Session} {key : Key}
    (hgate : Gate.isOpen? t.profile.buttons.gates t.stores.disk key
      = Gate.isOpen? s.profile.buttons.gates s.stores.disk key)
    (hscreen : t.screen.get? key = s.screen.get? key) :
    s.reconcile key = s ∧ t.reconcile key = t ∨ ∃ isOpen c,
      s.reconcile key = { s with screen := s.screen.set key (Gate.reconcile key isOpen c s.stores).2.1
                                 stores := (Gate.reconcile key isOpen c s.stores).2.2 }
        ∧ t.reconcile key = { t with screen := t.screen.set key (Gate.reconcile key isOpen c t.stores).2.1
                                     stores := (Gate.reconcile key isOpen c t.stores).2.2 } := by
  unfold reconcile
  rw [hgate, hscreen]
  cases Gate.isOpen? s.profile.buttons.gates s.stores.disk key with
  | none => exact .inl ⟨rfl, rfl⟩
  | some isOpen =>
    cases s.screen.get? key with
    | none => exact .inl ⟨rfl, rfl⟩
    | some c => exact .inr ⟨isOpen, c, rfl, rfl⟩

/-- Behind an open gate the control shows what comes back, and that is stored. -/
theorem reconcile_open {c : Control} {s : Session} {key : Key}
    (hopen : Gate.isOpen? s.profile.buttons.gates s.stores.disk key = some true)
    (hc : s.screen.get? key = some c) :
    (s.reconcile key).screen.get? key = some { c with enabled := true, checked := s.stores.comesBack key }
      ∧ (s.reconcile key).stores.pending.get? key = none
      ∧ (s.reconcile key).stores.isOn key = s.stores.comesBack key
      ∧ (s.reconcile key).stores.preferences.get? key
          = if s.stores.comesBack key ≠ s.stores.isOn key then some (.switch (s.stores.comesBack key))
            else s.stores.preferences.get? key := by
  rw [reconcile_of_isOpen hopen hc]
  refine ⟨?_, ?_, Gate.letIn_isOn key c s.stores, ?_⟩
  · show (s.screen.set key (Gate.letIn key c s.stores).1).get? key = _
    rw [Screen.get?_set, if_pos rfl, Gate.letIn_control]
  · exact (Gate.letIn_pending key key c s.stores).trans (if_pos rfl)
  · exact (Gate.letIn_value key key c s.stores).trans (by simp)

/-- Behind a closed gate the control is off, in the store too. -/
theorem reconcile_closed {c : Control} {s : Session} {key : Key}
    (hclosed : Gate.isOpen? s.profile.buttons.gates s.stores.disk key = some false)
    (hc : s.screen.get? key = some c) :
    (s.reconcile key).screen.get? key = some { c with enabled := false, checked := false }
      ∧ (s.reconcile key).stores.pending.get? key
          = (if c.enabled = true ∧ c.checked = true then some .taken else s.stores.pending.get? key)
      ∧ (s.reconcile key).stores.isOn key = false
      ∧ (s.reconcile key).stores.preferences.get? key
          = if s.stores.isOn key = true then some (.switch false) else s.stores.preferences.get? key := by
  rw [reconcile_of_isOpen hclosed hc]
  refine ⟨?_, ?_, Gate.shutOut_isOn key c s.stores, ?_⟩
  · show (s.screen.set key (Gate.shutOut key c s.stores).1).get? key = _
    rw [Screen.get?_set, if_pos rfl, Gate.shutOut_control]
  · exact (Gate.shutOut_pending key key c s.stores).trans (by simp)
  · exact (Gate.shutOut_value key key c s.stores).trans (by simp)

@[simp] theorem profile_reconcile : (s.reconcile key).profile = s.profile := by
  rcases reconcile_cases s key with h | ⟨isOpen, c, -, -, h⟩ <;> rw [h]

@[simp] theorem dispatch_reconcile : (s.reconcile key).dispatch = s.dispatch := by
  rcases reconcile_cases s key with h | ⟨isOpen, c, -, -, h⟩ <;> rw [h]

@[simp] theorem waiting_reconcile : (s.reconcile key).waiting = s.waiting := by
  rcases reconcile_cases s key with h | ⟨isOpen, c, -, -, h⟩ <;> rw [h]

@[simp] theorem delivered_reconcile : (s.reconcile key).delivered = s.delivered := by
  rcases reconcile_cases s key with h | ⟨isOpen, c, -, -, h⟩ <;> rw [h]

theorem reconcile_keeps {motive : Stores → Prop} (hput : ∀ t on, motive t → motive (t.put key (.switch on)))
    (hset : ∀ t choices, motive t → motive (t.setPending { t.pending with choices })) (h : motive s.stores) :
    motive (s.reconcile key).stores := by
  rcases reconcile_cases s key with heq | ⟨isOpen, c, -, -, heq⟩
  · rw [heq]
    exact h
  · rw [heq]
    exact Gate.reconcile_keeps key c s.stores hput hset h isOpen

theorem saves_reconcile : s.stores.Saves (s.reconcile key).stores :=
  reconcile_keeps s key (fun _ on h => h.put key (.switch on)) (fun _ choices h => h.setAside choices) .refl

theorem profile_foldl_reconcile (ks : List Key) : (ks.foldl reconcile s).profile = s.profile := by
  induction ks generalizing s with
  | nil => rfl
  | cons k ks ih => rw [List.foldl_cons, ih, profile_reconcile]

theorem foldl_keeps {motive : Stores → Prop} {ks : List Key}
    (hput : ∀ k ∈ ks, ∀ t on, motive t → motive (t.put k (.switch on)))
    (hset : ∀ t choices, motive t → motive (t.setPending { t.pending with choices })) (h : motive s.stores) :
    motive (ks.foldl reconcile s).stores := by
  induction ks generalizing s with
  | nil => exact h
  | cons k ks ih =>
    obtain ⟨hk, hks⟩ := List.forall_mem_cons.1 hput
    exact ih (s.reconcile k) hks (reconcile_keeps s k hk hset h)

theorem saves_foldl (ks : List Key) : s.stores.Saves (ks.foldl reconcile s).stores :=
  foldl_keeps s (fun k _ _ on h => h.put k (.switch on)) (fun _ choices h => h.setAside choices) .refl

/-- Bringing one setting in line leaves the others alone. -/
theorem agreeAt_reconcile {s : Session} {key k : Key} (hk : k ≠ key) : AgreeAt k s (s.reconcile key) := by
  rcases reconcile_cases s key with h | ⟨isOpen, c, -, -, h⟩
  · rw [h]
    exact .rfl
  · rw [h]
    obtain ⟨hvalue, hpending⟩ := Gate.agreeOn_reconcile hk isOpen c s.stores
    exact ⟨(Screen.get?_set s.screen key k _).trans (if_neg hk), hvalue, hpending⟩

end Session

end DeviceSettings

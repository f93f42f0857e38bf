import DeviceSettings.Proofs.Following

/-!
# Controls in line with their gates

A look at a gate is about one setting: what becomes of its control, of its value and of what is pending for it
depends on these three alone, and what is kept for any other setting stays (`Gate.reconcile_local`,
`Gate.agreeOn_reconcile`).  From that a second look changes nothing, and looks at the gates of two settings may change
places (`Gate.reconcile_spec`).
-/

namespace DeviceSettings

namespace Stores

variable {s t : Stores}

/-- What is kept is kept setting by setting. -/
theorem SameMemory.of_agreeOn (h : ∀ key, s.AgreeOn key t) : s.SameMemory t :=
  ⟨Table.ext_get? fun key => (h key).value, Table.ext_get? fun key => (h key).pending⟩

end Stores

namespace Gate

/-! ## one look -/

/-- What an open gate makes of a control and of what is kept for its setting: what is pending comes back, or else
what is stored is shown. -/
structure LetsIn (key : Key) (c : Control) (s : Stores) (r : State × Control × Stores) : Prop where
  state : r.1 = .enabled
  control : r.2.1 = { c with enabled := true, checked := r.2.2.isOn key }
  pending : r.2.2.pending.get? key = none
  isOn : r.2.2.isOn key =
    match s.pending.get? key with
    | some ⟨prior, true⟩ => prior
    | _ => s.isOn key
  value : r.2.2.preferences.get? key =
    if r.2.2.isOn key = s.isOn key then s.preferences.get? key else some (.switch (r.2.2.isOn key))

/-- What a closed gate makes of them: the setting is off, and that it was on is pending. -/
structure ShutsOut (key : Key) (c : Control) (s : Stores) (r : State × Control × Stores) : Prop where
  state : r.1 = .disabled ((r.2.2.pending.get? key).any (·.restore))
  control : r.2.1 = { c with enabled := false, checked := false }
  pending : r.2.2.pending.get? key =
    if c.enabled = true ∧ c.checked = true then some ⟨true, true⟩ else s.pending.get? key
  isOn : r.2.2.isOn key = false
  value : r.2.2.preferences.get? key =
    if s.isOn key = true then some (.switch false) else s.preferences.get? key

variable (key : Key) (isOpen isOpen' : Bool) (c c' : Control) (s : Stores)

theorem letsIn_reconcile : LetsIn key c s (reconcile key true c s) where
  state := rfl
  control := by
    show (letIn key c s).1 = { c with enabled := true, checked := (letIn key c s).2.isOn key }
    rw [letIn_control, letIn_isOn]
  pending := (letIn_pending key key c s).trans (if_pos rfl)
  isOn := by
    show (letIn key c s).2.isOn key = _
    rw [letIn_isOn, Stores.comesBack]
    cases s.pending.get? key with
    | none => rfl
    | some choice =>
      obtain ⟨prior, restore⟩ := choice
      cases restore <;> rfl
  value := by
    show (letIn key c s).2.preferences.get? key = if (letIn key c s).2.isOn key = s.isOn key then _
      else some (.switch ((letIn key c s).2.isOn key))
    rw [letIn_isOn, letIn_value]
    by_cases heq : s.comesBack key = s.isOn key
    · rw [if_neg fun h => h.2 heq, if_pos heq]
    · rw [if_pos ⟨rfl, heq⟩, if_neg heq]

theorem shutsOut_reconcile : ShutsOut key c s (reconcile key false c s) where
  state := rfl
  control := rfl
  pending := (shutOut_pending key key c s).trans (by simp only [true_and]; rfl)
  isOn := shutOut_isOn key c s
  value := (shutOut_value key key c s).trans (by simp only [true_and])

/-- What is kept for other settings makes no difference. -/
theorem reconcile_local {key : Key} {s t : Stores} (h : s.AgreeOn key t) :
    (reconcile key isOpen c t).1 = (reconcile key isOpen c s).1
      ∧ (reconcile key isOpen c t).2.1 = (reconcile key isOpen c s).2.1
      ∧ (reconcile key isOpen c s).2.2.AgreeOn key (reconcile key isOpen c t).2.2 := by
  cases isOpen with
  | true =>
    have hs := letsIn_reconcile key c s
    have ht := letsIn_reconcile key c t
    have hisOn : (reconcile key true c t).2.2.isOn key = (reconcile key true c s).2.2.isOn key := by
      rw [ht.isOn, hs.isOn, h.pending, h.isOn]
    refine ⟨rfl, ?_, ?_, ht.pending.trans hs.pending.symm⟩
    · rw [ht.control, hs.control, hisOn]
    · rw [ht.value, hs.value, hisOn, h.isOn, h.value]
  | false =>
    have hs := shutsOut_reconcile key c s
    have ht := shutsOut_reconcile key c t
    have hpending : (reconcile key false c t).2.2.pending.get? key
        = (reconcile key false c s).2.2.pending.get? key := by
      rw [ht.pending, hs.pending, h.pending]
    refine ⟨?_, rfl, ?_, hpending⟩
    · rw [ht.state, hs.state, hpending]
    · rw [ht.value, hs.value, h.isOn, h.value]

/-! ## a second look -/

/-- A control that its gate has let in is let in as it is. -/
theorem reconcile_true_of {key : Key} {c : Control} {s : Stores} (henabled : c.enabled = true)
    (hchecked : c.checked = s.isOn key) (hnone : s.pending.get? key = none) :
    reconcile key true c s = (.enabled, c, s) := by
  have hcontrol : (letIn key c s).1 = c := by
    rw [letIn_control, Stores.comesBack, hnone, ← henabled, ← hchecked]
  show (State.enabled, (letIn key c s).1, (letIn key c s).2) = _
  rw [hcontrol, letIn_of_none hnone]

/-- A control that is shut out and off stays as it is. -/
theorem reconcile_false_of {key : Key} {c : Control} {s : Stores} (henabled : c.enabled = false)
    (hchecked : c.checked = false) (hoff : s.isOn key = false) :
    reconcile key false c s = (.disabled ((s.pending.get? key).any (·.restore)), c, s) := by
  have hcontrol : (shutOut key c s).1 = c := by
    obtain ⟨k, kind, enabled, checked, value⟩ := c
    obtain rfl : enabled = false := henabled
    obtain rfl : checked = false := hchecked
    rfl
  have hstores : (shutOut key c s).2 = s := shutOut_of_off (by rw [henabled, Bool.false_and]) hoff
  show (State.disabled (((shutOut key c s).2.pending.get? key).any (·.restore)), (shutOut key c s).1,
    (shutOut key c s).2) = _
  rw [hcontrol, hstores]

/-- A second look at the gate finds nothing to do, and saves nothing. -/
theorem reconcile_again : reconcile key isOpen (reconcile key isOpen c s).2.1 (reconcile key isOpen c s).2.2
    = reconcile key isOpen c s := by
  cases isOpen with
  | true =>
    have h := letsIn_reconcile key c s
    rw [reconcile_true_of (by rw [h.control]) (by rw [h.control]) h.pending]
    rfl
  | false =>
    have h := shutsOut_reconcile key c s
    rw [reconcile_false_of (by rw [h.control]) (by rw [h.control]) h.isOn]
    rfl

/-! ## two looks -/

/-- Looks at the gates of two settings find the same in either order and leave the same in memory. -/
structure EitherOrder (key k : Key) (isOpen isOpen' : Bool) (c c' : Control) (s : Stores) : Prop where
  before : (reconcile key isOpen c (reconcile k isOpen' c' s).2.2).1 = (reconcile key isOpen c s).1
    ∧ (reconcile key isOpen c (reconcile k isOpen' c' s).2.2).2.1 = (reconcile key isOpen c s).2.1
  after : (reconcile k isOpen' c' (reconcile key isOpen c s).2.2).1 = (reconcile k isOpen' c' s).1
    ∧ (reconcile k isOpen' c' (reconcile key isOpen c s).2.2).2.1 = (reconcile k isOpen' c' s).2.1
  memory : (reconcile k isOpen' c' (reconcile key isOpen c s).2.2).2.2.SameMemory
    (reconcile key isOpen c (reconcile k isOpen' c' s).2.2).2.2

theorem eitherOrder {key k : Key} (hk : k ≠ key) : EitherOrder key k isOpen isOpen' c c' s := by
  obtain ⟨hstate, hcontrol, hkey⟩ := reconcile_local isOpen c (agreeOn_reconcile hk.symm isOpen' c' s)
  obtain ⟨hstate', hcontrol', hother⟩ := reconcile_local isOpen' c' (agreeOn_reconcile hk isOpen c s)
  refine ⟨⟨hstate, hcontrol⟩, ⟨hstate', hcontrol'⟩, Stores.SameMemory.of_agreeOn fun j => ?_⟩
  -- the look at its own gate decides what is kept for a setting
  by_cases hj : j = key
  · subst hj
    exact (agreeOn_reconcile hk.symm isOpen' c' _).symm.trans hkey
  · by_cases hj' : j = k
    · subst hj'
      exact hother.symm.trans (agreeOn_reconcile hk isOpen c _)
    · have hleft := (agreeOn_reconcile hj isOpen c s).trans (agreeOn_reconcile hj' isOpen' c' _)
      have hright := (agreeOn_reconcile hj' isOpen' c' s).trans (agreeOn_reconcile hj isOpen c _)
      exact hleft.symm.trans hright

/-- **What bringing a control in line with its gate does**, whatever the control shows, is stored and is pending: it
is let in or shut out, nothing is kept otherwise for another setting, and doing it again does nothing.  Two controls
are brought in line in either order. -/
theorem reconcile_spec :
    LetsIn key c s (reconcile key true c s) ∧ ShutsOut key c s (reconcile key false c s)
      ∧ (∀ k, k ≠ key → s.AgreeOn k (reconcile key isOpen c s).2.2)
      ∧ reconcile key isOpen (reconcile key isOpen c s).2.1 (reconcile key isOpen c s).2.2 = reconcile key isOpen c s
      ∧ ∀ k isOpen' c', k ≠ key → EitherOrder key k isOpen isOpen' c c' s :=
  ⟨letsIn_reconcile key c s, shutsOut_reconcile key c s, fun _ hk => agreeOn_reconcile hk isOpen c s,
    reconcile_again key isOpen c s, fun _ isOpen' c' hk => eitherOrder isOpen isOpen' c c' s hk⟩

/-- One setting is on, and another is to come back. -/
def handover : Stores where
  preferences := ⟨none, .ofList [("fp_pocketmode", .switch true)], none⟩
  pending := ⟨none, .ofList [("fp_shutup", .taken)]⟩
  device := default

/-- The one is shut out and the other let in. -/
theorem reconcile_handover :
    let closed := reconcile "fp_pocketmode" false (.switch "fp_pocketmode" true) handover
    closed.1 = .disabled true ∧ closed.2.2.pending.get? "fp_shutup" = some ⟨true, true⟩
      ∧ (reconcile "fp_shutup" true (.switch "fp_shutup" false) closed.2.2).2.1 = .switch "fp_shutup" true := by
  obtain ⟨-, hclosed, hother, -, horder⟩ :=
    reconcile_spec "fp_pocketmode" false (.switch "fp_pocketmode" true) handover
  have hopened := (horder "fp_shutup" true (.switch "fp_shutup" false) (by decide)).after.2
  refine ⟨?_, (hother "fp_shutup" (by decide)).pending, ?_⟩
  · rw [hclosed.state, hclosed.pending]
    rfl
  · rw [hopened]
    rfl

end Gate

end DeviceSettings

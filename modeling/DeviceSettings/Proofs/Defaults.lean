import DeviceSettings.Proofs.Repeating

/-!
# What a gated setting shows that was never stored

Opening a screen shows a setting with a gate as it is stored, or else as its default in the profile.  A gate that is
open when the screen is resumed lets the control in as the setting is stored, and as off if it is not stored as a
switch: the default is not asked again.  So a setting whose default is on is shown as off once its screen is resumed
(`Session.open_gate_forgets_default`).
-/

namespace DeviceSettings

namespace Session

variable {s : Session} {key : Key} {gate : Gate}

/-- A setting without a node shows what is stored for it or is its default when its screen is opened. -/
theorem opened_gated (hb : s.profile.boundNode? key = none) (hg : s.profile.buttons.gates.get? key = some gate) :
    s.openScreen.screen.get? key = some (.switch key (s.stores.preferences.switchOrDefault s.profile key))
      ∧ s.openScreen.stores.preferences.get? key = s.stores.preferences.get? key
      ∧ s.openScreen.stores.pending = s.stores.pending := by
  obtain ⟨hnone, hvalue⟩ := opened_of_unbound hb
  refine ⟨?_, hvalue, pending_opened s⟩
  show (openGated s.profile s.opened.2 s.opened.1).get? key = _
  rw [get?_openGated, hnone, Option.none_or, if_pos (Table.mem_keys_of_get? hg), Preferences.switchOrDefault,
    Preferences.getSwitch, hvalue]
  rfl

/-- Resuming does to a gated setting what a look at its gate does. -/
theorem agreeAt_resume {found : Option Bool} (hgate : s.SteadyGate key found)
    (hk : key ∈ s.profile.buttons.gates.keys) : AgreeAt key (s.reconcile key) s.resume :=
  agreeAt_foldl_reconcile hgate (Boot.nodup_keys s.profile.buttons.gates) hk

/-- What is stored is what is shown by default too, unless no switch is stored and the default is on. -/
theorem isOn_eq_switchOrDefault {p : Profile} {stores : Stores} :
    stores.isOn key = stores.preferences.switchOrDefault p key
      ↔ (∃ on, stores.preferences.get? key = some (.switch on)) ∨ p.defaultSwitch key = false := by
  rw [Stores.isOn, Preferences.switchOrDefault, Preferences.getSwitch, Preferences.getSwitch]
  cases hv : stores.preferences.get? key with
  | none =>
    have hnot : ¬∃ on, none = some (Value.switch on) := by
      rintro ⟨_, h⟩
      cases h
    exact ⟨fun h => .inr h.symm, fun h => (h.resolve_left hnot).symm⟩
  | some v =>
    cases v with
    | switch on => exact iff_of_true rfl (.inl ⟨on, rfl⟩)
    | text t =>
      have hnot : ¬∃ on, some (Value.text t) = some (Value.switch on) := by
        rintro ⟨_, h⟩
        cases h
      exact ⟨fun h => .inr h.symm, fun h => (h.resolve_left hnot).symm⟩

/-- **An open gate does not ask for the default.**  A gated setting without a node, for which nothing is pending, is
shown as stored or by default when its screen is opened.  If its gate is open then resuming shows it enabled, and as
on if and only if it is stored as on; nothing is stored for it.  So it stays what it was shown as if and only if it is
stored as a switch or its default is off. -/
theorem open_gate_forgets_default (hb : s.profile.boundNode? key = none)
    (hg : s.profile.buttons.gates.get? key = some gate) (hnone : s.stores.pending.get? key = none)
    (ht : s.stores.disk.IsTree) (hopen : Node.token? s.stores.disk gate.node = some gate.required)
    (hapart : ¬s.stores.disk.Among s.stores.documents (s.stores.disk.placeOf gate.node)) :
    s.openScreen.screen.get? key = some (.switch key (s.stores.preferences.switchOrDefault s.profile key))
      ∧ s.openScreen.resume.screen.get? key = some (.switch key (s.stores.isOn key))
      ∧ s.openScreen.resume.stores.preferences.get? key = s.stores.preferences.get? key
      ∧ (s.openScreen.resume.screen.get? key = s.openScreen.screen.get? key
        ↔ (∃ on, s.stores.preferences.get? key = some (.switch on)) ∨ s.profile.defaultSwitch key = false) := by
  obtain ⟨hshown, hvalue, hpending⟩ := opened_gated hb hg
  have hsteady : s.SteadyGate key (some true) := by
    intro t hs
    rw [Gate.isOpen?_eq_map hg, stable_of_token? ht hopen hapart t hs, hopen]
    simp
  have hgate : s.openScreen.SteadyGate key (some true) := hsteady.of_saves rfl (saves_opened s)
  have hresumed := agreeAt_resume hgate (Table.mem_keys_of_get? hg)
  have hcomesBack : s.openScreen.stores.comesBack key = s.stores.isOn key := by
    rw [Stores.comesBack, hpending, hnone]
    exact Stores.isOn_congr hvalue
  obtain ⟨hcontrol, -, -, hstored⟩ := reconcile_open (hgate _ .refl) hshown
  have hafter : s.openScreen.resume.screen.get? key = some (.switch key (s.stores.isOn key)) := by
    rw [hresumed.control, hcontrol, hcomesBack]
    rfl
  refine ⟨hshown, hafter, ?_, ?_⟩
  · rw [hresumed.value, hstored, hcomesBack, Stores.isOn_congr hvalue, if_neg (not_not.mpr rfl), hvalue]
  · rw [hafter, hshown, ← isOn_eq_switchOrDefault (p := s.profile)]
    simp [Control.switch]

/-- A switch is on by default, and its gate is open. -/
def onByDefault : Session :=
  start { behindGate with defaults := .ofList [("d", .switch true)] } ⟨.inMemory, .inMemory, gateDevice (some "1")⟩
    .inline

/-- It is shown as on when its screen is opened, and as off once the screen is resumed. -/
theorem open_gate_forgets_default_on :
    onByDefault.profile.IsValid ∧ onByDefault.stores.preferences.get? "d" = none
      ∧ onByDefault.openScreen.screen.get? "d" = some (.switch "d" true)
      ∧ onByDefault.openScreen.resume.screen.get? "d" = some (.switch "d" false) := by
  have hg : onByDefault.profile.buttons.gates.get? "d" = some ⟨⟨"w"⟩, "1"⟩ := rfl
  obtain ⟨hopened, hresumed, -⟩ := open_gate_forgets_default (s := onByDefault) (by decide +kernel) hg rfl
    (Disk.isTree_of_entries (by decide +kernel)) (by decide +kernel) (by decide +kernel)
  exact ⟨by decide +kernel, rfl, hopened, hresumed⟩

end Session

end DeviceSettings

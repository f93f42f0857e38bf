import DeviceSettings.Proofs.Failing
import Mathlib.Logic.Function.Iterate

/-!
# Settings whose node cannot be read

Opening a screen shuts out a setting whose node cannot be read.  Resuming the screen asks the gates alone: a gate that
is open lets its setting in whatever became of the setting's own node.  So such a setting stays shut out until the
screen is resumed with an open gate, and without a gate it stays shut out for good
(`Session.unreadable_enabled_iff`).
-/

namespace DeviceSettings

/-- In a valid profile no list setting has a gate. -/
theorem Profile.IsValid.ungated_of_text {p : Profile} (hp : p.IsValid) {key : Key} {node : Path}
    (hb : p.boundNode? key = some (node, .text)) : p.buttons.gates.contains key = false := by
  have hfault : p.fault? = none := hp
  have htext : p.buttons.texts.contains key = true := Table.contains_of_get? (boundNode?_text.mp hb).2
  unfold fault? at hfault
  split at hfault
  · cases hfault
  split at hfault
  · cases hfault
  cases hfind : p.buttons.gates.keys.find? p.buttons.texts.contains with
  | some k =>
    rw [hfind] at hfault
    cases hfault
  | none =>
    rw [Bool.eq_false_iff]
    intro hgated
    exact List.find?_eq_none.mp hfind key (Table.contains_iff.mp hgated) htext

namespace Session

variable {s : Session} {key : Key} {node : Path} {kind : Profile.NodeKind} {c : Control}

/-! ## opening -/

theorem enabled_openBound {p : Profile} (s : Stores) :
    (openBound p key node kind s).1.enabled = (Node.token? s.disk node).isSome := by
  rw [control_openBound]
  cases Node.token? s.disk node <;> cases kind <;> rfl

/-- A setting whose node cannot be read is shut out when its screen is opened. -/
theorem disabled_openScreen (hp : s.profile.IsValid) (hb : s.profile.boundNode? key = some (node, kind))
    (hstable : Stable s.stores node) (hnone : Node.token? s.stores.disk node = none) :
    ∃ c, s.openScreen.screen.get? key = some c ∧ c.enabled = false := by
  obtain ⟨t, hsaves, -, hcontrol, -⟩ := openScreen_bound hp hb
  refine ⟨_, hcontrol, ?_⟩
  rw [enabled_openBound, hstable t hsaves, hnone]
  rfl

/-! ## resuming -/

/-- A look at its gate enables a control or disables it, and leaves it as it is if the gate cannot be read. -/
theorem enabled_reconcile (hc : s.screen.get? key = some c) :
    ∃ c', (s.reconcile key).screen.get? key = some c'
      ∧ c'.enabled = (Gate.isOpen? s.profile.buttons.gates s.stores.disk key).getD c.enabled := by
  cases hopen : Gate.isOpen? s.profile.buttons.gates s.stores.disk key with
  | none => exact ⟨c, by rw [reconcile_of_none hopen, hc], rfl⟩
  | some isOpen =>
    cases isOpen with
    | true => exact ⟨_, (reconcile_open hopen hc).1, rfl⟩
    | false => exact ⟨_, (reconcile_closed hopen hc).1, rfl⟩

/-- Whatever is saved, a look at the setting's gate finds the same. -/
def SteadyGate (s : Session) (key : Key) (found : Option Bool) : Prop :=
  ∀ t, s.stores.Saves t → Gate.isOpen? s.profile.buttons.gates t.disk key = found

theorem steadyGate (h : ∀ gate, s.profile.buttons.gates.get? key = some gate → Stable s.stores gate.node) :
    s.SteadyGate key (Gate.isOpen? s.profile.buttons.gates s.stores.disk key) :=
  fun t ht => Gate.isOpen?_congr fun gate hgate => h gate hgate t ht

section
variable {found : Option Bool}

theorem SteadyGate.of_saves {t : Session} (h : s.SteadyGate key found) (hp : t.profile = s.profile)
    (ht : s.stores.Saves t.stores) : t.SteadyGate key found := by
  intro u hu
  rw [hp]
  exact h u (ht.trans hu)

/-- Looks at gates in a row do to a control what the look at its own gate does. -/
theorem enabled_foldl (h : s.SteadyGate key found) (hc : s.screen.get? key = some c) (ks : List Key) :
    ∃ c', (ks.foldl reconcile s).screen.get? key = some c'
      ∧ c'.enabled = if key ∈ ks then found.getD c.enabled else c.enabled := by
  induction ks generalizing s c with
  | nil => exact ⟨c, hc, rfl⟩
  | cons k ks ih =>
    have hnext : (s.reconcile k).SteadyGate key found := h.of_saves (profile_reconcile s k) (saves_reconcile s k)
    by_cases hk : key = k
    · subst hk
      obtain ⟨c₁, hc₁, henabled⟩ := enabled_reconcile hc
      rw [h _ .refl] at henabled
      obtain ⟨c', hc', henabled'⟩ := ih hnext hc₁
      refine ⟨c', hc', ?_⟩
      rw [henabled', henabled, if_pos List.mem_cons_self]
      -- a second look finds what the first did
      cases found <;> simp
    · have hsame : (s.reconcile k).screen.get? key = some c := (agreeAt_reconcile hk).control.trans hc
      obtain ⟨c', hc', henabled'⟩ := ih hnext hsame
      refine ⟨c', hc', ?_⟩
      rw [henabled']
      simp [hk]

/-- Resuming asks the gate of every gated setting. -/
theorem enabled_resume (h : s.SteadyGate key found) (hc : s.screen.get? key = some c) :
    ∃ c', s.resume.screen.get? key = some c' ∧ c'.enabled = found.getD c.enabled := by
  obtain ⟨c', hc', henabled⟩ := enabled_foldl h hc s.profile.buttons.gates.keys
  refine ⟨c', hc', ?_⟩
  rw [henabled]
  split
  · rfl
  · next hmem =>
    -- nothing is found for a setting without a gate
    have hungated : s.profile.buttons.gates.contains key = false :=
      Bool.eq_false_iff.mpr fun hgated => hmem (Table.contains_iff.mp hgated)
    rw [← h _ .refl, Gate.isOpen?_eq_none hungated]
    rfl

theorem enabled_resume_iterate (h : s.SteadyGate key found) (hc : s.screen.get? key = some c) (n : Nat) :
    ∃ c', (resume^[n] s).screen.get? key = some c'
      ∧ c'.enabled = if n = 0 then c.enabled else found.getD c.enabled := by
  induction n generalizing s c with
  | zero => exact ⟨c, hc, rfl⟩
  | succ n ih =>
    obtain ⟨c₁, hc₁, henabled⟩ := enabled_resume h hc
    have hnext : s.resume.SteadyGate key found := h.of_saves (profile_foldl_reconcile s _) (saves_foldl s _)
    obtain ⟨c', hc', henabled'⟩ := ih hnext hc₁
    refine ⟨c', hc', ?_⟩
    rw [henabled', henabled, if_neg n.succ_ne_zero]
    cases found <;> simp

end

/-- **A setting whose node cannot be read is shut out until its screen is resumed behind an open gate.**  After the
screen is opened and resumed any number of times, with the nodes as they were, the control of a setting whose node
cannot be read is enabled if and only if the screen was resumed and the setting's gate is open; a list setting's never
is.  While it is disabled every change of the setting is rejected and changes nothing. -/
theorem unreadable_enabled_iff (hp : s.profile.IsValid) (hb : s.profile.boundNode? key = some (node, kind))
    (hnone : Node.token? s.stores.disk node = none) (hnode : Stable s.stores node)
    (hgate : ∀ gate, s.profile.buttons.gates.get? key = some gate → Stable s.stores gate.node) (n : Nat) :
    let t := resume^[n] s.openScreen
    ∃ c, t.screen.get? key = some c
      ∧ (c.enabled = true ↔ 0 < n ∧ Gate.isOpen? s.profile.buttons.gates s.stores.disk key = some true)
      ∧ (kind = .text → c.enabled = false)
      ∧ (c.enabled = false → ∀ v, t.apply key v = (.rejected (.disabled key), t)) := by
  obtain ⟨c₀, hc₀, hoff⟩ := disabled_openScreen hp hb hnode hnone
  have hsteady := (steadyGate hgate).of_saves (t := s.openScreen) rfl (saves_opened s)
  obtain ⟨c, hc, henabled⟩ := enabled_resume_iterate hsteady hc₀ n
  rw [hoff] at henabled
  have hiff : c.enabled = true
      ↔ 0 < n ∧ Gate.isOpen? s.profile.buttons.gates s.stores.disk key = some true := by
    rw [henabled]
    cases n with
    | zero => simp
    | succ n => cases Gate.isOpen? s.profile.buttons.gates s.stores.disk key <;> simp
  refine ⟨c, hc, hiff, ?_, fun hdisabled v => apply_of_disabled hc hdisabled v⟩
  rintro rfl
  rw [Bool.eq_false_iff]
  intro hon
  have hopen := (hiff.mp hon).2
  rw [Gate.isOpen?_eq_none (hp.ungated_of_text hb)] at hopen
  cases hopen

/-- No save touches anything when the stores have no files. -/
theorem stable_of_inMemory {s : Stores} (hs : s.InMemory) (node : Path) : Stable s node := by
  intro t ht
  rw [Stores.disk, (ht.inMemory hs).1]
  rfl

/-- A switch has a node that is missing, and a gate that is open. -/
def missingBehindGate : Session :=
  start
    { Boot.switchAndText with
      buttons :=
        { switches := .ofList [("k", ⟨"n"⟩)]
          texts := .empty
          gates := .ofList [("k", ⟨⟨"w"⟩, "1"⟩)]
          presence := [] } }
    ⟨.inMemory, .inMemory, gateDevice (some "1")⟩ .inline

/-- Its control is disabled when the screen is opened, and enabled once the screen is resumed. -/
theorem unreadable_enabled_iff_gated :
    let s := missingBehindGate
    Node.token? s.stores.disk ⟨"n"⟩ = none
      ∧ (∃ c, s.openScreen.screen.get? "k" = some c ∧ c.enabled = false)
      ∧ ∃ c, s.openScreen.resume.screen.get? "k" = some c ∧ c.enabled = true := by
  have hnone : Node.token? missingBehindGate.stores.disk ⟨"n"⟩ = none := by decide +kernel
  have hb : missingBehindGate.profile.boundNode? "k" = some (⟨"n"⟩, .switch) := by decide +kernel
  have hmemory : missingBehindGate.stores.InMemory := ⟨rfl, rfl⟩
  have h := unreadable_enabled_iff (by decide +kernel) hb hnone (stable_of_inMemory hmemory _)
    fun _ _ => stable_of_inMemory hmemory _
  obtain ⟨c₀, hc₀, hiff₀, -⟩ := h 0
  obtain ⟨c₁, hc₁, hiff₁, -⟩ := h 1
  refine ⟨hnone, ⟨c₀, hc₀, ?_⟩, c₁, hc₁, hiff₁.mpr ⟨Nat.one_pos, by decide +kernel⟩⟩
  rw [Bool.eq_false_iff]
  exact fun hon => absurd (hiff₀.mp hon).1 (Nat.lt_irrefl 0)

end Session

end DeviceSettings

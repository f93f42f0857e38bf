import DeviceSettings.Proofs.Repeating
import DeviceSettings.Proofs.Twins
import DeviceSettings.Proofs.Untouched

/-!
# What one change may touch

A change that is rejected touches nothing.  One whose node does not take its value stores and shows it, and does
nothing else.  One that is applied gives the value to the node too; then each setting behind a gate on that node looks
at it once, and pocket mode is asked for if the setting is one of its own (`Session.apply_footprint`).
-/

namespace DeviceSettings.Session

open Disk (Touches)

variable {s t : Session} {key k : Key} {v : Value} {node : Path} {kind : Profile.NodeKind}

/-! ## the setting itself -/

theorem current?_of_showing? {c c' : Control} (h : c.showing? v = some c') : c'.current? = some v := by
  cases v with
  | switch on =>
    by_cases hkind : c.kind = .switch
    · rw [Control.showing?, if_pos hkind] at h
      obtain rfl := Option.some.inj h
      rw [Control.current?, hkind]
    · rw [Control.showing?, if_neg hkind] at h
      cases h
  | text line =>
    by_cases hkind : c.kind = .text
    · rw [Control.showing?, if_pos hkind] at h
      obtain rfl := Option.some.inj h
      rw [Control.current?, hkind]
      rfl
    · rw [Control.showing?, if_neg hkind] at h
      cases h

/-- The setting is stored as the value and its control shows it; the control is the same otherwise, and what is
pending for it stays. -/
structure Gave (key : Key) (v : Value) (s t : Session) : Prop where
  value : t.stores.preferences.get? key = some v
  control : ∃ c c', s.screen.get? key = some c ∧ c.showing? v = some c' ∧ t.screen.get? key = some c'
    ∧ c'.current? = some v
  pending : t.stores.pending.get? key = s.stores.pending.get? key

theorem Gave.of_agreeAt {u : Session} (h : Gave key v s t) (ha : AgreeAt key t u) : Gave key v s u := by
  obtain ⟨c, c', hc, hshows, hc', hcurrent⟩ := h.control
  exact ⟨ha.value.trans h.value, ⟨c, c', hc, hshows, ha.control.trans hc', hcurrent⟩, ha.pending.trans h.pending⟩

theorem gave_accept {c' : Control} (h : s.showing? key v = some c') : Gave key v s (s.accept key v) := by
  obtain ⟨c, hc, -, hshows⟩ := showing?_eq_some.mp h
  obtain ⟨hcontrol, hvalue, hpending⟩ := screen_accept h
  exact ⟨hvalue, ⟨c, c', hc, hshows, hcontrol, current?_of_showing? hshows⟩, by rw [hpending]⟩

/-! ## what depends on it -/

/-- Once its node has taken the value no save changes what a gate on it is found to be. -/
theorem steadyGate_accept {c' : Control} (h : s.showing? key v = some c') (hok : (s.enter key v).1 = .ok ())
    (ht : s.stores.disk.IsTree) (hapart : ∀ node kind, s.profile.boundNode? key = some (node, kind) →
      ¬s.stores.disk.Among s.stores.documents (s.stores.disk.placeOf node)) (hk : k ∈ s.dependents key) :
    ∃ found, (s.accept key v).SteadyGate k found := by
  refine ⟨_, steadyGate fun gate hgate => ?_⟩
  rw [profile_accept] at hgate
  rw [dependents] at hk
  cases hb : s.profile.boundNode? key with
  | none =>
    rw [hb] at hk
    cases hk
  | some b =>
    obtain ⟨node, kind⟩ := b
    rw [hb] at hk
    obtain ⟨gate', hgate', hsame⟩ := Profile.mem_gatedOn.mp hk
    obtain rfl : gate' = gate := Option.some.inj (hgate'.symm.trans hgate)
    obtain ⟨mode, hentry⟩ := entry_enter ht hb hok
    have hgrown := (touches_enter ht (List.Subset.refl _) key v).grown
    have hdocuments := documents_enter s key v
    rw [← stores_accept h] at hentry hgrown hdocuments
    refine stable_of_same (hgrown.isTree ht) hentry hsame ?_
    rw [hdocuments, Disk.among_congr hgrown.work, hgrown.placeOf_eq]
    exact hapart node kind hb

/-- Each setting behind a gate on the node looks at it once, on the device as it is in the end. -/
theorem agreeAt_dependent {c' : Control} (h : s.showing? key v = some c') (hok : (s.enter key v).1 = .ok ())
    (ht : s.stores.disk.IsTree) (hapart : ∀ node kind, s.profile.boundNode? key = some (node, kind) →
      ¬s.stores.disk.Among s.stores.documents (s.stores.disk.placeOf node)) (hne : k ≠ key) (hk : k ∈ s.dependents key) :
    let t := (s.dependents key).foldl reconcile (s.accept key v)
    AgreeAt k ((s.withDevice t.stores.device).reconcile k) t := by
  intro t
  obtain ⟨found, hgate⟩ := steadyGate_accept h hok ht hapart hk
  have hnodup : (s.dependents key).Nodup := by
    rw [dependents]
    cases s.profile.boundNode? key with
    | none => exact List.nodup_nil
    | some b => exact s.profile.nodup_gatedOn b.1
  have hsaves : (s.accept key v).stores.Saves t.stores := saves_foldl _ _
  -- on that device the setting is as it was and its gate is what it was found to be
  have haccept : AgreeAt k (s.withDevice t.stores.device) (s.accept key v) :=
    let ha := agreeAt_accept v hne
    ⟨ha.control, ha.value, ha.pending⟩
  have hlook : AgreeAt k ((s.withDevice t.stores.device).reconcile k) ((s.accept key v).reconcile k) := by
    refine haccept.reconcile ?_
    rw [hgate _ .refl, ← hgate _ hsaves, profile_accept]
    rfl
  exact hlook.trans (agreeAt_foldl_reconcile hgate hnodup hk)

/-- A look at a gate stores a switch at most. -/
theorem switch_reconcile (s : Session) (k : Key) :
    (s.reconcile k).stores.preferences.get? k = s.stores.preferences.get? k
      ∨ ∃ on, (s.reconcile k).stores.preferences.get? k = some (.switch on) := by
  refine reconcile_keeps s k (motive := fun u => u.preferences.get? k = s.stores.preferences.get? k
    ∨ ∃ on, u.preferences.get? k = some (.switch on)) (fun u on _ => ?_) (fun _ _ h => h) (.inl rfl)
  exact .inr ⟨on, (Stores.get?_put u k k _).trans (if_pos rfl)⟩

/-! ## all of it -/

/-- The value is stored and shown, and besides its own node and the preferences' files nothing changed. -/
structure OnlyStored (key : Key) (v : Value) (s t : Session) : Prop extends Gave key v s t where
  others : ∀ k, k ≠ key → AgreeAt k s t
  choices : t.stores.pending = s.stores.pending
  requests : Silent s t
  disk : Touches s.stores.preferences.documents (s.nodes key) s.stores.disk t.stores.disk

/-- The value is stored, shown and in its node, however the node is spelled; each setting behind a gate on the node
is as one look at the gate leaves it, and every other setting is as it was.  Nothing but switches is stored for other
settings, and a request is made for pocket mode only. -/
structure CarriedOut (key : Key) (v : Value) (s t : Session) : Prop extends Gave key v s t where
  node : ∀ node kind, s.profile.boundNode? key = some (node, kind) →
    ∃ mode, t.stores.disk.entry node = .ok (.file v.token.toUTF8 mode)
      ∧ ∀ n e, n.Same node → t.stores.disk.entry n = .ok e → e = .file v.token.toUTF8 mode
  dependents : ∀ k ∈ s.dependents key, AgreeAt k ((s.withDevice t.stores.device).reconcile k) t
  others : ∀ k, k ≠ key → k ∉ s.dependents key → AgreeAt k s t
  switches : ∀ k, k ≠ key → t.stores.preferences.get? k = s.stores.preferences.get? k
    ∨ ∃ on, t.stores.preferences.get? k = some (.switch on)
  requests : Silent
    (if s.profile.pocket.watches key then s.request (s.profile.pocket.request t.stores.preferences) else s) t
  disk : Touches s.stores.documents (s.nodes key) s.stores.disk t.stores.disk

theorem eq_of_rejected {why : Rejection} (h : (s.apply key v).1 = .rejected why) : (s.apply key v).2 = s := by
  rcases apply_cases s key v with ⟨_, heq⟩ | ⟨_, -, ⟨_, heq⟩ | ⟨-, heq⟩⟩
  · rw [heq]
  · rw [heq] at h
    cases h
  · rw [heq] at h
    cases h

theorem onlyStored_of_writeFailed {e : DeviceError} (ht : s.stores.disk.IsTree)
    (h : (s.apply key v).1 = .writeFailed e) : OnlyStored key v s (s.apply key v).2 := by
  rcases apply_cases s key v with ⟨_, heq⟩ | ⟨c', hc', ⟨_, heq⟩ | ⟨-, heq⟩⟩
  · rw [heq] at h
    cases h
  · rw [heq]
    refine ⟨gave_accept hc', fun k hk => agreeAt_accept v hk, (screen_accept hc').2.2, silent_accept s key v, ?_⟩
    rw [stores_accept hc']
    exact touches_enter ht (List.Subset.refl _) key v
  · rw [heq] at h
    cases h

/-- What two spellings of one path lead to, if they lead anywhere, is the same. -/
theorem entry_of_same {d : Disk} {p q : Path} {e e' : Entry} (hp : d.entry p = .ok e) (hq : d.entry q = .ok e')
    (h : q.Same p) : e' = e := by
  obtain ⟨x, hx, hat⟩ := Disk.entry_ok.mp hp
  obtain ⟨y, hy, hat'⟩ := Disk.entry_ok.mp hq
  have hplace : y = x := by rw [Disk.resolve_eq hx, Disk.resolve_eq hy, h.placeOf_eq]
  subst hplace
  exact Option.some.inj (hat'.symm.trans hat)

/-- A look at pocket mode makes its request, if the setting is one of its own. -/
theorem silent_checkPocket (h : Silent s t) (hp : t.profile = s.profile) : Silent
    (if s.profile.pocket.watches key then s.request (s.profile.pocket.request t.stores.preferences) else s)
    (t.checkPocket key) := by
  rw [checkPocket, hp]
  cases s.profile.pocket.watches key with
  | true => exact h.request _
  | false => exact h

theorem apply_of_applied (h : (s.apply key v).1 = .applied) : ∃ c', s.showing? key v = some c'
    ∧ (s.apply key v).2 = ((s.dependents key).foldl reconcile (s.accept key v)).checkPocket key := by
  rcases apply_cases s key v with ⟨_, heq⟩ | ⟨c', hc', ⟨_, heq⟩ | ⟨-, heq⟩⟩
  · rw [heq] at h
    cases h
  · rw [heq] at h
    cases h
  · rw [heq, dependents_accept]
    exact ⟨c', hc', rfl⟩

section
variable (ht : s.stores.disk.IsTree) (hapart : ∀ node kind, s.profile.boundNode? key = some (node, kind) →
  ¬s.stores.disk.Among s.stores.documents (s.stores.disk.placeOf node))
include ht hapart

theorem carriedOut_of_applied (hself : key ∉ s.dependents key) (h : (s.apply key v).1 = .applied) :
    CarriedOut key v s (s.apply key v).2 := by
  obtain ⟨hok, -⟩ := stores_applied h
  obtain ⟨c', hc', heq⟩ := apply_of_applied h
  obtain ⟨-, -, hstores, -⟩ := checkPocket_same ((s.dependents key).foldl reconcile (s.accept key v)) key
  have hlook (k : Key) (hk : k ∈ s.dependents key) :
      AgreeAt k ((s.withDevice (s.apply key v).2.stores.device).reconcile k) (s.apply key v).2 := by
    have hne : k ≠ key := fun hk' => hself (hk' ▸ hk)
    rw [heq, hstores]
    exact (agreeAt_dependent hc' hok ht hapart hne hk).trans (agreeAt_checkPocket _ key k)
  refine ⟨?_, fun node kind hb => ?_, hlook, fun k hk hd => agreeAt_apply hk hd v, fun k hk => ?_, ?_,
    touches_apply ht (List.Subset.refl _)⟩
  · rw [heq]
    exact (gave_accept hc').of_agreeAt ((agreeAt_foldl hself _).trans (agreeAt_checkPocket _ key key))
  · obtain ⟨mode, hentry⟩ := entry_applied ht hb (hapart node kind hb) h
    exact ⟨mode, hentry, fun n e hsame he => entry_of_same hentry he hsame⟩
  · by_cases hd : k ∈ s.dependents key
    · rw [(hlook k hd).value]
      exact switch_reconcile _ k
    · exact .inl (agreeAt_apply hk hd v).value
  · rw [heq, hstores]
    refine silent_checkPocket ((silent_accept s key v).trans (silent_foldl _ _)) ?_
    rw [profile_foldl_reconcile, profile_accept]

/-- **What one change may touch**, if the node of its setting is none of the files of the stores.  Rejected, it touches
nothing.  If the node does not take the value, the value is stored and shown and that is all.  If it is applied to a
setting that is not gated on its own node, the value is in the node too, and besides only the settings behind gates on
the node changed, each as one look at its gate makes it. -/
theorem apply_footprint :
    (∀ why, (s.apply key v).1 = .rejected why → (s.apply key v).2 = s)
      ∧ (∀ e, (s.apply key v).1 = .writeFailed e → OnlyStored key v s (s.apply key v).2)
      ∧ ((∀ gate node kind, s.profile.buttons.gates.get? key = some gate →
          s.profile.boundNode? key = some (node, kind) → ¬gate.node.Same node) →
        (s.apply key v).1 = .applied → CarriedOut key v s (s.apply key v).2) :=
  ⟨fun _ => eq_of_rejected, fun _ => onlyStored_of_writeFailed ht,
    fun hself => carriedOut_of_applied ht hapart (not_mem_dependents_self hself)⟩

end

/-- The switch is on, and the setting that is gated on its node is shut out. -/
def shutOutBySwitch : Session := gatedBySwitch.openScreen.resume

/-- Switched off, the switch opens the gate of the other, which comes back on. -/
theorem apply_footprint_opening :
    let t := (shutOutBySwitch.apply "s" (.switch false)).2
    t.stores.preferences.get? "s" = some (.switch false)
      ∧ (∃ mode, t.stores.disk.entry ⟨"w"⟩ = .ok (.file "0".toUTF8 mode))
      ∧ shutOutBySwitch.screen.get? "d" = some { Control.switch "d" false with enabled := false }
      ∧ t.screen.get? "d" = some (.switch "d" true) ∧ t.delivered = shutOutBySwitch.delivered := by
  intro t
  have hb (node : Path) (kind : Profile.NodeKind) (h : shutOutBySwitch.profile.boundNode? "s" = some (node, kind)) :
      node = ⟨"w"⟩ := by
    have hbound : shutOutBySwitch.profile.boundNode? "s" = some (⟨"w"⟩, .switch) := by decide +kernel
    exact congrArg Prod.fst (Option.some.inj (h.symm.trans hbound))
  have hapart (node : Path) (kind : Profile.NodeKind) (h : shutOutBySwitch.profile.boundNode? "s" = some (node, kind)) :
      ¬shutOutBySwitch.stores.disk.Among shutOutBySwitch.stores.documents (shutOutBySwitch.stores.disk.placeOf node) := by
    rw [hb node kind h]
    decide +kernel
  have hgate : shutOutBySwitch.profile.buttons.gates.get? "s" = none := by decide +kernel
  obtain ⟨-, -, happlied⟩ := apply_footprint (s := shutOutBySwitch) (v := .switch false)
    (Disk.isTree_of_entries (by decide +kernel)) hapart
  have hdone := happlied (fun gate _ _ h => by rw [hgate] at h; cases h) (by decide +kernel)
  obtain ⟨mode, hentry, -⟩ := hdone.node ⟨"w"⟩ .switch (by decide +kernel)
  have hunwatched : shutOutBySwitch.profile.pocket.watches "s" = false := by decide +kernel
  have hrequests := hdone.requests.delivered
  rw [hunwatched] at hrequests
  refine ⟨hdone.value, ⟨mode, hentry⟩, by decide +kernel, ?_, hrequests⟩
  rw [(hdone.dependents "d" (by decide +kernel)).control]
  decide +kernel

end DeviceSettings.Session

import DeviceSettings.Proofs.Filing
import DeviceSettings.Proofs.Rest

/-!
# A change keeps settings at rest

A change that is made stores one value and writes one node.  The setting itself shows what its node holds by
then, a setting that is gated on the node looks at its gate, and no other setting notices
(`Session.atRest_apply`).
-/

namespace DeviceSettings

open Disk (Grown)
open Stores (Saves Housed)

/-- A node that is given the value holds it, for its text is a trimmed line. -/
def Value.IsLine (v : Value) : Prop := Text.firstLine? v.token.toUTF8 = some v.token

theorem Value.isLine_switch (on : Bool) : (Value.switch on).IsLine := by
  unfold IsLine
  cases on <;> decide +kernel

theorem Value.switchToken_eq (on : Bool) : (switchToken on == switchToken true) = on := by
  cases on <;> decide

namespace Profile

variable {p : Profile} {key : Key} {node : Path}

theorem mem_gatedOn : key ∈ p.gatedOn node ↔ ∃ gate, p.buttons.gates.get? key = some gate ∧ gate.node.Same node := by
  rw [gatedOn, List.mem_map]
  constructor
  · rintro ⟨⟨k, gate⟩, hmem, rfl⟩
    obtain ⟨hmem, hsame⟩ := List.mem_filter.1 hmem
    exact ⟨gate, Table.get?_eq_some_iff.2 hmem, of_decide_eq_true hsame⟩
  · rintro ⟨gate, hgate, hsame⟩
    exact ⟨(key, gate), List.mem_filter.2 ⟨Table.get?_eq_some_iff.1 hgate, decide_eq_true hsame⟩, rfl⟩

theorem nodup_gatedOn (p : Profile) (node : Path) : (p.gatedOn node).Nodup :=
  List.pairwise_map.mpr ((Session.pairwise_keys p.buttons.gates).filter _)

/-- A gate is on no setting that a node mirrors. -/
theorem GatesApart.not_gated {b : Path × NodeKind} (h : p.GatesApart) (hb : p.boundNode? key = some b) :
    p.buttons.gates.contains key = false := by
  cases hk : p.buttons.gates.contains key with
  | false => rfl
  | true =>
    rw [h.unbound key hk] at hb
    cases hb

end Profile

namespace Session

variable {home : Path} {s : Session} {key k : Key} {node : Path} {kind : Profile.NodeKind} {v : Value}

/-- A setting that is not gated on its own node does not depend on itself. -/
theorem not_mem_dependents_self (h : ∀ gate node kind, s.profile.buttons.gates.get? key = some gate →
    s.profile.boundNode? key = some (node, kind) → ¬gate.node.Same node) : key ∉ s.dependents key := by
  rw [dependents]
  cases hb : s.profile.boundNode? key with
  | none => exact List.not_mem_nil
  | some b =>
    intro hmem
    obtain ⟨gate, hgate, hsame⟩ := Profile.mem_gatedOn.mp hmem
    exact h gate b.1 b.2 hgate hb hsame

/-! ## entering a value -/

theorem enter_of_bound (hb : s.profile.boundNode? key = some (node, kind)) (v : Value) :
    s.enter key v = ((Node.write node v.token (s.stores.put key v).device).1,
      { s with stores := (Change.write node v.token).run (s.stores.put key v) }) := by
  unfold enter writeNode
  dsimp only
  rw [hb]
  rfl

/-- Only the documents of the stores and the node change. -/
theorem grown_enter (hs : s.Placed home) (hb : s.profile.boundNode? key = some (node, kind)) (v : Value) :
    Grown (fun x => s.stores.disk.IsStore home x ∨ x = s.stores.disk.placeOf node)
        (s.stores.disk.Above (Home.run home)) s.stores.disk (s.enter key v).2.stores.disk
      ∧ (s.enter key v).2.stores.Housed home := by
  obtain ⟨hput, hhoused⟩ := (Saves.refl.put key v).grown hs.housed
  have hwrite := (Change.write node v.token).grown hhoused
  rw [enter_of_bound hb v]
  refine ⟨(hput.mono (fun _ => .inl) fun _ h => h).trans (hwrite.mono (fun x hx => ?_) fun x hx => ?_),
    (Change.write node v.token).housed hhoused⟩
  · exact .inr (hx.trans (hput.placeOf_eq node))
  · exact (hput.above_iff _ x).1 hx

theorem Placed.enter (hs : s.Placed home) (key : Key) (v : Value) : (s.enter key v).2.Placed home := by
  cases hb : s.profile.boundNode? key with
  | none =>
    rw [enter_of_unbound hb]
    exact hs.of_saves rfl (Saves.refl.put key v)
  | some b =>
    obtain ⟨hgrown, hhoused⟩ := grown_enter hs hb v
    refine ⟨hhoused, ?_⟩
    rw [profile_enter]
    exact hs.fits.of_grown hgrown

/-- The node that takes a value holds it. -/
theorem entry_enter (ht : s.stores.disk.IsTree) (hb : s.profile.boundNode? key = some (node, kind))
    (hok : (s.enter key v).1 = .ok ()) :
    ∃ mode, (s.enter key v).2.stores.disk.entry node = .ok (.file v.token.toUTF8 mode) := by
  rw [enter_of_bound hb] at hok ⊢
  exact Node.entry_of_write ((Stores.grown_put ht key v).isTree ht) hok

/-- A node at another place holds what it held. -/
theorem token?_enter (hs : s.Placed home) (hb : s.profile.boundNode? key = some (node, kind)) (v : Value)
    {n : Path} (hn : s.profile.Reads n) (hne : s.stores.disk.placeOf n ≠ s.stores.disk.placeOf node) :
    Node.token? (s.enter key v).2.stores.disk n = Node.token? s.stores.disk n := by
  refine Node.token?_eq hs.housed.hosts.isTree (grown_enter hs hb v).1 (hs.fits.steady n hn) ?_
  rintro (hstore | heq)
  · exact hs.fits.apart n hn hstore
  · exact hne heq

/-! ## the setting itself -/

/-- A setting without a node that can be changed is not behind a closed gate. -/
theorem AtRest.of_unbound {c : Control} (h : s.AtRest key) (hb : s.profile.boundNode? key = none)
    (hc : s.screen.get? key = some c) (hon : c.enabled = true) :
    s.profile.buttons.gates.contains key = true
      ∧ Gate.isOpen? s.profile.buttons.gates s.stores.disk key ≠ some false
      ∧ c = .switch key (s.stores.isOn key) := by
  have hcontrol := h.control
  rw [shown, hb, hc] at hcontrol
  dsimp only at hcontrol
  by_cases hk : s.profile.buttons.gates.contains key = true
  · rw [if_pos hk] at hcontrol
    by_cases hclosed : Gate.isOpen? s.profile.buttons.gates s.stores.disk key = some false
    · rw [if_pos hclosed] at hcontrol
      rw [Option.some.inj hcontrol] at hon
      cases hon
    · rw [if_neg hclosed] at hcontrol
      exact ⟨hk, hclosed, Option.some.inj hcontrol⟩
  · rw [if_neg hk] at hcontrol
    cases hcontrol

/-- A setting that can be changed shows what its node holds. -/
theorem AtRest.of_bound {c : Control} (h : s.AtRest key) (hb : s.profile.boundNode? key = some (node, kind))
    (hc : s.screen.get? key = some c) (hon : c.enabled = true) :
    (kind = .switch ∧ ∃ checked, c = .switch key checked) ∨ (kind = .text ∧ ∃ text, c = .text key (some text)) := by
  have hcontrol := h.control
  rw [shown_of_bound hb, hc, control_openBound] at hcontrol
  cases htoken : Node.token? s.stores.disk node with
  | some token =>
    rw [htoken] at hcontrol
    cases kind with
    | switch => exact .inl ⟨rfl, _, Option.some.inj hcontrol⟩
    | text => exact .inr ⟨rfl, _, Option.some.inj hcontrol⟩
  | none =>
    rw [htoken] at hcontrol
    rw [Option.some.inj hcontrol] at hon
    cases hon

/-- The control that shows a value that was entered is the one that opening the screen would make. -/
theorem AtRest.shown_entered {c' : Control} {t : Stores} (h : s.AtRest key)
    (hb : s.profile.boundNode? key = some (node, kind)) (hs : s.showing? key v = some c')
    (htoken : Node.token? t.disk node = some v.token) :
    shown s.profile t key = some c'
      ∧ ((kind = .switch ∧ ∃ on, v = .switch on) ∨ (kind = .text ∧ ∃ text, v = .text text)) := by
  obtain ⟨c, hc, hon, hshowing⟩ := showing?_eq_some.1 hs
  rcases h.of_bound hb hc hon with ⟨rfl, checked, rfl⟩ | ⟨rfl, text, rfl⟩
  · cases v with
    | text text => cases hshowing
    | switch on =>
      cases hshowing
      refine ⟨?_, .inl ⟨rfl, on, rfl⟩⟩
      rw [shown_of_bound hb, control_openBound, htoken]
      show some (Control.switch key (Value.switchToken on == Value.switchToken true)) = _
      rw [Value.switchToken_eq]
      rfl
  · cases v with
    | switch on => cases hshowing
    | text text' =>
      cases hshowing
      refine ⟨?_, .inr ⟨rfl, text', rfl⟩⟩
      rw [shown_of_bound hb, control_openBound, htoken]
      rfl

theorem screen_accept {c : Control} (hs : s.showing? key v = some c) :
    (s.accept key v).screen.get? key = some c
      ∧ (s.accept key v).stores.preferences.get? key = some v
      ∧ (s.accept key v).stores.pending = s.stores.pending := by
  obtain ⟨hvalues, hpending, hscreen⟩ := stores_enter { s with screen := s.screen.set key c } key v
  rw [accept_of_some hs]
  refine ⟨?_, ?_, hpending⟩
  · rw [hscreen]
    exact (Screen.get?_set s.screen key key c).trans (if_pos rfl)
  · rw [hvalues, Stores.get?_put, if_pos rfl]

/-- A setting without a node that is changed stays at rest. -/
theorem AtRest.accept_unbound {c : Control} (h : s.AtRest key) (hs : s.Placed home)
    (hb : s.profile.boundNode? key = none) (hc : s.showing? key v = some c) : (s.accept key v).AtRest key := by
  obtain ⟨c₀, hc₀, hon, hshowing⟩ := showing?_eq_some.1 hc
  obtain ⟨hk, hopen, rfl⟩ := h.of_unbound hb hc₀ hon
  obtain ⟨hcontrol, hvalue, hpending⟩ := screen_accept hc
  have hstores : (s.accept key v).stores = s.stores.put key v := by
    rw [accept_of_some hc, enter_of_unbound (s := { s with screen := s.screen.set key c }) hb]
  have hgate : Gate.isOpen? s.profile.buttons.gates (s.accept key v).stores.disk key
      = Gate.isOpen? s.profile.buttons.gates s.stores.disk key := by
    rw [hstores]
    exact (Saves.refl.put key v).isOpen?_eq hs.housed hs.fits key
  cases v with
  | text text => cases hshowing
  | switch on =>
    cases hshowing
    refine ⟨?_, ?_, ?_, ?_, ?_⟩
    · rw [hcontrol, profile_accept, shown, hb]
      dsimp only
      rw [if_pos hk, hgate, if_neg hopen, Stores.isOn_of_get? hvalue]
      rfl
    · intro n token hn
      rw [profile_accept, hb] at hn
      cases hn
    · intro n token hn
      rw [profile_accept, hb] at hn
      cases hn
    · intro hopened
      rw [profile_accept, hgate] at hopened
      rw [hpending]
      exact h.opened hopened
    · intro hclosed
      rw [profile_accept, hgate] at hclosed
      exact absurd hclosed hopen

/-- A setting whose node takes its value stays at rest. -/
theorem AtRest.accept_bound {c : Control} (h : s.AtRest key) (hg : s.profile.GatesApart) (hs : s.Placed home)
    (hb : s.profile.boundNode? key = some (node, kind)) (hc : s.showing? key v = some c) (hv : v.IsLine)
    (hok : ({ s with screen := s.screen.set key c }.enter key v).1 = .ok ()) :
    (s.accept key v).AtRest key := by
  obtain ⟨hcontrol, hvalue, -⟩ := screen_accept hc
  have htoken : Node.token? (s.accept key v).stores.disk node = some v.token := by
    rw [accept_of_some hc]
    obtain ⟨mode, hentry⟩ := entry_enter (s := { s with screen := s.screen.set key c }) hs.housed.hosts.isTree hb hok
    exact (Node.token?_of_entry hentry).trans hv
  obtain ⟨hshown, hkind⟩ := h.shown_entered hb hc htoken
  have hgate (d : Disk) : Gate.isOpen? s.profile.buttons.gates d key = none :=
    Gate.isOpen?_eq_none (hg.not_gated hb)
  refine ⟨?_, ?_, ?_, ?_, ?_⟩
  · rw [hcontrol, profile_accept, hshown]
  · intro n token hn ht
    rw [profile_accept, hb] at hn
    cases hn
    obtain ⟨on, rfl⟩ : ∃ on, v = .switch on := by
      rcases hkind with ⟨-, h⟩ | ⟨h, -⟩
      · exact h
      · cases h
    rw [htoken] at ht
    cases ht
    rw [hvalue, Value.token, Value.switchToken_eq]
  · intro n token hn ht
    rw [profile_accept, hb] at hn
    cases hn
    obtain ⟨text, rfl⟩ : ∃ text, v = .text text := by
      rcases hkind with ⟨h, -⟩ | ⟨-, h⟩
      · cases h
      · exact h
    rw [htoken] at ht
    cases ht
    exact hvalue
  · intro hopened
    rw [profile_accept, hgate] at hopened
    cases hopened
  · intro hclosed
    rw [profile_accept, hgate] at hclosed
    cases hclosed

/-! ## the other settings -/

/-- A gate at the place of the node can be read afterwards if it could be before. -/
theorem token?_enter_same (hs : s.Placed home) (hb : s.profile.boundNode? key = some (node, kind))
    (hok : (s.enter key v).1 = .ok ()) (hv : v.IsLine) {n : Path}
    (hplace : s.stores.disk.placeOf n = s.stores.disk.placeOf node)
    (h : Node.token? (s.enter key v).2.stores.disk n = none) : Node.token? s.stores.disk n = none := by
  obtain ⟨mode, hentry⟩ := entry_enter hs.housed.hosts.isTree hb hok
  cases hbefore : Node.token? s.stores.disk n with
  | none => rfl
  | some token =>
    obtain ⟨e, he⟩ := Node.entry_of_token? hbefore
    have hagain := (grown_enter hs hb v).1.entry_of_placeOf hentry he hplace
    rw [Node.token?_of_entry hagain, hv] at h
    cases h

/-- Entering the value of another setting leaves a setting at rest, or its gate is the node and it has yet to
look. -/
theorem AtRest.enter_other (h : s.AtRest k) (hg : s.profile.GatesApart) (hs : s.Placed home) (hk : k ≠ key)
    (hok : (s.enter key v).1 = .ok ()) (hv : v.IsLine) :
    (s.enter key v).2.AtRest k ∨ k ∈ (s.enter key v).2.dependents key ∧ (s.enter key v).2.Ready k := by
  have hp := profile_enter s key v
  obtain ⟨hvalues, hpending, hscreen⟩ := stores_enter s key v
  have ha : AgreeAt k s (s.enter key v).2 := by
    refine ⟨by rw [hscreen], ?_, by rw [hpending]⟩
    rw [hvalues, Stores.get?_put, if_neg hk]
  cases hb : s.profile.boundNode? key with
  | none =>
    left
    have hstores : (s.enter key v).2.stores = s.stores.put key v := by rw [enter_of_unbound hb]
    exact h.of_agreeAt hp ha (hstores ▸ sameNodes_of_saves (Saves.refl.put key v) hs.housed hs.fits k)
  | some b =>
    obtain ⟨node, kind⟩ := b
    have hnode (n : Path) (knd : Profile.NodeKind) (hn : s.profile.boundNode? k = some (n, knd)) :
        Node.token? (s.enter key v).2.stores.disk n = Node.token? s.stores.disk n := by
      refine token?_enter hs hb v (.inl ⟨k, knd, hn⟩) fun heq => hk ?_
      exact hs.fits.distinct k key n node knd kind hn hb heq
    cases hgate : s.profile.buttons.gates.get? k with
    | none =>
      left
      have hk : s.profile.buttons.gates.contains k = false := by
        rw [Table.contains, hgate]
        rfl
      exact h.of_agreeAt hp ha ⟨hnode, by rw [Gate.isOpen?_eq_none hk, Gate.isOpen?_eq_none hk]⟩
    | some gate =>
      have hgated : s.profile.buttons.gates.contains k = true := by
        rw [Table.contains, hgate]
        rfl
      by_cases hplace : s.stores.disk.placeOf gate.node = s.stores.disk.placeOf node
      · right
        have hsame := hs.fits.same node k gate ⟨key, kind, hb⟩ hgate hplace
        refine ⟨?_, ?_⟩
        · rw [dependents, hp, hb]
          exact Profile.mem_gatedOn.2 ⟨gate, hgate, hsame⟩
        · obtain ⟨enabled, checked, hcontrol, hnone⟩ := (h.ready hgated (hg.unbound k hgated)).control
          refine ⟨hp ▸ hgated, hp ▸ hg.unbound k hgated, enabled, checked, ha.control.trans hcontrol,
            fun hafter => ?_⟩
          -- the gate could not be read before either
          have hbefore : Gate.isOpen? s.profile.buttons.gates s.stores.disk k = none := by
            rw [hp] at hafter
            rw [Gate.isOpen?_eq_map hgate] at hafter ⊢
            rw [token?_enter_same hs hb hok hv hplace (Option.map_eq_none_iff.1 hafter)]
            rfl
          rw [Stores.isOn_congr ha.value]
          exact hnone hbefore
      · left
        refine h.of_agreeAt hp ha ⟨hnode, Gate.isOpen?_congr fun gate' hgate' => ?_⟩
        rw [hgate] at hgate'
        cases hgate'
        exact token?_enter hs hb v (.inr ⟨k, gate, hgate, rfl⟩) hplace

/-! ## the change -/

/-- The setting keeps its place whatever its change did. -/
theorem Placed.accept (hs : s.Placed home) (key : Key) (v : Value) : (s.accept key v).Placed home := by
  cases hc : s.showing? key v with
  | none =>
    rw [accept_of_none hc]
    exact hs
  | some c =>
    rw [accept_of_some hc]
    exact Placed.enter (s := { s with screen := s.screen.set key c }) ⟨hs.housed, hs.fits⟩ key v

/-- A change that is made leaves every setting at rest, or about to look at its gate. -/
theorem atRest_accept {c : Control} (hg : s.profile.GatesApart) (hs : s.Placed home) (h : ∀ k, s.AtRest k)
    (hc : s.showing? key v = some c) (hv : v.IsLine)
    (hok : ({ s with screen := s.screen.set key c }.enter key v).1 = .ok ()) (k : Key) :
    (s.accept key v).AtRest k ∨ k ∈ (s.accept key v).dependents key ∧ (s.accept key v).Ready k := by
  by_cases hk : k = key
  · subst hk
    left
    cases hb : s.profile.boundNode? k with
    | none => exact (h k).accept_unbound hs hb hc
    | some b => exact (h k).accept_bound hg hs hb hc hv hok
  · rw [accept_of_some hc]
    refine AtRest.enter_other (s := { s with screen := s.screen.set key c }) ?_ hg ⟨hs.housed, hs.fits⟩ hk hok hv
    refine (h k).of_agreeAt rfl ⟨?_, rfl, rfl⟩ ⟨fun _ _ _ => rfl, rfl⟩
    exact (Screen.get?_set s.screen key k c).trans (if_neg hk)

/-- **A change keeps every setting at rest**, unless its node refused the value. -/
theorem atRest_apply (hg : s.profile.GatesApart) (hs : s.Placed home) (h : ∀ k, s.AtRest k) (hv : v.IsLine)
    (hok : ∀ e, (s.apply key v).1 ≠ .writeFailed e) :
    (s.apply key v).2.Placed home ∧ ∀ k, (s.apply key v).2.AtRest k := by
  rcases apply_cases s key v with ⟨why, heq⟩ | ⟨c, hc, ⟨e, heq⟩ | ⟨htaken, heq⟩⟩
  · rw [heq]
    exact ⟨hs, h⟩
  · exact absurd (congrArg Prod.fst heq) (hok e)
  · rw [heq]
    have hplaced : (s.accept key v).Placed home := hs.accept key v
    have hg' : (s.accept key v).profile.GatesApart := profile_accept s key v ▸ hg
    obtain ⟨hp, -, hstores, -⟩ :=
      checkPocket_same (((s.accept key v).dependents key).foldl Session.reconcile (s.accept key v)) key
    have hfold := hplaced.foldl ((s.accept key v).dependents key)
    refine ⟨⟨hstores ▸ hfold.housed, ?_⟩, fun k => ?_⟩
    · rw [hp, hstores]
      exact hfold.fits
    · have hrest : (((s.accept key v).dependents key).foldl Session.reconcile (s.accept key v)).AtRest k := by
        rcases atRest_accept hg hs h hc hv htaken k with hrest | ⟨hmem, hready⟩
        · exact hrest.foldl hg' hplaced _
        · exact hready.foldl hg' hplaced hmem
      exact hrest.of_agreeAt hp (agreeAt_checkPocket _ key k) ⟨fun _ _ _ => by rw [hstores], by rw [hstores]⟩

end Session

end DeviceSettings

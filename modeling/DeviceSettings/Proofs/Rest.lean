import DeviceSettings.Proofs.Opening

/-!
# Settings at rest

A setting is at rest when its control, what is stored for it and what is pending for it are what opening the
screen and looking at its gate would make of them (`Session.AtRest`).  Opening a screen brings every setting to
rest, and a change that its node takes keeps them there, so opening the screen once more finds nothing to do.
-/

namespace DeviceSettings

open Disk (Grown Steady)
open Stores (Saves Housed)

theorem Table.contains_of_get? {α : Type} {t : Table Key α} {key : Key} {a : α} (h : t.get? key = some a) :
    t.contains key = true := by
  rw [contains, h]
  rfl

theorem Table.not_contains_of_get? {α : Type} {t : Table Key α} {key : Key} (h : t.get? key = none) :
    t.contains key = false := by
  rw [contains, h]
  rfl

theorem Table.contains_iff {α : Type} {t : Table Key α} {key : Key} : t.contains key = true ↔ key ∈ t.keys := by
  rw [contains, Option.isSome_iff_exists, keys, List.mem_map]
  constructor
  · rintro ⟨a, ha⟩
    exact ⟨(key, a), get?_eq_some_iff.1 ha, rfl⟩
  · rintro ⟨e, he, rfl⟩
    exact ⟨e.2, get?_eq_some_iff.2 he⟩

theorem Table.mem_keys_of_get? {α : Type} {t : Table Key α} {key : Key} {a : α} (h : t.get? key = some a) :
    key ∈ t.keys := by
  rw [← contains_iff, contains, h]
  rfl

theorem Table.not_mem_keys {α : Type} {t : Table Key α} {key : Key} (h : t.get? key = none) : key ∉ t.keys := by
  rw [← contains_iff, contains, h]
  exact Bool.false_ne_true

/-! ## profiles and disks -/

/-- Something is read from the node: it mirrors a setting, or is the node of a gate. -/
def Profile.Reads (p : Profile) (node : Path) : Prop :=
  p.IsNode node ∨ ∃ key gate, p.buttons.gates.get? key = some gate ∧ gate.node = node

/-- The nodes of a profile are files of their own: no document of the home directory is one of them, no two
settings are mirrored to one, and a gate on the file of a node is on its path. -/
structure Profile.Separate (p : Profile) (home : Path) (d : Disk) : Prop where
  apart : ∀ n, p.Reads n → ¬d.IsStore home (d.placeOf n)
  distinct : ∀ k k' n n' kind kind', p.boundNode? k = some (n, kind) → p.boundNode? k' = some (n', kind') →
    d.placeOf n = d.placeOf n' → k = k'
  same : ∀ n key gate, p.IsNode n → p.buttons.gates.get? key = some gate →
    d.placeOf gate.node = d.placeOf n → gate.node.Same n

/-- Besides, the way to no node goes up out of a directory that a save would make. -/
structure Profile.Fits (p : Profile) (home : Path) (d : Disk) : Prop extends p.Separate home d where
  steady : ∀ n, p.Reads n → Steady (d.Above (Home.run home)) d n

/-- No gated setting has a node or is on unless it is stored. -/
structure Profile.GatesApart (p : Profile) : Prop where
  unbound : ∀ key, p.buttons.gates.contains key = true → p.boundNode? key = none
  off : ∀ key, p.buttons.gates.contains key = true → p.defaults.get? key ≠ some (.switch true)

namespace Profile

variable {p : Profile} {home : Path} {d d' : Disk} {files made : Place → Prop}

theorem Separate.of_grown (h : p.Separate home d) (hg : Grown files made d d') :
    p.Separate home d' := by
  refine ⟨fun n hn hstore => ?_, ?_, ?_⟩
  · rw [Disk.isStore_congr hg.work, hg.placeOf_eq] at hstore
    exact h.apart n hn hstore
  · intro k k' n n' kind kind' hk hk' heq
    rw [hg.placeOf_eq, hg.placeOf_eq] at heq
    exact h.distinct k k' n n' kind kind' hk hk' heq
  · intro n key gate hn hgate heq
    rw [hg.placeOf_eq, hg.placeOf_eq] at heq
    exact h.same n key gate hn hgate heq

theorem Fits.of_grown (h : p.Fits home d) (hg : Grown files made d d') : p.Fits home d' :=
  ⟨h.toSeparate.of_grown hg, fun n hn x hx hm => hg.steady (h.steady n hn) x hx ((hg.above_iff _ x).1 hm)⟩

theorem GatesApart.defaultSwitch (h : p.GatesApart) {key : Key} (hk : p.buttons.gates.contains key = true) :
    p.defaultSwitch key = false := by
  have hoff := h.off key hk
  unfold Profile.defaultSwitch
  cases hd : p.defaults.get? key with
  | none => rfl
  | some v =>
    cases v with
    | text t => rfl
    | switch on =>
      cases on with
      | false => rfl
      | true => exact absurd hd hoff

theorem boundNode?_switch {key : Key} {node : Path} :
    p.boundNode? key = some (node, .switch) ↔ p.buttons.switches.get? key = some node := by
  unfold boundNode?
  cases p.buttons.switches.get? key with
  | none => simp
  | some n => simp

theorem boundNode?_text {key : Key} {node : Path} : p.boundNode? key = some (node, .text)
    ↔ p.buttons.switches.get? key = none ∧ p.buttons.texts.get? key = some node := by
  unfold boundNode?
  cases p.buttons.switches.get? key with
  | none => simp
  | some n => simp

/-- The settings with a node, and their nodes. -/
def bindings (p : Profile) : List (Key × Path) := p.buttons.switches.entries ++ p.buttons.texts.entries

theorem mem_bindings {key : Key} {node : Path} {kind : NodeKind}
    (h : p.boundNode? key = some (node, kind)) : (key, node) ∈ p.bindings := by
  cases kind with
  | switch => exact List.mem_append_left _ (Table.get?_eq_some_iff.1 (boundNode?_switch.1 h))
  | text => exact List.mem_append_right _ (Table.get?_eq_some_iff.1 (boundNode?_text.1 h).2)

/-- The nodes of a panel and of its gates. -/
def readNodes (p : Profile) : List Path := p.bindings.map (·.2) ++ p.buttons.gates.values.map (·.node)

theorem Reads.mem_readNodes {n : Path} (h : p.Reads n) : n ∈ p.readNodes := by
  rcases h with ⟨key, kind, hb⟩ | ⟨key, gate, hg, rfl⟩
  · exact List.mem_append_left _ (List.mem_map_of_mem (mem_bindings hb))
  · exact List.mem_append_right _ (List.mem_map_of_mem (List.mem_map_of_mem (Table.get?_eq_some_iff.1 hg)))

/-- In a valid profile no setting is mirrored in two ways. -/
theorem IsValid.texts_none (h : p.IsValid) {key : Key} {node : Path}
    (hs : p.buttons.switches.get? key = some node) : p.buttons.texts.get? key = none := by
  have hfault : p.fault? = none := h
  unfold fault? at hfault
  split at hfault
  · cases hfault
  · cases hfind : p.buttons.texts.keys.find? p.buttons.switches.contains with
    | some k =>
      rw [hfind] at hfault
      cases hfault
    | none =>
      cases ht : p.buttons.texts.get? key with
      | none => rfl
      | some node' =>
        have hmem : key ∈ p.buttons.texts.keys := Table.mem_keys_of_get? ht
        have hnot := List.find?_eq_none.1 hfind key hmem
        exact absurd (Table.contains_of_get? hs) hnot

/-- In a valid profile a list setting is no switch. -/
theorem IsValid.boundNode?_of_texts (h : p.IsValid) {key : Key} {node : Path}
    (ht : p.buttons.texts.get? key = some node) : p.boundNode? key = some (node, .text) := by
  rw [boundNode?_text]
  refine ⟨?_, ht⟩
  cases hs : p.buttons.switches.get? key with
  | none => rfl
  | some n =>
    rw [h.texts_none hs] at ht
    cases ht

end Profile

/-! ## what nodes hold -/

section
variable {home : Path} {p : Profile} {s t : Stores}

/-- No save touches a node. -/
theorem Stores.Saves.token?_eq (h : s.Saves t) (hs : s.Housed home) (hf : p.Fits home s.disk) {n : Path}
    (hn : p.Reads n) : Node.token? t.disk n = Node.token? s.disk n :=
  Node.token?_eq hs.hosts.isTree (h.grown hs).1 (hf.steady n hn) (hf.apart n hn)

theorem Stores.Saves.fits (h : s.Saves t) (hs : s.Housed home) (hf : p.Fits home s.disk) : p.Fits home t.disk :=
  hf.of_grown (h.grown hs).1

theorem Gate.isOpen?_eq_map {gates : Table Key Gate} {d : Disk} {key : Key} {gate : Gate}
    (h : gates.get? key = some gate) :
    Gate.isOpen? gates d key = (Node.token? d gate.node).map (· == gate.required) := by
  unfold Gate.isOpen?
  rw [h]
  show (Node.tested? d gate.node >>= fun token => some (token == gate.required)) = _
  rw [Node.tested?_eq]
  cases Node.token? d gate.node with
  | none => rfl
  | some token => rfl

theorem Gate.isOpen?_congr {d d' : Disk} {key : Key}
    (h : ∀ gate, p.buttons.gates.get? key = some gate → Node.token? d' gate.node = Node.token? d gate.node) :
    Gate.isOpen? p.buttons.gates d' key = Gate.isOpen? p.buttons.gates d key := by
  cases hg : p.buttons.gates.get? key with
  | none =>
    rw [Gate.isOpen?, Gate.isOpen?, hg]
    rfl
  | some gate => rw [Gate.isOpen?_eq_map hg, Gate.isOpen?_eq_map hg, h gate hg]

theorem Gate.isOpen?_eq_none {d : Disk} {key : Key} (h : p.buttons.gates.contains key = false) :
    Gate.isOpen? p.buttons.gates d key = none := by
  unfold Gate.isOpen?
  cases hg : p.buttons.gates.get? key with
  | none => rfl
  | some gate =>
    rw [Table.contains_of_get? hg] at h
    cases h

theorem Gate.contains_of_isOpen? {d : Disk} {key : Key} {isOpen : Bool}
    (h : Gate.isOpen? p.buttons.gates d key = some isOpen) : p.buttons.gates.contains key = true := by
  cases hk : p.buttons.gates.contains key with
  | true => rfl
  | false =>
    rw [Gate.isOpen?_eq_none hk] at h
    cases h

theorem Stores.Saves.isOpen?_eq (h : s.Saves t) (hs : s.Housed home) (hf : p.Fits home s.disk) (key : Key) :
    Gate.isOpen? p.buttons.gates t.disk key = Gate.isOpen? p.buttons.gates s.disk key :=
  Gate.isOpen?_congr fun gate hg => h.token?_eq hs hf (.inr ⟨key, gate, hg, rfl⟩)

end

namespace Session

/-! ## rest -/

/-- The control that a screen shows for a setting when there is nothing left to do. -/
def shown (p : Profile) (s : Stores) (key : Key) : Option Control :=
  match p.boundNode? key with
  | some (node, .switch) => some (openSwitch p key node s).1
  | some (node, .text) => some (openText p key node s).1
  | none =>
    if p.buttons.gates.contains key then
      if Gate.isOpen? p.buttons.gates s.disk key = some false then
        some { Control.switch key false with enabled := false }
      else some (.switch key (s.isOn key))
    else none

/-- The setting's control is that one, its value is what its node holds, behind an open gate nothing is pending
for it, and behind a closed one it is off. -/
structure AtRest (key : Key) (s : Session) : Prop where
  control : s.screen.get? key = shown s.profile s.stores key
  switch : ∀ node token, s.profile.boundNode? key = some (node, .switch) →
    Node.token? s.stores.disk node = some token →
    s.stores.preferences.get? key = some (.switch (token == Value.switchToken true))
  text : ∀ node token, s.profile.boundNode? key = some (node, .text) →
    Node.token? s.stores.disk node = some token → s.stores.preferences.get? key = some (.text token)
  opened : Gate.isOpen? s.profile.buttons.gates s.stores.disk key = some true →
    s.stores.pending.get? key = none
  closed : Gate.isOpen? s.profile.buttons.gates s.stores.disk key = some false → s.stores.isOn key = false

/-- The nodes that a setting looks at hold the same on both disks. -/
structure SameNodes (p : Profile) (key : Key) (d d' : Disk) : Prop where
  bound : ∀ node kind, p.boundNode? key = some (node, kind) → Node.token? d' node = Node.token? d node
  gate : Gate.isOpen? p.buttons.gates d' key = Gate.isOpen? p.buttons.gates d key

theorem shown_of_bound {p : Profile} {key : Key} {node : Path} {kind : Profile.NodeKind}
    (hb : p.boundNode? key = some (node, kind)) (s : Stores) :
    shown p s key = some (openBound p key node kind s).1 := by
  rw [shown, hb]
  cases kind <;> rfl

theorem shown_congr {p : Profile} {key : Key} {s t : Stores} (hn : SameNodes p key s.disk t.disk)
    (hvalue : t.preferences.get? key = s.preferences.get? key) : shown p t key = shown p s key := by
  cases hb : p.boundNode? key with
  | none =>
    rw [shown, shown, hb]
    dsimp only
    rw [hn.gate, Stores.isOn_congr hvalue]
  | some b =>
    obtain ⟨n, kind⟩ := b
    rw [shown_of_bound hb, shown_of_bound hb, openBound_congr (hn.bound _ _ hb) fun _ => hvalue]

theorem AtRest.of_agreeAt {s t : Session} {key : Key} (h : s.AtRest key) (hp : t.profile = s.profile)
    (ha : AgreeAt key s t) (hn : SameNodes s.profile key s.stores.disk t.stores.disk) : t.AtRest key := by
  refine ⟨?_, ?_, ?_, ?_, ?_⟩
  · rw [ha.control, hp, shown_congr hn ha.value]
    exact h.control
  · intro node token hb htoken
    rw [hp] at hb
    rw [hn.bound _ _ hb] at htoken
    rw [ha.value]
    exact h.switch node token hb htoken
  · intro node token hb htoken
    rw [hp] at hb
    rw [hn.bound _ _ hb] at htoken
    rw [ha.value]
    exact h.text node token hb htoken
  · intro hopen
    rw [hp, hn.gate] at hopen
    rw [ha.pending]
    exact h.opened hopen
  · intro hclosed
    rw [hp, hn.gate] at hclosed
    rw [Stores.isOn_congr ha.value]
    exact h.closed hclosed

theorem sameNodes_of_saves {home : Path} {p : Profile} {s t : Stores} (h : s.Saves t) (hs : s.Housed home)
    (hf : p.Fits home s.disk) (key : Key) : SameNodes p key s.disk t.disk :=
  ⟨fun _ kind hb => h.token?_eq hs hf (.inl ⟨key, kind, hb⟩), h.isOpen?_eq hs hf key⟩

/-! ## coming to rest -/

/-- A gated setting that only has to look at its gate. -/
structure Ready (key : Key) (s : Session) : Prop where
  gated : s.profile.buttons.gates.contains key = true
  unbound : s.profile.boundNode? key = none
  control : ∃ enabled checked, s.screen.get? key = some ⟨key, .switch, enabled, checked, none⟩
    ∧ (Gate.isOpen? s.profile.buttons.gates s.stores.disk key = none →
        enabled = true ∧ checked = s.stores.isOn key)

theorem AtRest.ready {s : Session} {key : Key} (h : s.AtRest key)
    (hg : s.profile.buttons.gates.contains key = true) (hb : s.profile.boundNode? key = none) :
    s.Ready key := by
  refine ⟨hg, hb, ?_⟩
  have hcontrol := h.control
  rw [shown, hb] at hcontrol
  dsimp only at hcontrol
  rw [if_pos hg] at hcontrol
  by_cases hclosed : Gate.isOpen? s.profile.buttons.gates s.stores.disk key = some false
  · rw [if_pos hclosed] at hcontrol
    refine ⟨false, false, hcontrol, fun hnone => ?_⟩
    rw [hnone] at hclosed
    cases hclosed
  · rw [if_neg hclosed] at hcontrol
    exact ⟨true, s.stores.isOn key, hcontrol, fun _ => ⟨rfl, rfl⟩⟩

theorem Ready.of_agreeAt {s t : Session} {key : Key} (h : s.Ready key) (hp : t.profile = s.profile)
    (ha : AgreeAt key s t) (hn : SameNodes s.profile key s.stores.disk t.stores.disk) : t.Ready key := by
  obtain ⟨enabled, checked, hcontrol, hnone⟩ := h.control
  refine ⟨hp ▸ h.gated, hp ▸ h.unbound, enabled, checked, ha.control.trans hcontrol, ?_⟩
  rw [hp, hn.gate, Stores.isOn_congr ha.value]
  exact hnone

/-- A look at its gate brings a setting to rest. -/
theorem Ready.reconcile {home : Path} {s : Session} {key : Key} (h : s.Ready key)
    (hs : s.stores.Housed home) (hf : s.profile.Fits home s.stores.disk) : (s.reconcile key).AtRest key := by
  obtain ⟨enabled, checked, hc, hnone⟩ := h.control
  have hn := sameNodes_of_saves (saves_reconcile s key) hs hf key
  have hp := profile_reconcile s key
  have hunbound : (s.reconcile key).profile.boundNode? key = none := by rw [hp, h.unbound]
  have hshown : shown s.profile (s.reconcile key).stores key
      = if Gate.isOpen? s.profile.buttons.gates s.stores.disk key = some false then
          some { Control.switch key false with enabled := false }
        else some (.switch key ((s.reconcile key).stores.isOn key)) := by
    rw [shown, h.unbound]
    dsimp only
    rw [if_pos h.gated, hn.gate]
  refine ⟨?_, ?_, ?_, ?_, ?_⟩
  · rw [hp, hshown]
    cases hopen : Gate.isOpen? s.profile.buttons.gates s.stores.disk key with
    | none =>
      obtain ⟨rfl, rfl⟩ := hnone hopen
      rw [reconcile_of_none hopen, hc]
      rfl
    | some isOpen =>
      cases isOpen with
      | true =>
        obtain ⟨hcontrol, -, hon, -⟩ := reconcile_open hopen hc
        rw [hcontrol, hon]
        rfl
      | false => exact (reconcile_closed hopen hc).1
  · intro node token hb
    rw [hunbound] at hb
    cases hb
  · intro node token hb
    rw [hunbound] at hb
    cases hb
  · intro hopen
    rw [hp, hn.gate] at hopen
    exact (reconcile_open hopen hc).2.1
  · intro hclosed
    rw [hp, hn.gate] at hclosed
    exact (reconcile_closed hclosed hc).2.2.1

/-- The documents of the stores and the nodes of the profile are where they do not meet. -/
structure Placed (home : Path) (s : Session) : Prop where
  housed : s.stores.Housed home
  fits : s.profile.Fits home s.stores.disk

section
variable {home : Path} {s t : Session} {key : Key}

theorem Placed.of_eq (h : s.Placed home) (hp : t.profile = s.profile)
    (hpreferences : t.stores.preferences = s.stores.preferences)
    (hpending : t.stores.pending = s.stores.pending) (hdisk : t.stores.disk = s.stores.disk) : t.Placed home := by
  refine ⟨⟨hdisk ▸ h.housed.hosts, ?_, ?_⟩, ?_⟩
  · rw [hpreferences]
    exact h.housed.preferences
  · rw [hpending]
    exact h.housed.pending
  · rw [hp, hdisk]
    exact h.fits

theorem Placed.of_saves (h : s.Placed home) (hp : t.profile = s.profile) (hs : s.stores.Saves t.stores) :
    t.Placed home :=
  ⟨(hs.grown h.housed).2, hp ▸ hs.fits h.housed h.fits⟩

theorem Placed.reconcile (h : s.Placed home) (k : Key) : (s.reconcile k).Placed home :=
  h.of_saves (profile_reconcile s k) (saves_reconcile s k)

theorem Placed.foldl (h : s.Placed home) (ks : List Key) : (ks.foldl Session.reconcile s).Placed home := by
  induction ks generalizing s with
  | nil => exact h
  | cons k ks ih => exact ih (h.reconcile k)

theorem Ready.again (h : s.Ready key) (hs : s.Placed home) (k : Key) : (s.reconcile k).Ready key := by
  by_cases hk : key = k
  · subst hk
    have hp := profile_reconcile s key
    exact (h.reconcile hs.housed hs.fits).ready (hp ▸ h.gated) (hp ▸ h.unbound)
  · exact h.of_agreeAt (profile_reconcile s k) (agreeAt_reconcile hk)
      (sameNodes_of_saves (saves_reconcile s k) hs.housed hs.fits key)

theorem AtRest.again (h : s.AtRest key) (hg : s.profile.GatesApart) (hs : s.Placed home) (k : Key) :
    (s.reconcile k).AtRest key := by
  by_cases hk : key = k
  · subst hk
    cases hgated : s.profile.buttons.gates.get? key with
    | none =>
      rw [reconcile_of_none (Gate.isOpen?_eq_none (Table.not_contains_of_get? hgated))]
      exact h
    | some gate =>
      have hcontains := Table.contains_of_get? hgated
      exact (h.ready hcontains (hg.unbound key hcontains)).reconcile hs.housed hs.fits
  · exact h.of_agreeAt (profile_reconcile s k) (agreeAt_reconcile hk)
      (sameNodes_of_saves (saves_reconcile s k) hs.housed hs.fits key)

theorem AtRest.foldl (h : s.AtRest key) (hg : s.profile.GatesApart) (hs : s.Placed home) (ks : List Key) :
    (ks.foldl Session.reconcile s).AtRest key := by
  induction ks generalizing s with
  | nil => exact h
  | cons k ks ih =>
    have hp := profile_reconcile s k
    exact ih (h.again hg hs k) (hp ▸ hg) (hs.reconcile k)

/-- Who is ready is at rest after its turn. -/
theorem Ready.foldl (h : s.Ready key) (hg : s.profile.GatesApart) (hs : s.Placed home) {ks : List Key}
    (hk : key ∈ ks) : (ks.foldl Session.reconcile s).AtRest key := by
  induction ks generalizing s with
  | nil => cases hk
  | cons k ks ih =>
    have hp := profile_reconcile s k
    rcases List.mem_cons.1 hk with rfl | hk
    · exact (h.reconcile hs.housed hs.fits).foldl (hp ▸ hg) (hs.reconcile key) ks
    · exact ih (h.again hs k) (hp ▸ hg) (hs.reconcile k) hk

end

/-! ## opening -/

/-- A setting is opened when its turn comes; until then stores are saved at most, and its own value stays. -/
theorem Opener.turn {α : Type} {f : Key → α → Stores → Control × Stores} (h : Opener f)
    {es : List (Key × α)} (hes : es.Pairwise fun e e' => e.1 ≠ e'.1) {key : Key} {a : α}
    (hmem : (key, a) ∈ es) (screen : Screen) (s : Stores) :
    ∃ t, s.Saves t ∧ t.preferences.get? key = s.preferences.get? key
      ∧ (openEach f es (screen, s)).1.get? key = some (f key a t).1
      ∧ (openEach f es (screen, s)).2.preferences.get? key = (f key a t).2.preferences.get? key := by
  induction es generalizing screen s with
  | nil => cases hmem
  | cons e es ih =>
    obtain ⟨hne, hes⟩ := List.pairwise_cons.1 hes
    rw [openEach_cons]
    rcases List.mem_cons.1 hmem with rfl | hmem
    · -- the ones after it are others
      obtain ⟨hscreen, hvalue⟩ := h.frame (fun e he => (hne e he).symm) (screen.put (f key a s).1) (f key a s).2
      refine ⟨s, .refl, rfl, hscreen.trans ?_, hvalue⟩
      rw [Screen.get?_put, h.key, if_pos rfl]
    · have hkey : key ≠ e.1 := (hne _ hmem).symm
      obtain ⟨t, hsaves, hsame, hcontrol, hvalue⟩ := ih hes hmem (screen.put (f e.1 e.2 s).1) (f e.1 e.2 s).2
      exact ⟨t, (h.saves e.1 e.2 s).trans hsaves, hsame.trans (h.other e.1 e.2 s key hkey), hcontrol, hvalue⟩

theorem pairwise_keys {α : Type} (t : Table Key α) : t.entries.Pairwise fun e e' => e.1 ≠ e'.1 := by
  refine t.ascending.imp fun hlt heq => ?_
  rw [heq] at hlt
  simp at hlt

/-- No save touches the node. -/
def Stable (s : Stores) (node : Path) : Prop :=
  ∀ t, s.Saves t → Node.token? t.disk node = Node.token? s.disk node

theorem Placed.stable {home : Path} {s : Session} {node : Path} (hs : s.Placed home) (h : s.profile.Reads node) :
    Stable s.stores node :=
  fun _ ht => ht.token?_eq hs.housed hs.fits h

section
variable {home : Path} {s : Session} {key : Key} {node : Path} {kind : Profile.NodeKind}

/-- What is opened of a setting is what its node holds when its turn comes. -/
theorem opened_turn (hp : s.profile.IsValid) (hb : s.profile.boundNode? key = some (node, kind)) :
    ∃ t, s.stores.Saves t ∧ t.preferences.get? key = s.stores.preferences.get? key
      ∧ s.opened.1.get? key = some (openBound s.profile key node kind t).1
      ∧ s.opened.2.preferences.get? key = (openBound s.profile key node kind t).2.preferences.get? key := by
  cases kind with
  | switch =>
    have hswitch := Profile.boundNode?_switch.1 hb
    obtain ⟨hscreen, hvalue⟩ := (opener_openText s.profile).frame
      (fun e he => Table.ne_of_get?_none (hp.texts_none hswitch) he)
      (openEach (openSwitch s.profile) s.profile.buttons.switches.entries (.empty, s.stores)).1
      (openEach (openSwitch s.profile) s.profile.buttons.switches.entries (.empty, s.stores)).2
    obtain ⟨t, hsaves, hsame, hscreen', hvalue'⟩ := (opener_openSwitch s.profile).turn
      (pairwise_keys s.profile.buttons.switches) (Table.get?_eq_some_iff.1 hswitch) .empty s.stores
    exact ⟨t, hsaves, hsame, hscreen.trans hscreen', hvalue.trans hvalue'⟩
  | text =>
    obtain ⟨hno, htext⟩ := Profile.boundNode?_text.1 hb
    have hfirst := (opener_openSwitch s.profile).saves_openEach s.profile.buttons.switches.entries .empty s.stores
    obtain ⟨-, hvalue⟩ := (opener_openSwitch s.profile).frame (fun e he => Table.ne_of_get?_none hno he) .empty s.stores
    obtain ⟨t, hsaves, hsame, hscreen, hvalue'⟩ := (opener_openText s.profile).turn
      (pairwise_keys s.profile.buttons.texts) (Table.get?_eq_some_iff.1 htext)
      (openEach (openSwitch s.profile) s.profile.buttons.switches.entries (.empty, s.stores)).1
      (openEach (openSwitch s.profile) s.profile.buttons.switches.entries (.empty, s.stores)).2
    exact ⟨t, hfirst.trans hsaves, hsame.trans hvalue, hscreen, hvalue'⟩

/-- A setting that a node mirrors is opened as if it were the only one. -/
theorem opened_bound (hp : s.profile.IsValid) (hstable : Stable s.stores node)
    (hb : s.profile.boundNode? key = some (node, kind)) :
    s.opened.1.get? key = some (openBound s.profile key node kind s.stores).1
      ∧ s.opened.2.preferences.get? key = (openBound s.profile key node kind s.stores).2.preferences.get? key := by
  obtain ⟨t, hsaves, hsame, hscreen, hvalue⟩ := opened_turn hp hb
  have htoken := hstable t hsaves
  refine ⟨hscreen.trans (congrArg some (openBound_congr htoken fun _ => hsame)), hvalue.trans ?_⟩
  rw [value_openBound, value_openBound, htoken, hsame]

/-- Opening leaves the nodes of the settings as they are. -/
theorem token?_openScreen (hs : s.Placed home)
    (hb : s.profile.boundNode? key = some (node, kind)) :
    Node.token? s.openScreen.stores.disk node = Node.token? s.stores.disk node :=
  (saves_opened s).token?_eq hs.housed hs.fits (.inl ⟨key, kind, hb⟩)

/-- Opening shows what no gate is on as its node and the stores have it afterwards. -/
theorem control_openScreen (hp : s.profile.IsValid) (hs : s.Placed home)
    (hg : s.profile.buttons.gates.contains key = false) :
    s.openScreen.screen.get? key = shown s.profile s.openScreen.stores key := by
  have hnot : key ∉ s.profile.buttons.gates.keys := fun hmem => by
    rw [← Table.contains_iff, hg] at hmem
    cases hmem
  have hscreen : s.openScreen.screen.get? key = s.opened.1.get? key := by
    show (openGated s.profile s.opened.2 s.opened.1).get? key = _
    rw [get?_openGated, if_neg hnot, Option.or_none]
  rw [hscreen]
  cases hb : s.profile.boundNode? key with
  | none =>
    rw [shown, hb, hg]
    exact (opened_of_unbound hb).1
  | some b =>
    obtain ⟨n, kind⟩ := b
    obtain ⟨hcontrol, hvalue⟩ := opened_bound hp (hs.stable (.inl ⟨key, kind, hb⟩)) hb
    rw [shown_of_bound hb, hcontrol]
    refine congrArg some (openBound_congr (token?_openScreen hs hb) fun hnone => ?_).symm
    exact hvalue.trans (by rw [value_openBound, hnone]; rfl)

/-- Opening brings what no gate is on to rest. -/
theorem atRest_openScreen (hp : s.profile.IsValid) (hs : s.Placed home)
    (hg : s.profile.buttons.gates.contains key = false) : s.openScreen.AtRest key := by
  have hclosed (d : Disk) : Gate.isOpen? s.profile.buttons.gates d key = none := Gate.isOpen?_eq_none hg
  refine ⟨control_openScreen hp hs hg, ?_, ?_, ?_, ?_⟩
  · intro n token hb ht
    rw [token?_openScreen hs hb] at ht
    obtain ⟨-, hvalue⟩ := opened_bound hp (hs.stable (.inl ⟨key, .switch, hb⟩)) hb
    exact hvalue.trans (by rw [value_openBound, ht]; rfl)
  · intro n token hb ht
    rw [token?_openScreen hs hb] at ht
    obtain ⟨-, hvalue⟩ := opened_bound hp (hs.stable (.inl ⟨key, .text, hb⟩)) hb
    exact hvalue.trans (by rw [value_openBound, ht]; rfl)
  · intro hopen
    rw [show Gate.isOpen? s.openScreen.profile.buttons.gates _ key = none from hclosed _] at hopen
    cases hopen
  · intro hopen
    rw [show Gate.isOpen? s.openScreen.profile.buttons.gates _ key = none from hclosed _] at hopen
    cases hopen

/-- A gated setting shows what it is stored as when its screen is opened. -/
theorem get?_openScreen_of_gated (hg : s.profile.GatesApart) (hk : s.profile.buttons.gates.contains key = true) :
    s.openScreen.screen.get? key = some (.switch key (s.openScreen.stores.isOn key)) := by
  obtain ⟨hscreen, -⟩ := opened_of_unbound (hg.unbound key hk)
  show (openGated s.profile s.opened.2 s.opened.1).get? key = _
  rw [get?_openGated, hscreen, Option.none_or, if_pos (Table.contains_iff.1 hk), Preferences.switchOrDefault,
    hg.defaultSwitch hk]
  rfl

theorem ready_openScreen (hg : s.profile.GatesApart) (hk : s.profile.buttons.gates.contains key = true) :
    s.openScreen.Ready key :=
  ⟨hk, hg.unbound key hk, true, _, get?_openScreen_of_gated hg hk, fun _ => ⟨rfl, rfl⟩⟩

/-- **Opening a screen brings every setting to rest.** -/
theorem atRest_resume (hp : s.profile.IsValid) (hg : s.profile.GatesApart) (hs : s.Placed home) (key : Key) :
    s.openScreen.resume.AtRest key := by
  have hplaced : s.openScreen.Placed home := hs.of_saves rfl (saves_opened s)
  cases hk : s.profile.buttons.gates.contains key with
  | true => exact (ready_openScreen hg hk).foldl hg hplaced (Table.contains_iff.1 hk)
  | false => exact (atRest_openScreen hp hs hk).foldl hg hplaced _

end

/-! ## opening again -/

/-- A look at the setting's gate finds nothing to do in the stores. -/
structure Idle (key : Key) (s : Session) : Prop where
  opened : Gate.isOpen? s.profile.buttons.gates s.stores.disk key = some true →
    s.stores.pending.get? key = none
  closed : Gate.isOpen? s.profile.buttons.gates s.stores.disk key = some false →
    s.stores.isOn key = false ∧ ∀ c, s.screen.get? key = some c → (c.enabled && c.checked) = false

theorem Idle.reconcile {s : Session} (h : ∀ k, s.Idle k) (key : Key) :
    (s.reconcile key).stores = s.stores ∧ ∀ k, (s.reconcile key).Idle k := by
  have hstores : (s.reconcile key).stores = s.stores := by
    rcases reconcile_cases s key with heq | ⟨isOpen, c, hopen, hc, heq⟩
    · rw [heq]
    · rw [heq]
      cases isOpen with
      | true => exact Gate.letIn_of_none ((h key).opened hopen)
      | false =>
        obtain ⟨hoff, hcontrol⟩ := (h key).closed hopen
        exact Gate.shutOut_of_off (hcontrol c hc) hoff
  refine ⟨hstores, fun k => ⟨fun hopen => ?_, fun hclosed => ?_⟩⟩
  · rw [profile_reconcile, hstores] at hopen
    rw [hstores]
    exact (h k).opened hopen
  · rw [profile_reconcile, hstores] at hclosed
    rw [hstores]
    obtain ⟨hoff, hcontrol⟩ := (h k).closed hclosed
    refine ⟨hoff, fun c hc => ?_⟩
    by_cases hk : k = key
    · subst hk
      rcases reconcile_cases s k with heq | ⟨isOpen, c', hopen, hc', -⟩
      · rw [heq] at hc
        exact hcontrol c hc
      · rw [(reconcile_closed hclosed hc').1] at hc
        cases hc
        rfl
    · rw [(agreeAt_reconcile hk).control] at hc
      exact hcontrol c hc

theorem Idle.foldl {s : Session} (h : ∀ k, s.Idle k) (ks : List Key) :
    (ks.foldl Session.reconcile s).stores = s.stores := by
  induction ks generalizing s with
  | nil => rfl
  | cons k ks ih =>
    obtain ⟨hstores, hidle⟩ := Idle.reconcile h k
    exact (ih hidle).trans hstores

theorem stores_openEach {α : Type} {f : Key → α → Stores → Control × Stores} {es : List (Key × α)}
    {at_ : Screen × Stores} (h : ∀ e ∈ es, (f e.1 e.2 at_.2).2 = at_.2) :
    (openEach f es at_).2 = at_.2 := by
  obtain ⟨screen, s⟩ := at_
  induction es generalizing screen with
  | nil => rfl
  | cons e es ih =>
    rw [openEach_cons, h e List.mem_cons_self]
    exact ih _ fun e' he' => h e' (List.mem_cons_of_mem _ he')

theorem mirror_of_get? {s : Stores} {key : Key} {v : Value} (h : s.preferences.get? key = some v) :
    mirror s key v = s := if_pos h

/-- Nothing is stored when every setting already is what its node holds. -/
theorem stores_openScreen {s : Session} (hp : s.profile.IsValid)
    (hswitch : ∀ key node token, s.profile.boundNode? key = some (node, .switch) →
      Node.token? s.stores.disk node = some token →
      s.stores.preferences.get? key = some (.switch (token == Value.switchToken true)))
    (htext : ∀ key node token, s.profile.boundNode? key = some (node, .text) →
      Node.token? s.stores.disk node = some token → s.stores.preferences.get? key = some (.text token)) :
    s.openScreen.stores = s.stores := by
  show s.opened.2 = s.stores
  have hfirst : (openEach (openSwitch s.profile) s.profile.buttons.switches.entries (.empty, s.stores)).2
      = s.stores := by
    refine stores_openEach fun e he => ?_
    have hb := Profile.boundNode?_switch.2 (Table.get?_eq_some_iff.2 he)
    rw [openSwitch_eq]
    cases htoken : Node.token? s.stores.disk e.2 with
    | none => rfl
    | some token => exact mirror_of_get? (hswitch e.1 e.2 token hb htoken)
  refine (stores_openEach fun e he => ?_).trans hfirst
  rw [hfirst]
  have ht := Table.get?_eq_some_iff.2 he
  rw [openText_eq]
  cases htoken : Node.token? s.stores.disk e.2 with
  | none => rfl
  | some token => exact mirror_of_get? (htext e.1 e.2 token (hp.boundNode?_of_texts ht) htoken)

/-- A gated setting at rest is idle when a screen over the same stores has been opened. -/
theorem AtRest.idle_openScreen {s t : Session} {key : Key} (h : s.AtRest key) (hg : s.profile.GatesApart)
    (htp : t.profile = s.profile) (hstores : t.openScreen.stores = t.stores)
    (hpreferences : t.stores.preferences = s.stores.preferences)
    (hpending : t.stores.pending = s.stores.pending) (hdisk : t.stores.disk = s.stores.disk) :
    t.openScreen.Idle key := by
  have hgates : t.openScreen.profile.buttons.gates = s.profile.buttons.gates := by rw [← htp]; rfl
  refine ⟨fun hopen => ?_, fun hclosed => ?_⟩
  · rw [hgates, hstores, hdisk] at hopen
    rw [hstores, hpending]
    exact h.opened hopen
  · rw [hgates, hstores, hdisk] at hclosed
    have hoff : t.openScreen.stores.isOn key = false :=
      (Stores.isOn_congr (by rw [hstores, hpreferences])).trans (h.closed hclosed)
    refine ⟨hoff, fun c hc => ?_⟩
    have hk : t.profile.buttons.gates.contains key = true := htp ▸ Gate.contains_of_isOpen? hclosed
    rw [get?_openScreen_of_gated (htp ▸ hg) hk, hoff] at hc
    cases hc
    rfl

/-- **Opening a screen again changes nothing.**  Where all settings are at rest, a session that begins with the
same stores shows the same screen and leaves the stores as they are. -/
theorem reopened {home : Path} {s t : Session} (hp : s.profile.IsValid) (hg : s.profile.GatesApart)
    (hs : s.Placed home) (h : ∀ key, s.AtRest key) (htp : t.profile = s.profile)
    (hpreferences : t.stores.preferences = s.stores.preferences)
    (hpending : t.stores.pending = s.stores.pending) (hdisk : t.stores.disk = s.stores.disk) :
    t.openScreen.resume.stores = t.stores ∧ t.openScreen.resume.screen = s.screen := by
  have hstores : t.openScreen.stores = t.stores := by
    refine stores_openScreen (htp ▸ hp) (fun key node token hb htoken => ?_) fun key node token hb htoken => ?_
    · rw [htp] at hb
      rw [hdisk] at htoken
      rw [hpreferences]
      exact (h key).switch node token hb htoken
    · rw [htp] at hb
      rw [hdisk] at htoken
      rw [hpreferences]
      exact (h key).text node token hb htoken
  have hidle (key : Key) : t.openScreen.Idle key :=
    (h key).idle_openScreen hg htp hstores hpreferences hpending hdisk
  have hsame : t.openScreen.resume.stores = t.stores := (Idle.foldl hidle _).trans hstores
  have hplaced : t.Placed home := hs.of_eq htp hpreferences hpending hdisk
  refine ⟨hsame, ?_⟩
  have hcontrols : t.openScreen.resume.screen.controls = s.screen.controls := by
    refine Table.ext_get? fun key => ?_
    have hrest := (atRest_resume (htp ▸ hp) (htp ▸ hg) hplaced key).control
    rw [hsame] at hrest
    have hprofile : t.openScreen.resume.profile = s.profile := (profile_resume t).trans htp
    rw [hprofile, shown_congr (s := s.stores) ⟨fun _ _ _ => by rw [hdisk], by rw [hdisk]⟩ (by rw [hpreferences])]
      at hrest
    exact hrest.trans (h key).control.symm
  exact congrArg Screen.mk hcontrols

end Session

end DeviceSettings

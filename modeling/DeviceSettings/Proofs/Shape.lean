import DeviceSettings.Proofs.Footprint

/-!
# The shape of a screen

Valid tables say which controls a screen has and of which kind each is: a list setting is shown as a text, any other
setting that has a node or a gate as a switch.  No act adds a control to an opened screen, takes one away or turns one
into the other kind (`Session.Shaped.run`), and a value once stored in its control's kind is only ever replaced by
another of that kind (`Session.Typed.run`), whatever is done to the device meanwhile.
-/

namespace DeviceSettings

namespace Profile

/-- The setting has a node or a gate. -/
def Shows (p : Profile) (key : Key) : Prop :=
  key ∈ p.buttons.switches.keys ∨ key ∈ p.buttons.texts.keys ∨ key ∈ p.buttons.gates.keys

/-- The kind of control that a setting is shown as. -/
def controlKind (p : Profile) (key : Key) : ControlKind :=
  if p.buttons.texts.contains key then .text else .switch

variable {p : Profile} {key : Key} {node : Path} {kind : NodeKind}

theorem controlKind_of_bound (hp : p.IsValid) (hb : p.boundNode? key = some (node, kind)) :
    p.controlKind key = kind.control := by
  cases kind with
  | switch =>
    rw [controlKind, Table.not_contains_of_get? (hp.texts_none (boundNode?_switch.mp hb))]
    rfl
  | text =>
    rw [controlKind, Table.contains_of_get? (boundNode?_text.mp hb).2]
    rfl

/-- In a valid profile nothing but a switch has a gate. -/
theorem controlKind_of_gated (hp : p.IsValid) (hg : p.buttons.gates.contains key = true) :
    p.controlKind key = .switch := by
  rw [controlKind]
  split
  · next htext =>
    obtain ⟨node, hnode⟩ := Option.isSome_iff_exists.mp htext
    rw [hp.ungated_of_text (hp.boundNode?_of_texts hnode)] at hg
    cases hg
  · rfl

theorem controlKind_of_unbound (hb : p.boundNode? key = none) : p.controlKind key = .switch := by
  rw [controlKind, Table.not_contains_of_get? (boundNode?_eq_none.mp hb).2]
  rfl

theorem shows_of_bound (hb : p.boundNode? key = some (node, kind)) : p.Shows key := by
  cases kind with
  | switch => exact .inl (Table.mem_keys_of_get? (boundNode?_switch.mp hb))
  | text => exact .inr (.inl (Table.mem_keys_of_get? (boundNode?_text.mp hb).2))

theorem shows_of_unbound (hb : p.boundNode? key = none) : p.Shows key ↔ key ∈ p.buttons.gates.keys := by
  obtain ⟨hswitch, htext⟩ := boundNode?_eq_none.mp hb
  have hs : key ∉ p.buttons.switches.keys := Table.not_mem_keys hswitch
  have ht : key ∉ p.buttons.texts.keys := Table.not_mem_keys htext
  rw [Shows]
  simp [hs, ht]

end Profile

/-! ## one control -/

/-- The kind of control that shows a value. -/
def Value.kind : Value → ControlKind
  | switch _ => .switch
  | text _ => .text

theorem Profile.kind_value (kind : Profile.NodeKind) (token : String) : (kind.value token).kind = kind.control := by
  cases kind <;> rfl

namespace Control

/-- A text is never switched on, and a switch holds no text. -/
structure Plain (c : Control) : Prop where
  text : c.kind = .text → c.checked = false
  switch : c.kind = .switch → c.value = none

theorem plain_of_switch {c : Control} (hkind : c.kind = .switch) (hvalue : c.value = none) : c.Plain :=
  ⟨fun htext => absurd (hkind.symm.trans htext) (by decide), fun _ => hvalue⟩

theorem plain_of_text {c : Control} (hkind : c.kind = .text) (hchecked : c.checked = false) : c.Plain :=
  ⟨fun _ => hchecked, fun hswitch => absurd (hkind.symm.trans hswitch) (by decide)⟩

/-- A control takes values of its own kind, and only what it shows changes. -/
theorem kind_of_showing? {c c' : Control} {v : Value} (h : c.showing? v = some c') :
    v.kind = c.kind ∧ c'.key = c.key ∧ c'.kind = c.kind ∧ (c.Plain → c'.Plain) := by
  cases v with
  | switch on =>
    rw [showing?] at h
    split at h
    · next hkind =>
      obtain rfl := Option.some.inj h
      exact ⟨hkind.symm, rfl, rfl, fun hc => plain_of_switch hkind (hc.switch hkind)⟩
    · cases h
  | text line =>
    rw [showing?] at h
    split at h
    · next hkind =>
      obtain rfl := Option.some.inj h
      exact ⟨hkind.symm, rfl, rfl, fun hc => plain_of_text hkind (hc.text hkind)⟩
    · cases h

/-- A look at a gate switches a control on or off, and enables it or not. -/
theorem shape_reconcile (key : Key) (isOpen : Bool) (c : Control) (s : Stores) :
    ∃ enabled checked, (Gate.reconcile key isOpen c s).2.1 = { c with enabled, checked } := by
  cases isOpen with
  | true => exact ⟨true, s.comesBack key, Gate.letIn_control key c s⟩
  | false => exact ⟨false, false, rfl⟩

end Control

namespace Session

variable {s t : Session} {p : Profile} {key : Key} {node : Path} {kind : Profile.NodeKind}

theorem plain_openBound (stores : Stores) : (openBound p key node kind stores).1.Plain := by
  rw [control_openBound]
  cases Node.token? stores.disk node <;> cases kind
  · exact Control.plain_of_switch rfl rfl
  · exact Control.plain_of_text rfl rfl
  · exact Control.plain_of_switch rfl rfl
  · exact Control.plain_of_text rfl rfl

/-! ## one setting -/

/-- What valid tables fix of a setting's control. -/
structure Shaped (key : Key) (s : Session) : Prop where
  shown : (s.screen.get? key).isSome = true ↔ s.profile.Shows key
  control : ∀ c, s.screen.get? key = some c → c.key = key ∧ c.kind = s.profile.controlKind key ∧ c.Plain

/-- The setting is stored, as a value that its control can show. -/
def Typed (key : Key) (s : Session) : Prop :=
  ∃ v, s.stores.preferences.get? key = some v ∧ v.kind = s.profile.controlKind key

theorem Shaped.of_agreeAt (h : s.Shaped key) (hp : t.profile = s.profile) (ha : AgreeAt key s t) : t.Shaped key := by
  refine ⟨?_, ?_⟩
  · rw [ha.control, hp]
    exact h.shown
  · rw [ha.control, hp]
    exact h.control

theorem Typed.of_agreeAt (h : s.Typed key) (hp : t.profile = s.profile) (ha : AgreeAt key s t) : t.Typed key := by
  rw [Typed, ha.value, hp]
  exact h

/-- A look at a gate leaves a setting alone, unless the setting has that gate. -/
theorem reconcile_agreeAt_or (s : Session) (key k : Key) :
    AgreeAt key s (s.reconcile k) ∨ key = k ∧ s.profile.buttons.gates.contains key = true := by
  by_cases hk : key = k
  · cases hg : s.profile.buttons.gates.contains key with
    | false => exact .inl (agreeAt_reconcile_of_ungated hg k)
    | true => exact .inr ⟨hk, rfl⟩
  · exact .inl (agreeAt_reconcile hk)

/-- A change leaves a setting alone, unless it is one of the setting itself and its control takes it. -/
theorem accept_agreeAt_or (s : Session) (key k : Key) (v : Value) :
    AgreeAt key s (s.accept k v) ∨ key = k ∧ ∃ c c', s.screen.get? key = some c ∧ c.showing? v = some c'
      ∧ (s.accept key v).screen.get? key = some c' ∧ (s.accept key v).stores.preferences.get? key = some v := by
  by_cases hk : key = k
  · subst hk
    cases hshows : s.showing? key v with
    | none =>
      rw [accept_of_none hshows]
      exact .inl .rfl
    | some c' =>
      obtain ⟨c, hc, -, hc'⟩ := showing?_eq_some.mp hshows
      obtain ⟨hafter, hstored, -⟩ := screen_accept hshows
      exact .inr ⟨rfl, c, c', hc, hc', hafter, hstored⟩
  · exact .inl (agreeAt_accept v hk)

section
variable (hp : s.profile.IsValid)
include hp

/-- Opening a screen makes the controls that the tables say. -/
theorem shaped_openScreen (key : Key) : s.openScreen.Shaped key := by
  cases hb : s.profile.boundNode? key with
  | some b =>
    obtain ⟨node, kind⟩ := b
    obtain ⟨t, -, -, hcontrol, -⟩ := openScreen_bound hp hb
    refine ⟨?_, fun c hc => ?_⟩
    · rw [hcontrol]
      exact iff_of_true rfl (Profile.shows_of_bound hb)
    · obtain rfl := Option.some.inj (hcontrol.symm.trans hc)
      refine ⟨(opener_openBound s.profile kind).key key node t, ?_, plain_openBound t⟩
      exact (kind_openBound t).trans (Profile.controlKind_of_bound hp hb).symm
  | none =>
    have hcontrol := get?_openGated s.profile s.opened.2 s.opened.1 key
    rw [(opened_of_unbound hb).1, Option.none_or] at hcontrol
    replace hcontrol : s.openScreen.screen.get? key = _ := hcontrol
    refine ⟨?_, fun c hc => ?_⟩
    · rw [hcontrol]
      show _ ↔ s.profile.Shows key
      rw [Profile.shows_of_unbound hb]
      split <;> simp_all
    · rw [hcontrol] at hc
      split at hc
      · obtain rfl := Option.some.inj hc
        exact ⟨rfl, (Profile.controlKind_of_unbound hb).symm, Control.plain_of_switch rfl rfl⟩
      · cases hc

/-- A look at a gate is about a switch. -/
theorem Shaped.reconcile (h : s.Shaped key) (k : Key) : (s.reconcile k).Shaped key := by
  rcases reconcile_agreeAt_or s key k with ha | ⟨rfl, hg⟩
  · exact h.of_agreeAt (profile_reconcile s k) ha
  · rcases reconcile_cases s key with heq | ⟨isOpen, c, -, hc, heq⟩
    · rw [heq]
      exact h
    · obtain ⟨enabled, checked, hgate⟩ := Control.shape_reconcile key isOpen c s.stores
      obtain ⟨hkey, hkind, hplain⟩ := h.control c hc
      have hafter : (s.reconcile key).screen.get? key = some { c with enabled, checked } := by
        rw [heq]
        show (s.screen.set key _).get? key = _
        rw [Screen.get?_set, if_pos rfl, hgate]
      have hswitch : c.kind = .switch := hkind.trans (Profile.controlKind_of_gated hp hg)
      refine ⟨?_, fun c' hc' => ?_⟩
      · rw [hafter, profile_reconcile, ← h.shown, hc]
        rfl
      · obtain rfl := Option.some.inj (hafter.symm.trans hc')
        rw [profile_reconcile]
        -- it may have been switched on, but it is not a text
        exact ⟨hkey, hkind, Control.plain_of_switch hswitch (hplain.switch hswitch)⟩

theorem Typed.reconcile (h : s.Typed key) (k : Key) : (s.reconcile k).Typed key := by
  rcases reconcile_agreeAt_or s key k with ha | ⟨rfl, hg⟩
  · exact h.of_agreeAt (profile_reconcile s k) ha
  · rcases switch_reconcile s key with hsame | ⟨on, hon⟩
    · rw [Typed, hsame, profile_reconcile]
      exact h
    · refine ⟨.switch on, hon, ?_⟩
      rw [profile_reconcile, Profile.controlKind_of_gated hp hg]
      rfl

end

/-- A change that is accepted is of the control's kind. -/
theorem Shaped.accept (h : s.Shaped key) (k : Key) (v : Value) : (s.accept k v).Shaped key := by
  rcases accept_agreeAt_or s key k v with ha | ⟨rfl, c, c', hc, hshows, hafter, -⟩
  · exact h.of_agreeAt (profile_accept s k v) ha
  · obtain ⟨hkey, hkind, hplain⟩ := h.control c hc
    obtain ⟨-, hkey', hkind', hplain'⟩ := Control.kind_of_showing? hshows
    refine ⟨?_, fun c'' hc'' => ?_⟩
    · rw [hafter, profile_accept, ← h.shown, hc]
      rfl
    · obtain rfl := Option.some.inj (hafter.symm.trans hc'')
      rw [profile_accept]
      exact ⟨hkey'.trans hkey, hkind'.trans hkind, hplain' hplain⟩

theorem Typed.accept (h : s.Typed key) (hs : s.Shaped key) (k : Key) (v : Value) : (s.accept k v).Typed key := by
  rcases accept_agreeAt_or s key k v with ha | ⟨rfl, c, c', hc, hshows, -, hstored⟩
  · exact h.of_agreeAt (profile_accept s k v) ha
  · refine ⟨v, hstored, ?_⟩
    rw [profile_accept, (Control.kind_of_showing? hshows).1]
    exact (hs.control c hc).2.1

/-- What a node can be read as is stored when the screen is opened. -/
theorem typed_openScreen (hp : s.profile.IsValid) (h : s.Typed key) : s.openScreen.Typed key := by
  obtain ⟨v, hv, hkind⟩ := h
  cases hb : s.profile.boundNode? key with
  | none => exact ⟨v, (opened_of_unbound hb).2.trans hv, hkind⟩
  | some b =>
    obtain ⟨node, kind⟩ := b
    obtain ⟨t, -, hsame, -, hstored⟩ := openScreen_bound hp hb
    rw [value_openBound] at hstored
    cases htoken : Node.token? t.disk node with
    | none =>
      rw [htoken, hsame] at hstored
      exact ⟨v, hstored.trans hv, hkind⟩
    | some token =>
      rw [htoken] at hstored
      exact ⟨kind.value token, hstored,
        (Profile.kind_value kind token).trans (Profile.controlKind_of_bound hp hb).symm⟩

/-! ## one act after another -/

/-- An act keeps what opening a screen, accepting a change and a look at a gate keep, if it is about one setting. -/
theorem Act.keeps {motive : Session → Prop}
    (same : ∀ s t : Session, t.profile = s.profile → AgreeAt key s t → motive s → motive t)
    (opens : ∀ s : Session, s.profile = p → motive s → motive s.openScreen)
    (accepts : ∀ (s : Session) k v, s.profile = p → motive s → motive (s.accept k v))
    (looks : ∀ (s : Session) k, s.profile = p → motive s → motive (s.reconcile k))
    (hp : s.profile = p) (h : motive s) (a : Act) : motive (a.run s) := by
  have hfoldl (ks : List Key) (t : Session) (ht : t.profile = p) (hm : motive t) :
      motive (ks.foldl Session.reconcile t) := by
    induction ks generalizing t with
    | nil => exact hm
    | cons k ks ih => exact ih (t.reconcile k) ((profile_reconcile t k).trans ht) (looks t k ht hm)
  cases a with
  | openScreen => exact opens s hp h
  | resume => exact hfoldl _ s hp h
  | apply k v =>
    show motive (s.apply k v).2
    rcases apply_cases s k v with ⟨why, heq⟩ | ⟨c, -, ⟨e, heq⟩ | ⟨-, heq⟩⟩
    · rw [heq]
      exact h
    · rw [heq]
      exact accepts s k v hp h
    -- a change that is written is accepted, its dependents are looked at, and then the pocket is checked
    · rw [heq]
      refine same _ _ (checkPocket_same _ k).1 (agreeAt_checkPocket _ k key) (hfoldl _ _ ?_ (accepts s k v hp h))
      exact (profile_accept s k v).trans hp
  | accept k v => exact accepts s k v hp h
  | reconcile k => exact looks s k hp h
  | deliver => exact same s _ (Act.profile_run .deliver s) (Act.agreeAt_deliver s key) h
  | close => exact same s _ rfl ⟨rfl, rfl, rfl⟩ h

/-- After an act the controls are as the tables say if they were before. -/
theorem Shaped.run (hp : s.profile.IsValid) (h : s.Shaped key) (a : Act) : (a.run s).Shaped key := by
  refine Act.keeps (fun s t hst ha h => h.of_agreeAt hst ha) (fun t ht _ => ?_) (fun t k v _ h => h.accept k v)
    (fun t k ht h => ?_) rfl h a
  · exact shaped_openScreen (ht ▸ hp) key
  · exact h.reconcile (ht ▸ hp) k

theorem Typed.run (hp : s.profile.IsValid) (hs : s.Shaped key) (h : s.Typed key) (a : Act) :
    (a.run s).Typed key := by
  refine (Act.keeps (motive := fun t => t.Shaped key ∧ t.Typed key)
    (fun s t hst ha h => ⟨h.1.of_agreeAt hst ha, h.2.of_agreeAt hst ha⟩) (fun t ht h => ?_)
    (fun t k v _ h => ⟨h.1.accept k v, h.2.accept h.1 k v⟩) (fun t k ht h => ?_) rfl ⟨hs, h⟩ a).2
  · exact ⟨shaped_openScreen (ht ▸ hp) key, typed_openScreen (ht ▸ hp) h.2⟩
  · exact ⟨h.1.reconcile (ht ▸ hp) k, h.2.reconcile (ht ▸ hp) k⟩

/-- Nothing becomes pending for a setting without a gate. -/
theorem pending_run (hg : s.profile.buttons.gates.contains key = false) (a : Act) :
    (a.run s).stores.pending.get? key = s.stores.pending.get? key := by
  refine Act.keeps (motive := fun t => t.stores.pending.get? key = s.stores.pending.get? key)
    (fun _ _ _ (ha : AgreeAt key _ _) h => ha.pending.trans h) (fun t _ h => ?_) (fun t k v _ h => ?_)
    (fun t k ht h => ?_) rfl rfl a
  · show t.opened.2.pending.get? key = _
    rw [pending_opened]
    exact h
  · cases hc : t.showing? k v with
    | none =>
      rw [accept_of_none hc]
      exact h
    | some c =>
      rw [(screen_accept hc).2.2]
      exact h
  · exact (agreeAt_reconcile_of_ungated (ht ▸ hg) k).pending.trans h

/-- On an empty screen there is nothing to change. -/
theorem run_of_empty (h : s.screen = .empty) {a : Act} (ha : a ≠ .openScreen) :
    (a.run s).screen = .empty ∧ (a.run s).stores = s.stores := by
  have hnone (k : Key) : s.screen.get? k = none := by
    rw [h]
    rfl
  have hlook (k : Key) : s.reconcile k = s := by
    rcases reconcile_cases s k with heq | ⟨isOpen, c, -, hc, -⟩
    · exact heq
    · rw [hnone] at hc
      cases hc
  cases a with
  | openScreen => exact absurd rfl ha
  | resume =>
    have hfoldl : s.resume = s := by
      unfold resume
      induction s.profile.buttons.gates.keys with
      | nil => rfl
      | cons k ks ih => rw [List.foldl_cons, hlook, ih]
    show s.resume.screen = .empty ∧ s.resume.stores = s.stores
    rw [hfoldl]
    exact ⟨h, rfl⟩
  | apply k v =>
    show (s.apply k v).2.screen = .empty ∧ (s.apply k v).2.stores = s.stores
    rw [apply, hnone]
    exact ⟨h, rfl⟩
  | accept k v =>
    show (s.accept k v).screen = .empty ∧ (s.accept k v).stores = s.stores
    rw [accept_of_none (by rw [showing?, hnone])]
    exact ⟨h, rfl⟩
  | reconcile k =>
    show (s.reconcile k).screen = .empty ∧ (s.reconcile k).stores = s.stores
    rw [hlook]
    exact ⟨h, rfl⟩
  | deliver =>
    show s.deliver.screen = .empty ∧ s.deliver.stores = s.stores
    unfold deliver
    split <;> exact ⟨h, rfl⟩
  | close => exact ⟨h, rfl⟩

/-! ## a whole run -/

/-- Acts one after another, with anything done to the device between them. -/
inductive Usage (may : Act → Prop) (s : Session) : Session → Prop
  | refl : Usage may s s
  | act {t : Session} (h : Usage may s t) (a : Act) (ha : may a) : Usage may s (a.run t)
  | outside {t : Session} (h : Usage may s t) (d : Device) : Usage may s (t.withDevice d)

section
variable {may : Act → Prop}

theorem Usage.profile (h : Usage may s t) : t.profile = s.profile := by
  induction h with
  | refl => rfl
  | act _ a _ ih => exact (Act.profile_run a _).trans ih
  | outside _ d ih => exact ih

theorem Usage.shaped (h : Usage may s t) (hp : s.profile.IsValid) (hs : s.Shaped key) : t.Shaped key := by
  induction h with
  | refl => exact hs
  | act h a _ ih => exact ih.run (h.profile ▸ hp) a
  | outside _ d ih => exact ih.of_agreeAt rfl ⟨rfl, rfl, rfl⟩

theorem Usage.typed (h : Usage may s t) (hp : s.profile.IsValid) (hs : s.Shaped key) (ht : s.Typed key) :
    t.Typed key := by
  induction h with
  | refl => exact ht
  | act h a _ ih => exact ih.run (h.profile ▸ hp) (h.shaped hp hs) a
  | outside _ d ih => exact ih.of_agreeAt rfl ⟨rfl, rfl, rfl⟩

theorem Usage.pending (h : Usage may s t) (hg : s.profile.buttons.gates.contains key = false) :
    t.stores.pending.get? key = s.stores.pending.get? key := by
  induction h with
  | refl => rfl
  | act h a _ ih => exact (pending_run (h.profile ▸ hg) a).trans ih
  | outside _ d ih => exact ih

theorem Usage.of_empty (h : Usage (· ≠ .openScreen) s t) (hs : s.screen = .empty) : t.screen = .empty
    ∧ t.stores.preferences = s.stores.preferences ∧ t.stores.pending = s.stores.pending := by
  induction h with
  | refl => exact ⟨hs, rfl, rfl⟩
  | act _ a ha ih =>
    obtain ⟨hscreen, hpreferences, hpending⟩ := ih
    obtain ⟨hscreen', hstores⟩ := run_of_empty hscreen ha
    rw [hstores]
    exact ⟨hscreen', hpreferences, hpending⟩
  | outside _ d ih => exact ih

end

/-- The controls are those of the settings with a node or a gate, one to each and in the order of their keys; those
of the list settings are texts and the others switches. -/
structure InShape (p : Profile) (s : Session) : Prop where
  ascending : (s.screen.toList.map (·.key)).Pairwise fun k k' => compare k k' = .lt
  keys : ∀ key, key ∈ s.screen.toList.map (·.key)
    ↔ key ∈ p.buttons.switches.keys ∨ key ∈ p.buttons.texts.keys ∨ key ∈ p.buttons.gates.keys
  kind : ∀ c ∈ s.screen.toList, c.kind = .text ↔ c.key ∈ p.buttons.texts.keys
  text : ∀ c ∈ s.screen.toList, c.kind = .text → c.checked = false
  switch : ∀ c ∈ s.screen.toList, c.kind = .switch → c.value = none

theorem inShape_of_shaped (h : ∀ key, s.Shaped key) : s.InShape s.profile := by
  have hentry (e : Key × Control) (he : e ∈ s.screen.controls.entries) :
      e.2.key = e.1 ∧ e.2.kind = s.profile.controlKind e.1 ∧ e.2.Plain :=
    (h e.1).control e.2 (Table.get?_eq_some_iff.mpr he)
  have hkeys : s.screen.toList.map (·.key) = s.screen.controls.keys := by
    rw [Screen.toList, Table.values, List.map_map, Table.keys]
    exact List.map_congr_left fun e he => (hentry e he).1
  have hcontrol (c : Control) (hc : c ∈ s.screen.toList) : c.kind = s.profile.controlKind c.key ∧ c.Plain := by
    obtain ⟨e, he, rfl⟩ := List.mem_map.mp hc
    obtain ⟨hkey, hkind, hplain⟩ := hentry e he
    exact ⟨by rw [hkind, hkey], hplain⟩
  refine ⟨?_, fun key => ?_, fun c hc => ?_, fun c hc => (hcontrol c hc).2.text, fun c hc => (hcontrol c hc).2.switch⟩
  · rw [hkeys]
    exact List.pairwise_map.mpr s.screen.controls.ascending
  · rw [hkeys, ← Table.contains_iff]
    exact (h key).shown
  · rw [(hcontrol c hc).1, ← Table.contains_iff, Profile.controlKind]
    split <;> simp_all

/-- **Valid tables fix the shape of the screen.**  Until it is opened the screen is empty and nothing happens to what
is stored.  From then on, whatever is done in the session and to the device, the controls are those of the settings
with a node or a gate, in the order of their keys and each of its kind, nothing becomes pending for a list setting,
and a setting whose node could be read when its turn came stays stored as a value of its control's kind. -/
theorem shape_of_valid (hp : p.IsValid) (stores : Stores) (dispatch : Dispatch)
    (hs : Usage (· ≠ .openScreen) (start p stores dispatch) s) :
    (s.screen = .empty ∧ s.stores.preferences = stores.preferences ∧ s.stores.pending = stores.pending)
      ∧ (∀ t, Usage (fun _ => True) s.openScreen t → t.InShape p
        ∧ ∀ key ∈ p.buttons.texts.keys, t.stores.pending.get? key = stores.pending.get? key)
      ∧ ∀ key node kind, p.boundNode? key = some (node, kind) → ∃ turn c, s.stores.Saves turn
        ∧ s.openScreen.screen.get? key = some c ∧ c.enabled = (Node.token? turn.disk node).isSome
        ∧ (c.enabled = true → ∀ t, Usage (fun _ => True) s.openScreen t → ∃ c v, t.screen.get? key = some c
          ∧ t.stores.preferences.get? key = some v ∧ v.kind = c.kind) := by
  obtain rfl : s.profile = p := hs.profile
  obtain ⟨hscreen, hpreferences, hpending⟩ := hs.of_empty rfl
  have hshaped (key : Key) : s.openScreen.Shaped key := shaped_openScreen hp key
  refine ⟨⟨hscreen, hpreferences, hpending⟩, fun t ht => ⟨?_, fun key hkey => ?_⟩, fun key node kind hb => ?_⟩
  · have hprofile : t.profile = s.profile := ht.profile
    rw [← hprofile]
    exact inShape_of_shaped fun key => ht.shaped hp (hshaped key)
  · obtain ⟨node, hnode⟩ := Option.isSome_iff_exists.mp (Table.contains_iff.mpr hkey)
    have hg := hp.ungated_of_text (hp.boundNode?_of_texts hnode)
    rw [ht.pending hg]
    show s.opened.2.pending.get? key = _
    rw [pending_opened, hpending]
    rfl
  · obtain ⟨turn, hsaves, -, hcontrol, hstored⟩ := openScreen_bound hp hb
    refine ⟨turn, _, hsaves, hcontrol, enabled_openBound turn, fun henabled t ht => ?_⟩
    rw [enabled_openBound] at henabled
    obtain ⟨token, htoken⟩ := Option.isSome_iff_exists.mp henabled
    rw [value_openBound, htoken] at hstored
    have htyped : s.openScreen.Typed key := ⟨kind.value token, hstored,
      (Profile.kind_value kind token).trans (Profile.controlKind_of_bound hp hb).symm⟩
    -- from here on neither the control nor the value changes its kind
    obtain ⟨v, hv, hkind⟩ := ht.typed hp (hshaped key) htyped
    have hshown := (ht.shaped hp (hshaped key)).shown
    rw [show t.profile = s.profile from ht.profile] at hshown
    obtain ⟨c, hc⟩ := Option.isSome_iff_exists.mp (hshown.mpr (Profile.shows_of_bound hb))
    refine ⟨c, v, hc, hv, ?_⟩
    rw [hkind, ((ht.shaped hp (hshaped key)).control c hc).2.1]

/-- A list setting that was stored as a switch is stored as a text once the screen is opened. -/
theorem shape_of_valid_stored_switch :
    let s := start Boot.switchAndText ⟨Boot.switchedOn, .inMemory, Boot.nodesDevice []⟩ .inline
    let t := (s.openScreen.apply "t" (.text "recents")).2.resume
    Boot.switchedOn.get? "t" = some (.switch true) ∧ t.InShape Boot.switchAndText
      ∧ ∃ c v, t.screen.get? "t" = some c ∧ t.stores.preferences.get? "t" = some v ∧ v.kind = c.kind := by
  intro s t
  obtain ⟨-, hshape, hstored⟩ := shape_of_valid (p := Boot.switchAndText) (by decide +kernel)
    ⟨Boot.switchedOn, .inMemory, Boot.nodesDevice []⟩ .inline .refl
  have ht : Usage (fun _ => True) s.openScreen t :=
    (Usage.refl.act (.apply "t" (.text "recents")) trivial).act .resume trivial
  obtain ⟨turn, c, -, hc, -, hreadable⟩ := hstored "t" ⟨"x"⟩ .text (by decide +kernel)
  have hon : s.openScreen.screen.get? "t" = some (.text "t" (some "")) := by decide +kernel
  obtain rfl := Option.some.inj (hc.symm.trans hon)
  exact ⟨by decide +kernel, (hshape t ht).1, hreadable rfl t ht⟩

end Session

end DeviceSettings

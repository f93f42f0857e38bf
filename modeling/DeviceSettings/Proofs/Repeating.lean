import DeviceSettings.Proofs.Reconciling
import DeviceSettings.Proofs.Unreadable

/-!
# Doing it again

Opening a screen leaves a session in which every setting with a node shows what the node holds and is stored so
(`Session.Opened`); resuming leaves one in which every gated control is in line with its gate (`Session.InLine`).
In such a session the same has nothing left to do, so only the first of several calls can save anything.  Looks at
different gates do not meet, so a screen may be resumed in any order (`Session.repeats`).
-/

namespace DeviceSettings

open Disk (Steady)

/-- No save of the stores reaches what is read: no node is one of their files, and the way to none goes up out of a
directory that is still to be made for them. -/
structure Profile.OutOfReach (p : Profile) (s : Stores) : Prop where
  apart : ∀ n, p.Reads n → ¬s.disk.Among s.documents (s.disk.placeOf n)
  steady : ∀ n, p.Reads n → Steady (s.disk.MadeFor s.documents) s.disk n

theorem Profile.OutOfReach.stable {p : Profile} {s : Stores} (h : p.OutOfReach s) (ht : s.disk.IsTree) {n : Path}
    (hn : p.Reads n) : Session.Stable s n :=
  fun _ hs => Node.token?_eq ht (hs.grown_documents ht) (h.steady n hn) (h.apart n hn)

/-- The nodes are out of reach if none is a file of the stores and the path of none goes up at all. -/
theorem Profile.outOfReach_of_straight {p : Profile} {s : Stores}
    (h : ∀ n ∈ p.readNodes,
      ¬s.disk.Among s.documents (s.disk.placeOf n) ∧ Disk.exits (s.disk.base n) n.names = []) : p.OutOfReach s := by
  refine ⟨fun n hn => (h n hn.mem_readNodes).1, fun n hn x hx => ?_⟩
  rw [(h n hn.mem_readNodes).2] at hx
  cases hx

/-- A setting with a node is a switch or a list setting. -/
theorem Profile.mem_keys_of_bound {p : Profile} {key : Key} {b : Path × Profile.NodeKind}
    (h : p.boundNode? key = some b) : key ∈ p.buttons.switches.keys ∨ key ∈ p.buttons.texts.keys := by
  obtain ⟨node, kind⟩ := b
  cases kind with
  | switch => exact .inl (Table.mem_keys_of_get? (boundNode?_switch.mp h))
  | text => exact .inr (Table.mem_keys_of_get? (boundNode?_text.mp h).2)

/-- Spellings of one path lead to one place. -/
theorem Path.Same.placeOf_eq {p q : Path} (h : p.Same q) (d : Disk) : d.placeOf p = d.placeOf q := by
  rw [Disk.placeOf, Disk.placeOf, Disk.base, Disk.base, h.names_eq, h.isAbsolute_eq]

/-- No save reaches a path that is spelled like one that leads somewhere, if its place is none of those of the files
of the stores. -/
theorem Session.stable_of_same {s : Stores} {n node : Path} {e : Entry} (ht : s.disk.IsTree)
    (he : s.disk.entry node = .ok e) (hsame : n.Same node)
    (hapart : ¬s.disk.Among s.documents (s.disk.placeOf node)) : Session.Stable s n := by
  intro t hs
  refine Node.token?_eq ht (hs.grown_documents ht) ?_ (hsame.placeOf_eq s.disk ▸ hapart)
  have hsteady : Steady (s.disk.MadeFor s.documents) s.disk node := Disk.steady_of_entry he
  rwa [Steady, Disk.base, ← hsame.names_eq, ← hsame.isAbsolute_eq] at hsteady

theorem Session.stable_of_token? {s : Stores} {n : Path} {line : String} (ht : s.disk.IsTree)
    (hline : Node.token? s.disk n = some line) (hapart : ¬s.disk.Among s.documents (s.disk.placeOf n)) :
    Session.Stable s n := by
  obtain ⟨e, he⟩ := Node.entry_of_token? hline
  exact stable_of_same ht he Path.Same.rfl hapart

namespace Session

open Table (not_mem_keys)
open Profile (mem_keys_of_bound)

variable {s t : Session} {key k : Key}

/-! ## opening again -/

/-- Every setting with a node shows what the node holds and is stored so; any other shows what is stored for it, if it
has a gate. -/
structure Opened (s : Session) : Prop where
  bound : ∀ key node kind, s.profile.boundNode? key = some (node, kind) →
    s.screen.get? key = some (openBound s.profile key node kind s.stores).1
      ∧ ∀ token, Node.token? s.stores.disk node = some token →
        s.stores.preferences.get? key = some (kind.value token)
  unbound : ∀ key, s.profile.boundNode? key = none → s.screen.get? key =
    if key ∈ s.profile.buttons.gates.keys then some (.switch key (s.stores.preferences.switchOrDefault s.profile key))
    else none

/-- Opening settings that are open already saves nothing, and shows them as they are shown. -/
theorem openEach_of_shown {α : Type} {f : Key → α → Stores → Control × Stores} (hf : Opener f)
    {es : List (Key × α)} {stores : Stores} {shown : Screen}
    (h : ∀ e ∈ es, shown.get? e.1 = some (f e.1 e.2 stores).1 ∧ (f e.1 e.2 stores).2 = stores) (screen : Screen) :
    ∃ screen', openEach f es (screen, stores) = (screen', stores)
      ∧ ∀ key, screen'.get? key = if key ∈ es.map (·.1) then shown.get? key else screen.get? key := by
  induction es generalizing screen with
  | nil => exact ⟨screen, rfl, fun _ => rfl⟩
  | cons e es ih =>
    obtain ⟨⟨hshown, hsame⟩, hes⟩ := List.forall_mem_cons.mp h
    obtain ⟨screen', heq, hscreen⟩ := ih hes (screen.put (f e.1 e.2 stores).1)
    refine ⟨screen', ?_, fun key => ?_⟩
    · rw [openEach_cons, hsame, heq]
    · rw [hscreen, Screen.get?_put, hf.key]
      by_cases hk : key = e.1
      · rw [hk, if_pos rfl, hshown, ite_self, if_pos (by simp)]
      · rw [if_neg hk]
        exact if_congr (by simp [hk]) rfl rfl

/-- What is stored already is not stored again. -/
theorem openBound_of_stored {p : Profile} {node : Path} {kind : Profile.NodeKind} {stores : Stores}
    (h : ∀ token, Node.token? stores.disk node = some token → stores.preferences.get? key = some (kind.value token)) :
    (openBound p key node kind stores).2 = stores := by
  rw [stores_openBound]
  cases htoken : Node.token? stores.disk node with
  | none => rfl
  | some token => exact if_pos (h token htoken)

theorem Opened.openScreen_eq (h : s.Opened) (hp : s.profile.IsValid) : s.openScreen = s := by
  have hbound (key : Key) (node : Path) (kind : Profile.NodeKind) (hb : s.profile.boundNode? key = some (node, kind)) :
      s.screen.get? key = some (openBound s.profile key node kind s.stores).1
        ∧ (openBound s.profile key node kind s.stores).2 = s.stores :=
    (h.bound key node kind hb).imp_right openBound_of_stored
  obtain ⟨first, hfirst, hswitches⟩ := openEach_of_shown (opener_openSwitch s.profile)
    (fun e he => hbound e.1 e.2 .switch (Profile.boundNode?_switch.mpr (Table.get?_eq_some_iff.mpr he))) .empty
  obtain ⟨second, hsecond, htexts⟩ := openEach_of_shown (opener_openText s.profile)
    (fun e he => hbound e.1 e.2 .text (hp.boundNode?_of_texts (Table.get?_eq_some_iff.mpr he))) first
  have hopened : s.opened = (second, s.stores) := by rw [opened, hfirst, hsecond]
  have hscreen : openGated s.profile s.stores second = s.screen := by
    refine Screen.ext_get? fun key => ?_
    rw [get?_openGated]
    cases hb : s.profile.boundNode? key with
    | none =>
      obtain ⟨hswitch, htext⟩ := Profile.boundNode?_eq_none.mp hb
      have hfirst : first.get? key = none := (hswitches key).trans (if_neg (not_mem_keys hswitch))
      have hsecond : second.get? key = first.get? key := (htexts key).trans (if_neg (not_mem_keys htext))
      rw [hsecond, hfirst, Option.none_or, h.unbound key hb]
    | some b =>
      have hshown : second.get? key = s.screen.get? key := by
        rcases mem_keys_of_bound hb with hmem | hmem
        · have hfirst : first.get? key = s.screen.get? key := (hswitches key).trans (if_pos hmem)
          rw [htexts, hfirst, ite_self]
        · exact (htexts key).trans (if_pos hmem)
      rw [hshown, (h.bound key b.1 b.2 hb).1, Option.some_or]
  rw [Session.openScreen_eq, hopened]
  show { s with screen := openGated s.profile s.stores second } = s
  rw [hscreen]

/-- Opening a screen leaves it so, if no save reaches a node. -/
theorem opened_openScreen (hp : s.profile.IsValid) (hstable : ∀ n, s.profile.Reads n → Stable s.stores n) :
    s.openScreen.Opened := by
  refine ⟨fun key node kind (hb : s.profile.boundNode? key = _) => ?_,
    fun key (hb : s.profile.boundNode? key = none) => ?_⟩
  · obtain ⟨t, hsaves, -, hcontrol, hvalue⟩ := openScreen_bound hp hb
    rw [value_openBound] at hvalue
    have hn : s.profile.Reads node := .inl ⟨key, kind, hb⟩
    have htoken : Node.token? s.openScreen.stores.disk node = Node.token? t.disk node :=
      (hstable node hn _ (saves_opened s)).trans (hstable node hn t hsaves).symm
    refine ⟨hcontrol.trans (congrArg some (openBound_congr htoken fun hnone => ?_).symm), fun token hnode => ?_⟩
    · rw [hvalue, hnone]
      rfl
    · rw [hvalue, ← htoken, hnode]
      rfl
  · obtain ⟨hnone, -⟩ := opened_of_unbound hb
    show (openGated s.profile s.opened.2 s.opened.1).get? key = _
    rw [get?_openGated, hnone, Option.none_or]
    rfl

/-- It stays so as long as the nodes hold the same. -/
theorem Opened.withDevice (h : s.Opened) {d : Device}
    (hd : ∀ n, s.profile.Reads n → Node.token? d.disk n = Node.token? s.stores.disk n) : (s.withDevice d).Opened := by
  refine ⟨fun key node kind (hb : s.profile.boundNode? key = _) => ?_, h.unbound⟩
  have htoken : Node.token? (s.withDevice d).stores.disk node = Node.token? s.stores.disk node :=
    hd node (.inl ⟨key, kind, hb⟩)
  obtain ⟨hcontrol, hvalue⟩ := h.bound key node kind hb
  refine ⟨hcontrol.trans (congrArg some (openBound_congr htoken fun _ => rfl).symm), fun token hnode => ?_⟩
  exact hvalue token (htoken.symm.trans hnode)

/-! ## resuming again -/

/-- The setting's control is in line with its gate: let in it shows what is stored, shut out it is off. -/
structure InLine (key : Key) (s : Session) : Prop where
  opened : ∀ c, Gate.isOpen? s.profile.buttons.gates s.stores.disk key = some true → s.screen.get? key = some c →
    c.enabled = true ∧ c.checked = s.stores.isOn key ∧ s.stores.pending.get? key = none
  closed : ∀ c, Gate.isOpen? s.profile.buttons.gates s.stores.disk key = some false → s.screen.get? key = some c →
    c.enabled = false ∧ c.checked = false ∧ s.stores.isOn key = false

theorem InLine.reconcile_eq (h : s.InLine key) : s.reconcile key = s := by
  rcases reconcile_cases s key with heq | ⟨isOpen, c, hopen, hc, heq⟩
  · exact heq
  · cases isOpen with
    | true =>
      obtain ⟨henabled, hchecked, hnone⟩ := h.opened c hopen hc
      rw [heq, Gate.reconcile_true_of henabled hchecked hnone, Screen.set_of_get? hc]
    | false =>
      obtain ⟨henabled, hchecked, hoff⟩ := h.closed c hopen hc
      rw [heq, Gate.reconcile_false_of henabled hchecked hoff, Screen.set_of_get? hc]

theorem foldl_reconcile_of_inLine {ks : List Key} (h : ∀ key ∈ ks, s.InLine key) : ks.foldl reconcile s = s := by
  induction ks with
  | nil => rfl
  | cons k ks ih =>
    obtain ⟨hk, hks⟩ := List.forall_mem_cons.mp h
    rw [List.foldl_cons, hk.reconcile_eq, ih hks]

theorem InLine.of_agreeAt (h : s.InLine key) (ha : AgreeAt key s t)
    (hgate : Gate.isOpen? t.profile.buttons.gates t.stores.disk key
      = Gate.isOpen? s.profile.buttons.gates s.stores.disk key) : t.InLine key := by
  refine ⟨fun c hopen hc => ?_, fun c hclosed hc => ?_⟩
  · obtain ⟨henabled, hchecked, hnone⟩ := h.opened c (hgate.symm.trans hopen) (ha.control.symm.trans hc)
    exact ⟨henabled, hchecked.trans (Stores.isOn_congr ha.value).symm, ha.pending.trans hnone⟩
  · obtain ⟨henabled, hchecked, hoff⟩ := h.closed c (hgate.symm.trans hclosed) (ha.control.symm.trans hc)
    exact ⟨henabled, hchecked, (Stores.isOn_congr ha.value).trans hoff⟩

section
variable {found : Option Bool}

theorem SteadyGate.isOpen?_reconcile (h : s.SteadyGate key found) (k : Key) :
    Gate.isOpen? (s.reconcile k).profile.buttons.gates (s.reconcile k).stores.disk key
      = Gate.isOpen? s.profile.buttons.gates s.stores.disk key := by
  rw [profile_reconcile, h _ (saves_reconcile s k), h _ .refl]

theorem inLine_reconcile (h : s.SteadyGate key found) : (s.reconcile key).InLine key := by
  have hgate := h.isOpen?_reconcile key
  have hbefore {c : Control} (hc : (s.reconcile key).screen.get? key = some c) :
      ∃ c₀, s.screen.get? key = some c₀ := by
    rcases reconcile_cases s key with heq | ⟨-, c₀, -, hc₀, -⟩
    · exact ⟨c, heq ▸ hc⟩
    · exact ⟨c₀, hc₀⟩
  refine ⟨fun c hopen hc => ?_, fun c hclosed hc => ?_⟩
  · obtain ⟨c₀, hc₀⟩ := hbefore hc
    obtain ⟨hcontrol, hnone, hon, -⟩ := reconcile_open (hgate.symm.trans hopen) hc₀
    obtain rfl := Option.some.inj (hcontrol.symm.trans hc)
    exact ⟨rfl, hon.symm, hnone⟩
  · obtain ⟨c₀, hc₀⟩ := hbefore hc
    obtain ⟨hcontrol, -, hoff, -⟩ := reconcile_closed (hgate.symm.trans hclosed) hc₀
    obtain rfl := Option.some.inj (hcontrol.symm.trans hc)
    exact ⟨rfl, rfl, hoff⟩

theorem InLine.again (h : s.InLine key) (hgate : s.SteadyGate key found) (k : Key) : (s.reconcile k).InLine key := by
  by_cases hk : key = k
  · subst hk
    rw [h.reconcile_eq]
    exact h
  · exact h.of_agreeAt (agreeAt_reconcile hk) (hgate.isOpen?_reconcile k)

theorem InLine.foldl (h : s.InLine key) (hgate : s.SteadyGate key found) (ks : List Key) :
    (ks.foldl reconcile s).InLine key := by
  induction ks generalizing s with
  | nil => exact h
  | cons k ks ih => exact ih (h.again hgate k) (hgate.of_saves (profile_reconcile s k) (saves_reconcile s k))

/-- Whose turn comes is in line from then on. -/
theorem inLine_foldl (hgate : s.SteadyGate key found) {ks : List Key} (hk : key ∈ ks) :
    (ks.foldl reconcile s).InLine key := by
  induction ks generalizing s with
  | nil => cases hk
  | cons k ks ih =>
    have hnext : (s.reconcile k).SteadyGate key found := hgate.of_saves (profile_reconcile s k) (saves_reconcile s k)
    rcases List.mem_cons.mp hk with rfl | hk
    · exact (inLine_reconcile hgate).foldl hnext ks
    · exact ih hnext hk

/-! ## in any order -/

/-- What is agreed about a setting decides what a look at its gate makes of it. -/
theorem AgreeAt.reconcile (h : AgreeAt key s t)
    (hgate : Gate.isOpen? t.profile.buttons.gates t.stores.disk key
      = Gate.isOpen? s.profile.buttons.gates s.stores.disk key) : AgreeAt key (s.reconcile key) (t.reconcile key) := by
  rcases reconcile_alike hgate h.control with ⟨hs, ht⟩ | ⟨isOpen, c, hs, ht⟩ <;> rw [hs, ht]
  · exact h
  · obtain ⟨-, hcontrol, hown⟩ := Gate.reconcile_local isOpen c (s := s.stores) (t := t.stores) ⟨h.value, h.pending⟩
    refine ⟨?_, hown.value, hown.pending⟩
    show (t.screen.set key _).get? key = (s.screen.set key _).get? key
    rw [Screen.get?_set, Screen.get?_set, if_pos (Eq.refl key), if_pos (Eq.refl key), hcontrol]

/-- Looks at gates in a row do to a setting what the look at its own gate does. -/
theorem agreeAt_foldl_reconcile (hgate : s.SteadyGate key found) {ks : List Key} (hks : ks.Nodup) (hk : key ∈ ks) :
    AgreeAt key (s.reconcile key) (ks.foldl reconcile s) := by
  induction ks generalizing s with
  | nil => cases hk
  | cons k ks ih =>
    obtain ⟨hnot, hks⟩ := List.nodup_cons.mp hks
    rw [List.foldl_cons]
    by_cases heq : key = k
    · subst heq
      exact agreeAt_foldl hnot _
    · -- the look at the other gate comes first and changes nothing for this one
      have hfirst : AgreeAt key (s.reconcile key) ((s.reconcile k).reconcile key) :=
        (agreeAt_reconcile heq).reconcile (hgate.isOpen?_reconcile k)
      exact hfirst.trans (ih (hgate.of_saves (profile_reconcile s k) (saves_reconcile s k)) hks
        (List.mem_of_ne_of_mem heq hk))

end

theorem agreeAt_foldl_perm (hgates : ∀ key, ∃ found, s.SteadyGate key found) {ks js : List Key} (hks : ks.Nodup)
    (h : js.Perm ks) (key : Key) : AgreeAt key (ks.foldl reconcile s) (js.foldl reconcile s) := by
  obtain ⟨found, hgate⟩ := hgates key
  by_cases hk : key ∈ ks
  · exact (agreeAt_foldl_reconcile hgate hks hk).symm.trans
      (agreeAt_foldl_reconcile hgate (h.nodup_iff.mpr hks) (h.mem_iff.mpr hk))
  · exact (agreeAt_foldl hk s).symm.trans (agreeAt_foldl (fun hj => hk (h.mem_iff.mp hj)) s)

/-- **Opening a screen and resuming it are idempotent**, whatever is stored and pending.  As long as the nodes hold
what they held after the first call, the calls after it leave the whole session as it is, and whatever device it is
on: they take no step, and so save nothing.  In whatever order the gates are looked at, resuming shows, stores and
keeps pending the same. -/
theorem repeats (hp : s.profile.IsValid) (ht : s.stores.disk.IsTree) (hr : s.profile.OutOfReach s.stores) :
    (∀ d n, (∀ node, s.profile.Reads node → Node.token? d.disk node = Node.token? s.openScreen.stores.disk node) →
        openScreen^[n] (s.openScreen.withDevice d) = s.openScreen.withDevice d)
      ∧ (∀ d n, (∀ node, s.profile.Reads node → Node.token? d.disk node = Node.token? s.resume.stores.disk node) →
        resume^[n] (s.resume.withDevice d) = s.resume.withDevice d)
      ∧ ∀ ks : List Key, ks.Perm s.profile.buttons.gates.keys →
        (ks.foldl reconcile s).screen = s.resume.screen
          ∧ s.resume.stores.SameMemory (ks.foldl reconcile s).stores := by
  have hstable (n : Path) (hn : s.profile.Reads n) : Stable s.stores n := hr.stable ht hn
  have hgates (key : Key) : s.SteadyGate key (Gate.isOpen? s.profile.buttons.gates s.stores.disk key) :=
    steadyGate fun gate hgate => hstable _ (.inr ⟨key, gate, hgate, rfl⟩)
  refine ⟨fun d n hd => ?_, fun d n hd => ?_, fun ks hks => ?_⟩
  · exact Function.iterate_fixed (((opened_openScreen hp hstable).withDevice hd).openScreen_eq hp) n
  · refine Function.iterate_fixed (foldl_reconcile_of_inLine fun key hk => ?_) n
    have hprofile : s.resume.profile = s.profile := profile_foldl_reconcile _ _
    have hk' : key ∈ s.profile.buttons.gates.keys := hprofile ▸ hk
    have hgate : Gate.isOpen? s.resume.profile.buttons.gates d.disk key
        = Gate.isOpen? s.resume.profile.buttons.gates s.resume.stores.disk key := by
      rw [hprofile]
      exact Gate.isOpen?_congr fun gate hgate => hd _ (.inr ⟨key, gate, hgate, rfl⟩)
    exact (inLine_foldl (hgates key) hk').of_agreeAt (t := s.resume.withDevice d) ⟨rfl, rfl, rfl⟩ hgate
  · have hagree := agreeAt_foldl_perm (fun key => ⟨_, hgates key⟩) (Boot.nodup_keys s.profile.buttons.gates) hks
    exact ⟨Screen.ext_get? fun key => (hagree key).control,
      Stores.SameMemory.of_agreeOn fun key => ⟨(hagree key).value, (hagree key).pending⟩⟩

/-- A switch whose node is the gate of another, with preferences and pending choices on the disk. -/
def gatedBySwitch : Session :=
  start
    { Boot.switchAndText with
      buttons :=
        { switches := .ofList [("s", ⟨"w"⟩)]
          texts := .empty
          gates := .ofList [("d", ⟨⟨"w"⟩, "0"⟩)]
          presence := [] } }
    ⟨⟨some ⟨"p.json"⟩, .ofList [("d", .switch true)], none⟩, ⟨some ⟨"s.json"⟩, .empty⟩, gateDevice (some "1")⟩ .inline

/-- Opening stores what the node holds, and resuming what the gate comes to; after that there is nothing to save. -/
theorem repeats_gatedBySwitch :
    let opened := gatedBySwitch.openScreen
    gatedBySwitch.stores.disk.exists_ ⟨"p.json"⟩ = false ∧ opened.stores.disk.exists_ ⟨"p.json"⟩ = true
      ∧ opened.openScreen = opened
      ∧ opened.stores.disk.exists_ ⟨"s.json"⟩ = false ∧ opened.resume.stores.disk.exists_ ⟨"s.json"⟩ = true
      ∧ opened.resume.resume = opened.resume := by
  intro opened
  have hvalid : gatedBySwitch.profile.IsValid := by decide +kernel
  have htree : gatedBySwitch.stores.disk.IsTree := Disk.isTree_of_entries (by decide +kernel)
  have htree' : opened.stores.disk.IsTree := Disk.isTree_of_entries (by decide +kernel)
  obtain ⟨hopen, -⟩ := repeats hvalid htree (Profile.outOfReach_of_straight (by decide +kernel))
  obtain ⟨-, hresume, -⟩ := repeats (s := opened) hvalid htree' (Profile.outOfReach_of_straight (by decide +kernel))
  exact ⟨by decide +kernel, by decide +kernel, hopen opened.stores.device 1 fun _ _ => rfl, by decide +kernel,
    by decide +kernel, hresume opened.resume.stores.device 1 fun _ _ => rfl⟩

/-- Two switches, the node of the first by a way up out of the directory that the preferences are to be kept in. -/
def wayUp : Session :=
  start
    { Boot.switchAndText with
      buttons :=
        { switches := .ofList [("a", ⟨"m/../w"⟩), ("b", ⟨"x"⟩)]
          texts := .empty
          gates := .empty
          presence := [] } }
    ⟨⟨some ⟨"m/prefs.json"⟩, .empty, none⟩, .inMemory, Boot.nodesDevice []⟩ .inline

/-- Opening its screen for the first time makes the directory, which opens the way to the node: the second time
another screen is shown and another value stored. -/
theorem not_repeats_wayUp :
    wayUp.profile.IsValid ∧ wayUp.stores.disk.IsTree
      ∧ (∀ b ∈ wayUp.profile.bindings, ¬wayUp.stores.disk.Among wayUp.stores.documents (wayUp.stores.disk.placeOf b.2))
      ∧ wayUp.openScreen.openScreen.screen ≠ wayUp.openScreen.screen
      ∧ wayUp.openScreen.openScreen.stores.preferences.get? "a" ≠ wayUp.openScreen.stores.preferences.get? "a" :=
  ⟨by decide +kernel, Disk.isTree_of_entries (by decide +kernel), by decide +kernel, by decide +kernel,
    by decide +kernel⟩

end Session

end DeviceSettings

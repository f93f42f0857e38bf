import DeviceSettings.Proofs.Booting
import DeviceSettings.Proofs.Choices
import DeviceSettings.Proofs.Pocket

/-!
# After a failed write

A value whose node did not take it stays stored, so that booting can write it later, but only until the setting is
given another value.  Opening a screen gives every setting what its node holds: a value that never reached its node
is lost as soon as a screen is opened while the node can be read (`Session.stored_after_failure`).
-/

namespace DeviceSettings

namespace Profile

def NodeKind.control : NodeKind → ControlKind
  | switch => .switch
  | text => .text

/-- No two settings are mirrored to one file. -/
def Distinct (p : Profile) (d : Disk) : Prop :=
  ∀ k k' n n' kind kind', p.boundNode? k = some (n, kind) → p.boundNode? k' = some (n', kind') →
    d.placeOf n = d.placeOf n' → k = k'

variable {p : Profile} {key : Key} {node : Path} {kind : NodeKind} {v : Value} {d : Disk}

theorem Distinct.own (h : p.Distinct d) : p.Own [] d := by
  refine ⟨?_, h⟩
  rintro n - ⟨q, hq, -⟩
  cases hq

theorem suits_value (hb : p.boundNode? key = some (node, kind)) (token : String) :
    p.suits key (kind.value token) = true := by
  rw [suits, hb]
  cases kind <;> rfl

/-- A control takes values of its setting's kind only, and stays what it is. -/
theorem suits_of_showing? {c c' : Control} (hb : p.boundNode? key = some (node, kind)) (hc : c.kind = kind.control)
    (h : c.showing? v = some c') : p.suits key v = true ∧ c'.kind = kind.control := by
  rw [suits, hb]
  cases v with
  | switch on =>
    by_cases hswitch : c.kind = .switch
    · rw [Control.showing?, if_pos hswitch] at h
      rw [hswitch] at hc
      cases kind with
      | switch => exact ⟨rfl, (congrArg Control.kind (Option.some.inj h)).symm.trans hswitch⟩
      | text => cases hc
    · rw [Control.showing?, if_neg hswitch] at h
      cases h
  | text line =>
    by_cases htext : c.kind = .text
    · rw [Control.showing?, if_pos htext] at h
      rw [htext] at hc
      cases kind with
      | switch => cases hc
      | text => exact ⟨rfl, (congrArg Control.kind (Option.some.inj h)).symm.trans htext⟩
    · rw [Control.showing?, if_neg htext] at h
      cases h

end Profile

/-- The value that a control shows while it can be changed. -/
def Control.offered? (c : Control) : Option Value := if c.enabled then c.current? else none

namespace Session

variable {home : Option Path} {p : Profile} {s t : Session} {key : Key} {node : Path} {kind : Profile.NodeKind}
  {v : Value}

/-! ## opening -/

theorem kind_openBound (s : Stores) : (openBound p key node kind s).1.kind = kind.control := by
  rw [control_openBound]
  cases Node.token? s.disk node <;> cases kind <;> rfl

theorem offered_openBound (s : Stores) :
    (openBound p key node kind s).1.offered? = (Node.token? s.disk node).map kind.value := by
  rw [control_openBound]
  cases Node.token? s.disk node <;> cases kind <;> rfl

theorem openScreen_bound (hp : s.profile.IsValid) (hb : s.profile.boundNode? key = some (node, kind)) :
    ∃ t, s.stores.Saves t ∧ t.preferences.get? key = s.stores.preferences.get? key
      ∧ s.openScreen.screen.get? key = some (openBound s.profile key node kind t).1
      ∧ s.openScreen.stores.preferences.get? key
        = (openBound s.profile key node kind t).2.preferences.get? key := by
  obtain ⟨t, hsaves, hsame, hcontrol, hvalue⟩ := opened_turn hp hb
  refine ⟨t, hsaves, hsame, ?_, hvalue⟩
  show (openGated s.profile s.opened.2 s.opened.1).get? key = _
  rw [get?_openGated, hcontrol, Option.some_or]

/-! ## without a gate -/

section
variable (hg : s.profile.buttons.gates.contains key = false)
include hg

theorem agreeAt_reconcile_of_ungated (k : Key) : AgreeAt key s (s.reconcile k) := by
  by_cases hk : key = k
  · subst hk
    rw [reconcile_of_none (Gate.isOpen?_eq_none hg)]
    exact .rfl
  · exact agreeAt_reconcile hk

theorem agreeAt_foldl_of_ungated (ks : List Key) : AgreeAt key s (ks.foldl reconcile s) := by
  induction ks generalizing s with
  | nil => exact .rfl
  | cons k ks ih => exact (agreeAt_reconcile_of_ungated hg k).trans (ih ((profile_reconcile s k).symm ▸ hg))

end

/-- For a setting without a gate a change is what is accepted of it. -/
theorem agreeAt_apply_of_ungated (hg : s.profile.buttons.gates.contains key = false) (k : Key) (v : Value) :
    AgreeAt key (s.accept k v) (s.apply k v).2 := by
  rcases apply_cases s k v with ⟨why, heq⟩ | ⟨c, -, ⟨e, heq⟩ | ⟨-, heq⟩⟩
  · rw [accept_of_none (showing?_of_rejected (congrArg Prod.fst heq)), heq]
    exact .rfl
  · rw [heq]
    exact .rfl
  · rw [heq]
    exact (agreeAt_foldl_of_ungated ((profile_accept s k v).symm ▸ hg) _).trans (agreeAt_checkPocket _ k key)

/-! ## what a setting is given -/

/-- The value that a setting is given by an act: one that is entered for it, or one that its node is found to hold
when the screen is opened. -/
def Act.given? (a : Act) (key : Key) (s : Session) : Option Value :=
  match a with
  | openScreen => (s.openScreen.screen.get? key).bind Control.offered?
  | apply k v | accept k v => if k = key then (s.showing? k v).map fun _ => v else none
  | resume | reconcile _ | deliver | close => none

/-- Steps one after another, with the value that they gave a setting last. -/
inductive History (home : Option Path) (key : Key) (s : Session) : Option Value → Session → Prop
  | refl : History home key s none s
  | step {latest : Option Value} {t u : Session} {a : Option Act} (h : History home key s latest t)
      (hs : Step home t a u) : History home key s ((a.bind fun b => b.given? key t).or latest) u

/-- The setting's control is one for values that its node can hold. -/
def OfKind (key : Key) (kind : Profile.NodeKind) (s : Session) : Prop :=
  ∀ c, s.screen.get? key = some c → c.kind = kind.control

theorem OfKind.of_agreeAt (h : s.OfKind key kind) (ha : AgreeAt key s t) : t.OfKind key kind :=
  fun c hc => h c (ha.control.symm.trans hc)

/-- After a step the setting is stored as it was given, or else as it was, and its control is of its kind. -/
structure StoredAs (key : Key) (kind : Profile.NodeKind) (s : Session) (given : Option Value) (t : Session) : Prop where
  ofKind : t.OfKind key kind
  value : t.stores.preferences.get? key = given.or (s.stores.preferences.get? key)
  suits : ∀ v, given = some v → s.profile.suits key v = true

theorem StoredAs.of_agreeAt (hk : s.OfKind key kind) (ha : AgreeAt key s t) : StoredAs key kind s none t :=
  ⟨hk.of_agreeAt ha, ha.value, fun _ hv => nomatch hv⟩

theorem StoredAs.agreeAt {given : Option Value} {u : Session} (h : StoredAs key kind s given t) (ha : AgreeAt key t u) :
    StoredAs key kind s given u :=
  ⟨h.ofKind.of_agreeAt ha, ha.value.trans h.value, h.suits⟩

theorem storedAs_accept_self (hb : s.profile.boundNode? key = some (node, kind)) (hk : s.OfKind key kind) (v : Value) :
    StoredAs key kind s ((s.showing? key v).map fun _ => v) (s.accept key v) := by
  cases hshowing : s.showing? key v with
  | none =>
    rw [accept_of_none hshowing]
    exact .of_agreeAt hk .rfl
  | some c' =>
    obtain ⟨c, hc, -, hshows⟩ := showing?_eq_some.mp hshowing
    obtain ⟨hsuits, hkind⟩ := Profile.suits_of_showing? hb (hk c hc) hshows
    obtain ⟨hpreferences, -, hscreen⟩ := stores_enter { s with screen := s.screen.set key c' } key v
    rw [accept_of_some hshowing]
    refine ⟨fun c'' hc'' => ?_, ?_, ?_⟩
    · rw [hscreen, Screen.get?_set, if_pos rfl] at hc''
      rw [← Option.some.inj hc'', hkind]
    · rw [hpreferences, Stores.get?_put, if_pos rfl]
      rfl
    · rintro w ⟨⟩
      exact hsuits

theorem storedAs_accept (hb : s.profile.boundNode? key = some (node, kind)) (hk : s.OfKind key kind) (k : Key)
    (v : Value) : StoredAs key kind s ((Act.accept k v).given? key s) (s.accept k v) := by
  rw [Act.given?]
  by_cases hkey : k = key
  · subst hkey
    rw [if_pos rfl]
    exact storedAs_accept_self hb hk v
  · rw [if_neg hkey]
    exact .of_agreeAt hk (agreeAt_accept v fun h => hkey h.symm)

theorem storedAs_openScreen (hp : s.profile.IsValid) (hb : s.profile.boundNode? key = some (node, kind)) :
    StoredAs key kind s (Act.openScreen.given? key s) s.openScreen := by
  obtain ⟨t, -, hvalue, hcontrol, hstored⟩ := openScreen_bound hp hb
  have hgiven : Act.openScreen.given? key s = (Node.token? t.disk node).map kind.value := by
    rw [Act.given?, hcontrol, Option.bind_some, offered_openBound]
  refine ⟨fun c hc => ?_, ?_, fun w hw => ?_⟩
  · rw [hcontrol] at hc
    rw [← Option.some.inj hc, kind_openBound]
  · rw [hgiven, hstored, value_openBound, hvalue]
  · rw [hgiven] at hw
    obtain ⟨token, -, rfl⟩ := Option.map_eq_some_iff.mp hw
    exact Profile.suits_value hb token

theorem storedAs_act (hp : s.profile.IsValid) (hb : s.profile.boundNode? key = some (node, kind))
    (hg : s.profile.buttons.gates.contains key = false) (hk : s.OfKind key kind) (a : Act) :
    StoredAs key kind s (a.given? key s) (a.run s) := by
  cases a with
  | openScreen => exact storedAs_openScreen hp hb
  | resume => exact .of_agreeAt hk (agreeAt_foldl_of_ungated hg _)
  | apply k v => exact (storedAs_accept hb hk k v).agreeAt (agreeAt_apply_of_ungated hg k v)
  | accept k v => exact storedAs_accept hb hk k v
  | reconcile k => exact .of_agreeAt hk (agreeAt_reconcile_of_ungated hg k)
  | deliver => exact .of_agreeAt hk (Act.agreeAt_deliver s key)
  | close => exact .of_agreeAt hk ⟨rfl, rfl, rfl⟩

/-! ## the latest value -/

/-- What holds of a setting with a node all along: the stores last, and its control is of its kind. -/
structure Underway (home : Option Path) (p : Profile) (key : Key) (kind : Profile.NodeKind) (s : Session) : Prop where
  profile : s.profile = p
  lasting : ∀ q, home = some q → s.Lasting q
  ofKind : s.OfKind key kind

theorem Underway.start {stores : Stores} {dispatch : Dispatch}
    (hl : ∀ q, home = some q → (Session.start p stores dispatch).Lasting q) :
    Underway home p key kind (.start p stores dispatch) :=
  ⟨rfl, hl, fun _ hc => nomatch hc⟩

section
variable (hp : p.IsValid) (hb : p.boundNode? key = some (node, kind)) (hg : p.buttons.gates.contains key = false)
include hp hb hg

theorem Underway.step {a : Option Act} (h : Underway home p key kind s) (hs : Step home s a t) :
    Underway home p key kind t
      ∧ t.stores.preferences.get? key = (a.bind fun b => b.given? key s).or (s.stores.preferences.get? key)
      ∧ ∀ w, (a.bind fun b => b.given? key s) = some w → p.suits key w = true := by
  have hlasting (q : Path) (hq : home = some q) : t.Lasting q := by
    subst hq
    exact (h.lasting q rfl).step hs
  have hprofile := hs.profile.trans h.profile
  cases hs with
  | act a hk =>
    rw [← h.profile] at hp hb hg
    obtain ⟨hkind, hvalue, hsuits⟩ := storedAs_act hp hb hg h.ofKind a
    exact ⟨⟨hprofile, hlasting, hkind⟩, hvalue, fun w hw => h.profile ▸ hsuits w hw⟩
  | restart hh ho dispatch =>
    refine ⟨⟨hprofile, hlasting, fun _ hc => nomatch hc⟩, ?_, fun _ hw => nomatch hw⟩
    rw [(h.lasting _ hh).reopened ho]
    rfl
  | outside d hd => exact ⟨⟨hprofile, hlasting, h.ofKind⟩, rfl, fun _ hw => nomatch hw⟩

/-- A setting with a node and without a gate is stored as it was given last. -/
theorem History.stored {latest : Option Value} (h : History home key s latest t) (hs : Underway home p key kind s) :
    Underway home p key kind t
      ∧ t.stores.preferences.get? key = latest.or (s.stores.preferences.get? key)
      ∧ ∀ w, latest = some w → p.suits key w = true := by
  induction h with
  | refl => exact ⟨hs, rfl, fun _ hw => nomatch hw⟩
  | @step latest t u a h hstep ih =>
    obtain ⟨hunder, hvalue, hsuits⟩ := ih
    obtain ⟨hunder', hvalue', hsuits'⟩ := hunder.step hp hb hg hstep
    refine ⟨hunder', ?_, fun w hw => ?_⟩
    · rw [hvalue', hvalue, Option.or_assoc]
    · rcases Option.or_eq_some_iff.mp hw with hw | ⟨-, hw⟩
      · exact hsuits' w hw
      · exact hsuits w hw

end

/-- A value that its node did not take is stored, and of the setting's kind. -/
theorem stored_of_writeFailed {e : DeviceError} (hb : s.profile.boundNode? key = some (node, kind))
    (hk : s.OfKind key kind) (h : (s.apply key v).1 = .writeFailed e) :
    (s.apply key v).2.stores.preferences.get? key = some v ∧ s.profile.suits key v = true := by
  obtain ⟨-, hvalue, hsuits⟩ := storedAs_accept_self hb hk v
  rcases apply_cases s key v with ⟨why, heq⟩ | ⟨c, hc, ⟨e, heq⟩ | ⟨-, heq⟩⟩
  · rw [heq] at h
    cases h
  · rw [heq]
    rw [hc] at hvalue hsuits
    exact ⟨hvalue, hsuits v rfl⟩
  · rw [heq] at h
    cases h

end Session

namespace Boot

variable {p : Profile} {s : Preferences} {c : Components} {d : Device} {key : Key} {node : Path}
  {kind : Profile.NodeKind} {v : Value}

theorem mem_values (h : IsDue p s key node v) : (key, node, v) ∈ values p s := by
  rcases h with ⟨hb, rfl⟩ | ⟨hb, text, htext, rfl⟩
  · have hmem := Table.get?_eq_some_iff.mp (Profile.boundNode?_switch.mp hb)
    exact List.mem_append_left _ (List.mem_map_of_mem (f := fun e => (e.1, e.2, _)) hmem)
  · have hmem := Table.get?_eq_some_iff.mp (Profile.boundNode?_text.mp hb).2
    refine List.mem_append_right _ (List.mem_filterMap.mpr ⟨(key, node), hmem, ?_⟩)
    dsimp only
    rw [htext]
    rfl

theorem isDue_of_stored (hb : p.boundNode? key = some (node, kind)) (hs : s.get? key = some v)
    (hv : p.suits key v = true) : IsDue p s key node v := by
  rw [Profile.suits, hb] at hv
  cases kind with
  | switch =>
    cases v with
    | switch on =>
      refine .inl ⟨hb, ?_⟩
      rw [Preferences.switchOrDefault, Preferences.getSwitch, hs]
      rfl
    | text line => cases hv
  | text =>
    cases v with
    | switch on => cases hv
    | text line =>
      refine .inr ⟨hb, line, ?_, rfl⟩
      rw [Preferences.textOrDefault?, hs]
      rfl

/-- Booting comes to every value that is due, and its node then holds it if it can be written. -/
theorem exists_restored (hp : p.IsValid) (ht : d.disk.IsTree) (hd : p.Distinct d.disk)
    (hb : p.hasButtons d.disk = true) (h : IsDue p s key node v) :
    ∃ before r rest, (run p s c d).1.restored = before ++ r :: rest ∧ r.task = (key, node, v)
      ∧ (Node.isReadable (prepare c d).2.disk node = true → (turn before (prepare c d).2).Lets 2 →
          r.written = true
            ∧ ∃ mode, (run p s c d).2.2.disk.entry node = .ok (.file v.token.toUTF8 mode)) := by
  have hg := grown_prepare c ht
  have hapart : Apart (values p s) (prepare c d).2.disk := (apart_values hp hd.own).congr hg.work
  rw [run_of_hasButtons hb]
  have hmem : (key, node, v) ∈ (restore (values p s) (prepare c d).2).1.map Restored.task := by
    rw [map_task_restore]
    exact mem_values h
  obtain ⟨r, hr, htask⟩ := List.mem_map.mp hmem
  obtain ⟨before, rest, hsplit⟩ := List.append_of_mem hr
  refine ⟨before, r, rest, hsplit, htask, fun hreadable hlets => ?_⟩
  have hnode : r.node = node := congrArg (fun x => x.2.1) htask
  have hvalue : r.value = v := congrArg (fun x => x.2.2) htask
  have hwritten : r.written = true :=
    (written_iff (hg.isTree ht) hapart hsplit).mpr ⟨hnode ▸ hreadable, hlets⟩
  obtain ⟨mode, hentry⟩ := entry_of_written (hg.isTree ht) hapart hsplit hwritten
  rw [hnode, hvalue] at hentry
  exact ⟨hwritten, mode, hentry⟩

end Boot

namespace Session

/-- **A failed write is remembered until the setting is given another value.**  After a change whose node did not
take the value, whatever happens, what is stored is the value that the setting was given last: the value of the
change exactly as long as the setting is given none, or the same.  A preference file holds it, and booting writes its
token when the node can be written. -/
theorem stored_after_failure {home : Option Path} {p : Profile} {stores : Stores} {dispatch : Dispatch}
    {s s' t : Session} {key : Key} {node : Path} {kind : Profile.NodeKind} {v : Value} {e : DeviceError}
    {earlier latest : Option Value} (hp : p.IsValid)
    (hl : ∀ q, home = some q → (start p stores dispatch).Lasting q)
    (hb : p.boundNode? key = some (node, kind)) (hg : p.buttons.gates.contains key = false)
    (hbefore : History home key (start p stores dispatch) earlier s)
    (hs : Step home s (some (.apply key v)) s') (hfail : (s.apply key v).1 = .writeFailed e)
    (hafter : History home key s' latest t) :
    t.stores.preferences.get? key = some (latest.getD v)
      ∧ (t.stores.preferences.get? key = some v ↔ ∀ w, latest = some w → w = v)
      ∧ (∀ q, home = some q → Preferences.openAt q t.stores.disk = .ok t.stores.preferences)
      ∧ ∀ (c : Components) (d : Device), d.disk.IsTree → p.Distinct d.disk → p.hasButtons d.disk = true →
        let start := (Boot.prepare c d).2
        ∃ before r rest, (Boot.run p t.stores.preferences c d).1.restored = before ++ r :: rest
          ∧ r.task = (key, node, latest.getD v)
          ∧ (Node.isReadable start.disk node = true → (Boot.turn before start).Lets 2 →
              r.written = true ∧ ∃ mode, (Boot.run p t.stores.preferences c d).2.2.disk.entry node
                = .ok (.file (latest.getD v).token.toUTF8 mode)) := by
  obtain ⟨hunder, -, -⟩ := hbefore.stored hp hb hg (.start hl)
  obtain ⟨hstored', hsuits'⟩ : s'.stores.preferences.get? key = some v ∧ p.suits key v = true := by
    have hs' : s' = (s.apply key v).2 := by
      cases hs
      rfl
    rw [hs', ← hunder.profile]
    exact stored_of_writeFailed (hunder.profile ▸ hb) hunder.ofKind hfail
  obtain ⟨hend, hstored, hsuits⟩ := hafter.stored hp hb hg (hunder.step hp hb hg hs).1
  rw [hstored'] at hstored
  have hlatest : t.stores.preferences.get? key = some (latest.getD v) ∧ p.suits key (latest.getD v) = true := by
    cases latest with
    | none => exact ⟨hstored, hsuits'⟩
    | some w => exact ⟨hstored, hsuits w rfl⟩
  refine ⟨hlatest.1, ?_, fun q hq => (hend.lasting q hq).synced.opens, fun c d ht hd hbuttons => ?_⟩
  · rw [hlatest.1]
    cases latest with
    | none => simp
    | some w => simp
  · exact Boot.exists_restored hp ht hd hbuttons (Boot.isDue_of_stored hb hlatest.1 hlatest.2)

/-- No save of stores without files fails. -/
theorem isSaved_of_inMemory {nodes : Path → Prop} {s u : Stores} (hs : s.InMemory) (hk : Stores.Kept nodes s u)
    (c : Change) : c.IsSaved u := by
  have hu : u.InMemory := by
    induction hk with
    | refl => exact hs
    | put _ key v _ ih => exact ((Stores.Saves.refl.put key v).inMemory ih).2
    | setAside _ choices _ ih => exact ((Stores.Saves.refl.setAside choices).inMemory ih).2
    | write _ node text _ ih => exact ⟨ih.preferences, ih.pending⟩
  cases c with
  | put key v =>
    show (u.preferences.set key v u.device).1 = .ok ()
    rw [Preferences.set, Preferences.save, hu.preferences]
  | setAside choices =>
    refine ⟨?_, fun _ q hq => ?_⟩
    · rw [Pending.save, hu.pending]
    · rw [hu.pending] at hq
      cases hq
  | write node text => trivial

/-- A session whose switch has its node on a device where the node holds a text. -/
def panelAt (text : String) : Session :=
  start Boot.switchAndText ⟨.inMemory, ⟨none, .empty⟩, gateDevice (some text)⟩ .inline

/-- The node goes missing while the screen shows the switch. -/
def nodeLost : Session := (panelAt "0").openScreen.withDevice (gateDevice none)

/-- The switch is switched on, but not its node; the node is back, and a screen is opened. -/
def nodeBack : Session :=
  ((nodeLost.apply "s" (.switch true)).2.withDevice (gateDevice (some "0"))).openScreen

/-- The switch is stored as off by then: that it was switched on is forgotten before the device boots. -/
theorem stored_after_failure_forgotten :
    (nodeLost.apply "s" (.switch true)).1 = .writeFailed (.nodeMissing ⟨"w"⟩)
      ∧ (nodeLost.apply "s" (.switch true)).2.stores.preferences.get? "s" = some (.switch true)
      ∧ nodeBack.stores.preferences.get? "s" ≠ some (.switch true) := by
  have hfail : (nodeLost.apply "s" (.switch true)).1 = .writeFailed (.nodeMissing ⟨"w"⟩) := by decide +kernel
  have hlasting : ∀ q, none = some q → (panelAt "0").Lasting q := fun _ hq => nomatch hq
  have hopen : Step none (panelAt "0") (some .openScreen) (panelAt "0").openScreen :=
    Act.step .openScreen fun _ c hk => isSaved_of_inMemory ⟨rfl, rfl⟩ hk c
  have hbefore : History none "s" (panelAt "0") _ nodeLost :=
    .step (.step .refl hopen) (.outside (gateDevice none) fun h hh => nomatch hh)
  have hs : Step none nodeLost (some (.apply "s" (.switch true))) (nodeLost.apply "s" (.switch true)).2 :=
    Act.step (.apply "s" (.switch true)) fun _ c hk => isSaved_of_inMemory ⟨by decide +kernel, by decide +kernel⟩ hk c
  have hopen' : Step none ((nodeLost.apply "s" (.switch true)).2.withDevice (gateDevice (some "0")))
      (some .openScreen) nodeBack :=
    Act.step .openScreen fun _ c hk => isSaved_of_inMemory ⟨by decide +kernel, by decide +kernel⟩ hk c
  have hafter : History none "s" (nodeLost.apply "s" (.switch true)).2 _ nodeBack :=
    .step (.step .refl (.outside (gateDevice (some "0")) fun h hh => nomatch hh)) hopen'
  have hbound : Boot.switchAndText.boundNode? "s" = some (⟨"w"⟩, .switch) := by decide +kernel
  have h := stored_after_failure (by decide +kernel) hlasting hbound (by decide +kernel) hbefore hs hfail hafter
  refine ⟨hfail, by decide +kernel, fun hstored => ?_⟩
  have hsame := h.2.1.mp hstored (.switch false) (by decide +kernel)
  cases hsame

end Session

end DeviceSettings

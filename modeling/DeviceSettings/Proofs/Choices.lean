import DeviceSettings.Proofs.Opening

/-!
# Choices last

A setting that no node mirrors has a choice: what is pending for it, or else what is stored.  Gates that close
and open, screens that are opened again and sessions that follow each other move the choice between the store,
the screen and the pending choices, and keep it (`Session.Reachable.choice_step`).
-/

namespace DeviceSettings

open Stores (Kept Synced)

namespace Session

/-! ## the choice of a setting -/

/-- What is pending for a setting, or else what it is stored as. -/
def choice (s : Session) (key : Key) : Bool :=
  match s.stores.pending.get? key with
  | some c => c.prior
  | none => s.stores.preferences.switchOrDefault s.profile key

theorem choice_congr {s t : Session} {key : Key} (hp : t.profile = s.profile)
    (hv : t.stores.preferences.get? key = s.stores.preferences.get? key)
    (hq : t.stores.pending.get? key = s.stores.pending.get? key) : t.choice key = s.choice key := by
  rw [choice, choice, hq, hp, Preferences.switchOrDefault, Preferences.switchOrDefault,
    Preferences.getSwitch, Preferences.getSwitch, hv]

theorem choice_of_pending {s : Session} {key : Key} {c : PendingChoice}
    (h : s.stores.pending.get? key = some c) : s.choice key = c.prior := by
  rw [choice, h]

theorem choice_of_stored {s : Session} {key : Key} {on : Bool} (h : s.stores.pending.get? key = none)
    (hv : s.stores.preferences.get? key = some (.switch on)) : s.choice key = on := by
  rw [choice, h]
  show s.stores.preferences.switchOrDefault s.profile key = on
  rw [Preferences.switchOrDefault, Preferences.getSwitch, hv]
  rfl

/-- How a setting's control, its stored value and what is pending for it hang together. -/
structure Sound (key : Key) (s : Session) : Prop where
  taken : ∀ c, s.stores.pending.get? key = some c → c = .taken
  isSwitch : ∀ c, s.screen.get? key = some c → c.kind = .switch
  shown : ∀ c, s.screen.get? key = some c → c.enabled = true → c.checked = true → s.choice key = true
  stored : ∀ c, s.screen.get? key = some c → s.stores.isOn key = true →
    s.stores.pending.get? key = none → c.enabled = true ∧ c.checked = true

/-- Before its screen is opened a session shows nothing. -/
theorem Sound.started {p : Profile} {s : Stores} {dispatch : Dispatch} {key : Key}
    (h : ∀ c, s.pending.get? key = some c → c = .taken) : (Session.start p s dispatch).Sound key := by
  refine ⟨h, ?_, ?_, ?_⟩ <;>
  · intro c hc
    cases hc

theorem Sound.of_agreeAt {s t : Session} {key : Key} (h : s.Sound key) (hp : t.profile = s.profile)
    (ha : AgreeAt key s t) : t.Sound key := by
  have hchoice : t.choice key = s.choice key := choice_congr hp ha.value ha.pending
  have hon : t.stores.isOn key = s.stores.isOn key := Stores.isOn_congr ha.value
  refine ⟨?_, ?_, ?_, ?_⟩
  · rw [ha.pending]
    exact h.taken
  · rw [ha.control]
    exact h.isSwitch
  · rw [ha.control, hchoice]
    exact h.shown
  · rw [ha.control, hon, ha.pending]
    exact h.stored

/-! ## through a gate -/

/-- What comes back is the choice, if what is pending was taken from a switch that was on. -/
theorem Sound.comesBack {s : Session} {key : Key} (h : s.Sound key) :
    (s.stores.pending.get? key = none ∧ s.stores.comesBack key = s.stores.isOn key)
      ∨ (s.stores.pending.get? key = some .taken ∧ s.stores.comesBack key = true ∧ s.choice key = true) := by
  cases hq : s.stores.pending.get? key with
  | none =>
    left
    rw [Stores.comesBack, hq]
    exact ⟨rfl, rfl⟩
  | some c =>
    right
    obtain rfl := h.taken c hq
    rw [Stores.comesBack, hq, choice_of_pending hq]
    exact ⟨rfl, rfl, rfl⟩

theorem Sound.letIn {s : Session} {key : Key} {c : Control} (h : s.Sound key)
    (hopen : Gate.isOpen? s.profile.buttons.gates s.stores.disk key = some true)
    (hc : s.screen.get? key = some c) :
    (s.reconcile key).Sound key ∧ (s.reconcile key).choice key = s.choice key := by
  obtain ⟨hcontrol, hpending, hon, hvalue⟩ := reconcile_open hopen hc
  have hchoice : (s.reconcile key).choice key = s.choice key := by
    rcases h.comesBack with ⟨hnone, hback⟩ | ⟨hsome, hback, hchosen⟩
    · refine choice_congr (profile_reconcile s key) ?_ (hpending.trans hnone.symm)
      rw [hvalue, hback, if_neg (by simp)]
    · -- what was pending is stored now
      rw [hchosen]
      refine choice_of_stored hpending ?_
      rw [hvalue, hback]
      split
      · rfl
      · rename_i hon
        exact Stores.get?_of_isOn (by simpa using hon)
  refine ⟨⟨?_, ?_, ?_, ?_⟩, hchoice⟩
  · intro d hd
    rw [hpending] at hd
    cases hd
  · intro d hd
    rw [hcontrol] at hd
    cases hd
    exact h.isSwitch c hc
  · intro d hd _ hchecked
    rw [hcontrol] at hd
    cases hd
    have hback : s.stores.comesBack key = true := hchecked
    exact choice_of_stored hpending (Stores.get?_of_isOn (hon.trans hback))
  · intro d hd hd' _
    rw [hcontrol] at hd
    cases hd
    exact ⟨rfl, hon.symm.trans hd'⟩

theorem Sound.shutOut {s : Session} {key : Key} {c : Control} (h : s.Sound key)
    (hclosed : Gate.isOpen? s.profile.buttons.gates s.stores.disk key = some false)
    (hc : s.screen.get? key = some c) :
    (s.reconcile key).Sound key ∧ (s.reconcile key).choice key = s.choice key := by
  obtain ⟨hcontrol, hpending, hoff, hvalue⟩ := reconcile_closed hclosed hc
  have hchoice : (s.reconcile key).choice key = s.choice key := by
    by_cases hshown : c.enabled = true ∧ c.checked = true
    · rw [if_pos hshown] at hpending
      rw [choice_of_pending hpending, h.shown c hc hshown.1 hshown.2]
      rfl
    · rw [if_neg hshown] at hpending
      cases hq : s.stores.pending.get? key with
      | some p =>
        rw [hq] at hpending
        rw [choice_of_pending hpending, choice_of_pending hq]
      | none =>
        -- nothing is pending and the control does not show it, so it is not stored either
        have hon : ¬s.stores.isOn key = true := fun hon => hshown (h.stored c hc hon hq)
        rw [if_neg hon] at hvalue
        exact choice_congr (profile_reconcile s key) hvalue hpending
  refine ⟨⟨?_, ?_, ?_, ?_⟩, hchoice⟩
  · intro p hp
    rw [hpending] at hp
    split at hp
    · cases hp
      rfl
    · exact h.taken p hp
  · intro d hd
    rw [hcontrol] at hd
    cases hd
    exact h.isSwitch c hc
  · intro d hd henabled _
    rw [hcontrol] at hd
    cases hd
    cases henabled
  · intro d _ hd _
    rw [hoff] at hd
    cases hd

theorem Sound.reconcile {s : Session} {key : Key} (h : s.Sound key) (k : Key) :
    (s.reconcile k).Sound key ∧ (s.reconcile k).choice key = s.choice key := by
  by_cases hk : key = k
  · subst hk
    rcases reconcile_cases s key with heq | ⟨isOpen, c, hopen, hc, -⟩
    · rw [heq]
      exact ⟨h, rfl⟩
    · cases isOpen with
      | true => exact h.letIn hopen hc
      | false => exact h.shutOut hopen hc
  · have ha := agreeAt_reconcile (s := s) hk
    exact ⟨h.of_agreeAt (profile_reconcile s k) ha, choice_congr (profile_reconcile s k) ha.value ha.pending⟩

theorem Sound.foldl_reconcile {s : Session} {key : Key} (h : s.Sound key) (ks : List Key) :
    (ks.foldl Session.reconcile s).Sound key ∧ (ks.foldl Session.reconcile s).choice key = s.choice key := by
  induction ks generalizing s with
  | nil => exact ⟨h, rfl⟩
  | cons k ks ih =>
    obtain ⟨hsound, hchoice⟩ := h.reconcile k
    obtain ⟨hsound', hchoice'⟩ := ih hsound
    exact ⟨hsound', hchoice'.trans hchoice⟩

/-! ## in use -/

theorem Sound.openScreen {s : Session} {key : Key} (h : s.Sound key)
    (hkey : s.profile.boundNode? key = none) :
    s.openScreen.Sound key ∧ s.openScreen.choice key = s.choice key := by
  obtain ⟨hscreen, hvalue⟩ := opened_of_unbound hkey
  have hpending : s.openScreen.stores.pending.get? key = s.stores.pending.get? key := by
    rw [openScreen_eq]
    show s.opened.2.pending.get? key = _
    rw [pending_opened]
  have hvalue : s.openScreen.stores.preferences.get? key = s.stores.preferences.get? key := hvalue
  have hchoice : s.openScreen.choice key = s.choice key := choice_congr rfl hvalue hpending
  have hcontrol (c : Control) (hc : s.openScreen.screen.get? key = some c) :
      c = .switch key (s.openScreen.stores.preferences.switchOrDefault s.profile key) := by
    rw [openScreen_eq] at hc
    replace hc : (openGated s.profile s.opened.2 s.opened.1).get? key = some c := hc
    rw [get?_openGated, hscreen, Option.none_or] at hc
    split at hc
    · exact (Option.some.inj hc).symm
    · cases hc
  refine ⟨⟨?_, ?_, ?_, ?_⟩, hchoice⟩
  · rw [hpending]
    exact h.taken
  · intro c hc
    rw [hcontrol c hc]
    rfl
  · intro c hc _ hchecked
    rw [hcontrol c hc] at hchecked
    cases hq : s.openScreen.stores.pending.get? key with
    | some p =>
      have htaken := h.taken p (hpending.symm.trans hq)
      rw [choice_of_pending hq, htaken]
      rfl
    | none =>
      rw [choice, hq]
      exact hchecked
  · intro c hc hon _
    rw [hcontrol c hc]
    refine ⟨rfl, ?_⟩
    show Preferences.switchOrDefault _ _ _ = true
    rw [Preferences.switchOrDefault, Preferences.getSwitch, Stores.get?_of_isOn hon]
    rfl

/-- An accepted change is what the setting is stored as and what its control shows. -/
theorem Sound.accepted {s : Session} {key : Key} {v : Value} {c' : Control} (h : s.Sound key)
    (hs : s.showing? key v = some c') : ∃ on, v = .switch on
      ∧ (s.accept key v).stores.preferences.get? key = some (.switch on)
      ∧ (s.accept key v).stores.pending.get? key = s.stores.pending.get? key
      ∧ ∃ c, (s.accept key v).screen.get? key = some c ∧ c.kind = .switch ∧ c.enabled = true
        ∧ c.checked = on := by
  obtain ⟨c, hc, henabled, hshowing⟩ := showing?_eq_some.1 hs
  have hkind := h.isSwitch c hc
  obtain ⟨hvalues, hpending, hscreen⟩ := stores_enter { s with screen := s.screen.set key c' } key v
  cases v with
  | text t =>
    rw [Control.showing?, hkind, if_neg (by decide)] at hshowing
    cases hshowing
  | switch on =>
    rw [Control.showing?, if_pos hkind] at hshowing
    cases hshowing
    rw [accept_of_some hs]
    refine ⟨on, rfl, ?_, ?_, { c with checked := on }, ?_, hkind, henabled, rfl⟩
    · rw [hvalues, Stores.get?_put, if_pos rfl]
    · rw [hpending]
    · rw [hscreen]
      exact (Screen.get?_set s.screen key key _).trans (if_pos rfl)

theorem Sound.accept {s : Session} {key : Key} (h : s.Sound key) (k : Key) (v : Value) :
    (s.accept k v).Sound key := by
  by_cases hk : key = k
  · subst hk
    cases hs : s.showing? key v with
    | none =>
      rw [accept_of_none hs]
      exact h
    | some c' =>
      obtain ⟨on, rfl, hvalue, hpending, c, hc, hkind, henabled, hchecked⟩ := h.accepted hs
      refine ⟨?_, ?_, ?_, ?_⟩
      · rw [hpending]
        exact h.taken
      · intro d hd
        rw [hc] at hd
        cases hd
        exact hkind
      · intro d hd _ hon
        rw [hc] at hd
        cases hd
        rw [hchecked] at hon
        cases hq : s.stores.pending.get? key with
        | some p =>
          rw [hq] at hpending
          rw [choice_of_pending hpending, h.taken p hq]
          rfl
        | none =>
          rw [hq] at hpending
          rw [choice_of_stored hpending hvalue, hon]
      · intro d hd hon _
        rw [hc] at hd
        cases hd
        rw [Stores.isOn_of_get? hvalue] at hon
        exact ⟨henabled, hchecked.trans hon⟩
  · exact h.of_agreeAt (profile_accept s k v) (agreeAt_accept v hk)

theorem Sound.apply {s : Session} {key : Key} (h : s.Sound key) (k : Key) (v : Value) :
    (s.apply k v).2.Sound key ∧ ((s.apply k v).2.choice key = s.choice key
      ∨ (s.apply k v).2.choice key = (s.accept k v).choice key) := by
  rcases apply_cases s k v with ⟨why, heq⟩ | ⟨c, -, ⟨e, heq⟩ | ⟨-, heq⟩⟩
  · rw [heq]
    exact ⟨h, .inl rfl⟩
  · rw [heq]
    exact ⟨h.accept k v, .inr rfl⟩
  · obtain ⟨hsound, hchoice⟩ := (h.accept k v).foldl_reconcile ((s.accept k v).dependents k)
    rw [heq]
    have hp := (checkPocket_same (((s.accept k v).dependents k).foldl Session.reconcile (s.accept k v)) k).1
    have ha := agreeAt_checkPocket (((s.accept k v).dependents k).foldl Session.reconcile (s.accept k v)) k key
    exact ⟨hsound.of_agreeAt hp ha, .inr ((choice_congr hp ha.value ha.pending).trans hchoice)⟩

/-! ## sessions that follow each other -/

/-- What an engine does.  A change and a look at all gates are here whole, and in the parts they are made of. -/
inductive Act
  | openScreen
  | resume
  | apply (key : Key) (v : Value)
  | accept (key : Key) (v : Value)
  | reconcile (key : Key)
  | deliver
  | close

def Act.run (a : Act) (s : Session) : Session :=
  match a with
  | openScreen => s.openScreen
  | resume => s.resume
  | apply key v => (s.apply key v).2
  | accept key v => s.accept key v
  | reconcile key => s.reconcile key
  | deliver => s.deliver
  | close => s.close

/-- The act is a change of the setting, and it is made. -/
def Act.Changes (a : Act) (key : Key) (s : Session) : Prop :=
  match a with
  | apply k v => k = key ∧ (s.apply k v).1 = .applied
  | accept k _ => k = key
  | _ => False

/-- Nobody else changed the documents of a home directory. -/
structure Untouched (home : Path) (d d' : Disk) : Prop where
  hosts : d'.Hosts home
  work : d'.work = d.work
  opens : Preferences.openAt home d' = Preferences.openAt home d
  loads : Pending.beside (some (Home.preferences home)) d' = Pending.beside (some (Home.preferences home)) d

/-- One step of what happens to settings that are kept below a home directory, or only in memory: an act all
of whose saves succeed, a new session, or a change from outside. -/
inductive Step (home : Option Path) (s : Session) : Option Act → Session → Prop
  | act (a : Act) (hk : Kept s.profile.IsNode s.stores (a.run s).stores) : Step home s (some a) (a.run s)
  | restart {h : Path} (hh : home = some h) {preferences : Preferences}
      (ho : Preferences.openAt h s.stores.disk = .ok preferences) (dispatch : Dispatch) :
      Step home s none (.start s.profile
        ⟨preferences, .beside preferences.path s.stores.disk, s.stores.device⟩ dispatch)
  | outside (d : Device) (hd : ∀ h, home = some h → d.clock.IsValid ∧ Untouched h s.stores.disk d.disk) :
      Step home s none { s with stores.device := d }

/-- The files of the stores are no nodes, and hold what the stores do. -/
structure Lasting (home : Path) (s : Session) : Prop where
  synced : s.stores.Synced home
  apart : ∀ n, s.profile.IsNode n → ¬s.stores.disk.IsStore home (s.stores.disk.placeOf n)

/-- The sessions that come about, beginning with stores just opened whose pending choices were taken from
switches that were on. -/
inductive Reachable (home : Option Path) (p : Profile) : Session → Prop
  | start (s : Stores) (dispatch : Dispatch) (hs : ∀ h, home = some h → (Session.start p s dispatch).Lasting h)
      (ht : ∀ k c, s.pending.get? k = some c → c = .taken) : Reachable home p (.start p s dispatch)
  | step {s t : Session} {a : Option Act} (hr : Reachable home p s) (hs : Step home s a t) : Reachable home p t

namespace Act

theorem profile_run (a : Act) (s : Session) : (a.run s).profile = s.profile := by
  cases a with
  | openScreen => rfl
  | resume => exact profile_foldl_reconcile s _
  | apply k v => exact profile_apply s k v
  | accept k v => exact profile_accept s k v
  | reconcile k => exact profile_reconcile s k
  | deliver =>
    show s.deliver.profile = s.profile
    unfold Session.deliver
    split <;> rfl
  | close => rfl

/-- While no save fails every act is a step. -/
theorem step {home : Option Path} {s : Session} (a : Act)
    (hs : ∀ (u : Stores) (c : Change), Kept s.profile.IsNode s.stores u → c.IsSaved u) :
    Step home s (some a) (a.run s) := by
  refine .act a ?_
  cases a with
  | openScreen => exact Kept.refl.saves hs (saves_opened s)
  | resume => exact Kept.refl.saves hs (saves_foldl s _)
  | apply k v => exact kept_apply hs k v
  | accept k v => exact kept_accept hs k v
  | reconcile k => exact Kept.refl.saves hs (saves_reconcile s k)
  | deliver =>
    show Kept _ s.stores s.deliver.stores
    unfold Session.deliver
    split <;> exact .refl
  | close => exact .refl

/-- An act on stores and screen that does nothing to them. -/
theorem agreeAt_deliver (s : Session) (key : Key) : AgreeAt key s s.deliver := by
  unfold Session.deliver
  split
  · exact .rfl
  · exact ⟨rfl, rfl, rfl⟩

/-- An act keeps a setting's parts together, and keeps its choice but for a change of the setting. -/
theorem sound_run {s : Session} {key : Key} (h : s.Sound key) (hkey : s.profile.boundNode? key = none)
    (a : Act) : (a.run s).Sound key ∧ (¬a.Changes key s → (a.run s).choice key = s.choice key) := by
  cases a with
  | openScreen => exact (h.openScreen hkey).imp_right fun heq _ => heq
  | resume => exact (h.foldl_reconcile _).imp_right fun heq _ => heq
  | apply k v =>
    refine ⟨(h.apply k v).1, fun hne => ?_⟩
    by_cases hk : key = k
    · have hrejected : (s.apply k v).2 = s := by
        rcases apply_cases s k v with ⟨why, heq⟩ | ⟨c, -, ⟨e, heq⟩ | ⟨-, heq⟩⟩
        · rw [heq]
        · -- without a node nothing fails
          exact absurd heq (apply_ne_writeFailed (hk ▸ hkey) v e _)
        · exact absurd ⟨hk.symm, by rw [heq]⟩ hne
      show (s.apply k v).2.choice key = _
      rw [hrejected]
    · rcases (h.apply k v).2 with heq | heq
      · exact heq
      · have ha := agreeAt_accept (s := s) v hk
        exact heq.trans (choice_congr (profile_accept s k v) ha.value ha.pending)
  | accept k v =>
    refine ⟨h.accept k v, fun hne => ?_⟩
    have ha : AgreeAt key s (s.accept k v) := agreeAt_accept v fun hk => hne hk.symm
    exact choice_congr (profile_accept s k v) ha.value ha.pending
  | reconcile k => exact (h.reconcile k).imp_right fun heq _ => heq
  | deliver =>
    have ha := agreeAt_deliver s key
    exact ⟨h.of_agreeAt (profile_run .deliver s) ha,
      fun _ => choice_congr (profile_run .deliver s) ha.value ha.pending⟩
  | close => exact ⟨h.of_agreeAt rfl ⟨rfl, rfl, rfl⟩, fun _ => rfl⟩

end Act

/-! ## every step -/

/-- What a new session opens is what the last one left. -/
theorem Lasting.reopened {home : Path} {s : Session} (h : s.Lasting home) {preferences : Preferences}
    (ho : Preferences.openAt home s.stores.disk = .ok preferences) :
    (⟨preferences, .beside preferences.path s.stores.disk, s.stores.device⟩ : Stores) = s.stores := by
  have heq : s.stores.preferences = preferences := Except.ok.inj (h.synced.opens.symm.trans ho)
  have hpending : Pending.beside preferences.path s.stores.disk = s.stores.pending := by
    rw [← heq, h.synced.housed.preferences]
    exact h.synced.loads
  rw [hpending, ← heq]

theorem Lasting.step {home : Path} {s t : Session} {a : Option Act} (h : s.Lasting home)
    (hs : Step (some home) s a t) : t.Lasting home := by
  cases hs with
  | act a hk =>
    obtain ⟨hsynced, hwork⟩ := hk.synced h.synced h.apart
    refine ⟨hsynced, ?_⟩
    rw [Act.profile_run]
    intro n hn hstore
    rw [Disk.isStore_congr hwork, Disk.placeOf_congr hwork] at hstore
    exact h.apart n hn hstore
  | restart hh ho dispatch =>
    cases hh
    rw [h.reopened ho]
    exact ⟨h.synced, h.apart⟩
  | outside d hd =>
    obtain ⟨hclock, hun⟩ := hd home rfl
    refine ⟨⟨hun.hosts, hclock, hun.opens.trans h.synced.opens, hun.loads.trans h.synced.loads⟩, ?_⟩
    intro n hn hstore
    replace hstore : d.disk.IsStore home (d.disk.placeOf n) := hstore
    rw [Disk.isStore_congr hun.work, Disk.placeOf_congr hun.work] at hstore
    exact h.apart n hn hstore

theorem Step.profile {home : Option Path} {s t : Session} {a : Option Act} (hs : Step home s a t) :
    t.profile = s.profile := by
  cases hs with
  | act a hk => exact Act.profile_run a s
  | restart hh ho dispatch => rfl
  | outside d hd => rfl

/-- A step keeps a setting's parts together, and keeps its choice but for a change of the setting. -/
theorem Sound.step {home : Option Path} {s t : Session} {a : Option Act} {key : Key} (h : s.Sound key)
    (hl : ∀ p, home = some p → s.Lasting p) (hkey : s.profile.boundNode? key = none)
    (hs : Step home s a t) :
    t.Sound key ∧ ((∀ b, a = some b → ¬b.Changes key s) → t.choice key = s.choice key) := by
  cases hs with
  | act a hk =>
    obtain ⟨hsound, hchoice⟩ := Act.sound_run h hkey a
    exact ⟨hsound, fun hne => hchoice (hne a rfl)⟩
  | restart hh ho dispatch =>
    rw [(hl _ hh).reopened ho]
    exact ⟨.started h.taken, fun _ => rfl⟩
  | outside d hd => exact ⟨h.of_agreeAt rfl ⟨rfl, rfl, rfl⟩, fun _ => rfl⟩

namespace Reachable

variable {home : Option Path} {p : Profile} {s t : Session} {a : Option Act}

theorem profile (h : Reachable home p s) : s.profile = p := by
  induction h with
  | start s dispatch hs ht => rfl
  | step _ hs ih => exact hs.profile.trans ih

theorem lasting (h : Reachable home p s) {q : Path} (hq : home = some q) : s.Lasting q := by
  induction h with
  | start s dispatch hs ht => exact hs q hq
  | step _ hs ih =>
    subst hq
    exact ih.step hs

theorem sound (h : Reachable home p s) {key : Key} (hkey : p.boundNode? key = none) : s.Sound key := by
  induction h with
  | start s dispatch hs ht => exact .started (ht key)
  | step hr hs ih => exact (ih.step (fun _ hq => hr.lasting hq) (hr.profile ▸ hkey) hs).1

/-- **Choices last.**  No step but a change of the setting changes its choice, and a new session can always
be opened. -/
theorem choice_step (h : Reachable home p s) {key : Key} (hkey : p.boundNode? key = none)
    (hs : Step home s a t) (hne : ∀ b, a = some b → ¬b.Changes key s) :
    t.choice key = s.choice key
      ∧ ∀ q, home = some q → Preferences.openAt q t.stores.disk = .ok t.stores.preferences := by
  have hsound := h.sound hkey
  refine ⟨(hsound.step (fun _ hq => h.lasting hq) (h.profile ▸ hkey) hs).2 hne, fun q hq => ?_⟩
  exact ((h.step hs).lasting hq).synced.opens

end Reachable

/-- A switch behind a gate. -/
def behindGate : Profile :=
  { Profile.builtin with buttons := { Buttons.standard with gates := .ofList [("d", ⟨⟨"w"⟩, "1"⟩)] } }

/-- Two switches behind gates, of which the second is on unless it is stored. -/
def twoGates : Profile :=
  { behindGate with
    buttons := { Buttons.standard with gates := .ofList [("d", ⟨⟨"g"⟩, "1"⟩), ("e", ⟨⟨"w"⟩, "1"⟩)] }
    defaults := .ofList [("e", .switch true)] }

def savedValues : Table Key Value := .ofList [("d", .switch true)]

/-- Preferences that were saved earlier stand below `h`; the gate of the second switch is closed. -/
def savedBefore : Device :=
  ⟨⟨.ofList [(["h"], .directory Disk.directoryMode), (["h", ".parts"], .directory Disk.directoryMode),
      (["h", ".parts", "prefs.json"],
        .file (Preferences.print Preferences.Use.midday savedValues).toUTF8 Device.privateMode),
      (["w"], .file "0".toUTF8 Disk.fileMode)], []⟩, Preferences.Use.midday, []⟩

/-- The screen of a session below a home directory. -/
def openedAt (home : Path) (preferences : Preferences) : Session :=
  (start twoGates ⟨preferences, ⟨some (Home.pending home), .empty⟩, savedBefore⟩ .inline).openScreen

/-- The second switch is shut out. -/
theorem stores_resume_openedAt {home : Path} {preferences : Preferences}
    (h : preferences.get? "e" = none) :
    (openedAt home preferences).resume.stores
      = (openedAt home preferences).stores.setPending ⟨some (Home.pending home), .ofList [("e", .taken)]⟩ := by
  have hd : Gate.isOpen? twoGates.buttons.gates savedBefore.disk "d" = none := by decide +kernel
  have he : Gate.isOpen? twoGates.buttons.gates savedBefore.disk "e" = some false := by decide +kernel
  have hkeys : (openedAt home preferences).profile.buttons.gates.keys = ["d", "e"] := rfl
  have hfirst : (openedAt home preferences).reconcile "d" = openedAt home preferences := by
    unfold reconcile
    rw [show Gate.isOpen? (openedAt home preferences).profile.buttons.gates
      (openedAt home preferences).stores.disk "d" = none from hd]
  have hc : (openedAt home preferences).screen.get? "e" = some (.switch "e" true) := by
    have hcontrol := get?_openGated twoGates ⟨preferences, ⟨some (Home.pending home), .empty⟩, savedBefore⟩
      .empty "e"
    rw [Preferences.switchOrDefault, Preferences.getSwitch, h] at hcontrol
    exact hcontrol
  have hoff : preferences.getSwitch "e" false = false := by
    rw [Preferences.getSwitch, h]
    rfl
  rw [resume, hkeys, List.foldl_cons, List.foldl_cons, List.foldl_nil, hfirst, reconcile_of_isOpen he hc]
  show (Gate.shutOut "e" (.switch "e" true) (openedAt home preferences).stores).2 = _
  rw [Gate.shutOut]
  show (if preferences.getSwitch "e" false then _ else _) = _
  rw [hoff]
  rfl

theorem kept_resume_openedAt {home : Path} {preferences : Preferences} (h : preferences.get? "e" = none)
    (hs : (Pending.save ⟨some (Home.pending home), .ofList [("e", .taken)]⟩ savedBefore).1 = .ok ()) :
    Kept twoGates.IsNode (openedAt home preferences).stores (openedAt home preferences).resume.stores := by
  rw [stores_resume_openedAt h]
  exact .setAside .refl (.ofList [("e", .taken)]) ⟨hs, fun he p hp => by cases he⟩

theorem isTree_savedBefore : savedBefore.disk.IsTree := Disk.isTree_of_entries (by decide +kernel)

/-- The choice of the switch that was shut out is what a new session finds. -/
theorem choice_step_restarted :
    let s := (openedAt ⟨"h"⟩ ⟨some (Home.preferences ⟨"h"⟩), savedValues, some Preferences.Use.midday⟩).resume
    (start s.profile s.stores .deferred).choice "e" = s.choice "e" := by
  intro s
  have hopens : Preferences.openAt ⟨"h"⟩ savedBefore.disk
      = .ok ⟨some (Home.preferences ⟨"h"⟩), savedValues, some Preferences.Use.midday⟩ :=
    Preferences.openFile_of_entry Preferences.Use.isValid_midday rfl
  have hhosts : savedBefore.disk.Hosts ⟨"h"⟩ :=
    ⟨isTree_savedBefore, fun x hx => by cases hx⟩
  have hstart : Reachable (some ⟨"h"⟩) twoGates (start twoGates
      ⟨⟨some (Home.preferences ⟨"h"⟩), savedValues, some Preferences.Use.midday⟩,
        ⟨some (Home.pending ⟨"h"⟩), .empty⟩, savedBefore⟩ .inline) := by
    refine .start _ _ (fun q hq => ?_) fun k c hc => by cases hc
    cases hq
    refine ⟨⟨hhosts, Preferences.Use.isValid_midday, hopens, Pending.beside_of_load (Pending.loadFile_of_absent (by decide +kernel))⟩, ?_⟩
    rintro n ⟨key, kind, hn⟩
    cases hn
  have hopened : Reachable (some ⟨"h"⟩) twoGates
      (openedAt ⟨"h"⟩ ⟨some (Home.preferences ⟨"h"⟩), savedValues, some Preferences.Use.midday⟩) :=
    hstart.step (.act .openScreen .refl)
  have hs : Reachable (some ⟨"h"⟩) twoGates s :=
    hopened.step (.act .resume (kept_resume_openedAt rfl (ok_of_toBool (by decide +kernel))))
  have hlast := (hs.lasting rfl).synced.opens
  have hstep := Step.restart rfl hlast .deferred
  rw [(hs.lasting rfl).reopened hlast] at hstep
  exact (Reachable.choice_step hs rfl hstep fun b hb => by cases hb).1

/-- A home directory may be spelled by way of a directory that is missing.  The save that makes it brings to
light what was saved there earlier, and the choice of a setting that nobody changed is another. -/
theorem choice_changed_above :
    let home : Path := ⟨"m/../h"⟩
    let s := openedAt home ⟨some (Home.preferences home), .empty, none⟩
    Preferences.openAt home savedBefore.disk = .ok ⟨some (Home.preferences home), .empty, none⟩
      ∧ Pending.beside (some (Home.preferences home)) savedBefore.disk = ⟨some (Home.pending home), .empty⟩
      ∧ Kept twoGates.IsNode s.stores s.resume.stores
      ∧ ∃ preferences, Preferences.openAt home s.resume.stores.disk = .ok preferences
        ∧ (start twoGates ⟨preferences, .beside preferences.path s.resume.stores.disk, s.resume.stores.device⟩
            .inline).choice "d" ≠ s.resume.choice "d" := by
  intro home s
  have hstores : s.resume.stores = s.stores.setPending ⟨some (Home.pending home), .ofList [("e", .taken)]⟩ :=
    stores_resume_openedAt rfl
  have hsave : (Pending.save ⟨some (Home.pending home), .ofList [("e", .taken)]⟩ savedBefore).1 = .ok () :=
    ok_of_toBool (by decide +kernel)
  have hload : Pending.loadFile (Home.pending home) s.resume.stores.disk
      = .ok ⟨some (Home.pending home), .ofList [("e", .taken)]⟩ := by
    have hloaded := @Pending.loadFile_of_saved ⟨some (Home.pending home), .ofList [("e", .taken)]⟩
      (Home.pending home) savedBefore rfl isTree_savedBefore Preferences.Use.isValid_midday hsave fun he =>
        absurd he Bool.false_ne_true
    have hdevice : s.stores.device = savedBefore := rfl
    rw [hstores, Stores.disk_setPending, hdevice]
    exact hloaded
  have hopen : Preferences.openAt home s.resume.stores.disk
      = .ok ⟨some (Home.preferences home), savedValues, some Preferences.Use.midday⟩ := by
    rw [hstores]
    refine @Preferences.openFile_of_entry _ _ _ _ Device.privateMode Preferences.Use.isValid_midday (ok_of_toOption ?_)
    decide +kernel
  have hbefore : s.resume.choice "d" = false := by
    have hvalue : s.resume.stores.preferences.get? "d" = none := by
      rw [hstores]
      rfl
    have hpending : s.resume.stores.pending.get? "d" = none := by
      rw [hstores]
      rfl
    rw [choice, hpending, Preferences.switchOrDefault, Preferences.getSwitch, hvalue,
      show s.resume.profile = twoGates from profile_foldl_reconcile _ _]
    rfl
  refine ⟨Preferences.openFile_of_absent (by decide +kernel),
    Pending.beside_of_load (Pending.loadFile_of_absent (by decide +kernel)),
    kept_resume_openedAt rfl hsave, _, hopen, ?_⟩
  have hafter (q : Pending) (hq : q.get? "d" = none) (d : Device) : (start twoGates
      ⟨⟨some (Home.preferences home), savedValues, some Preferences.Use.midday⟩, q, d⟩ .inline).choice "d" = true :=
    choice_of_stored hq rfl
  have hbeside := Pending.beside_of_load hload
  rw [hbefore, hbeside, hafter _ rfl]
  decide

/-! ## a change and an older choice -/

/-- The setting is stored, and as a switch. -/
def IsStored (s : Session) (key : Key) : Prop := ∃ on, s.stores.preferences.get? key = some (.switch on)

theorem IsStored.of_agreeAt {s t : Session} {key : Key} (h : s.IsStored key) (ha : AgreeAt key s t) :
    t.IsStored key := by
  rw [IsStored, ha.value]
  exact h

theorem IsStored.reconcile {s : Session} {key : Key} (h : s.IsStored key) (k : Key) :
    (s.reconcile k).IsStored key := by
  by_cases hk : key = k
  · subst hk
    rcases reconcile_cases s key with heq | ⟨isOpen, c, hopen, hc, -⟩
    · rw [heq]
      exact h
    · cases isOpen with
      | true =>
        obtain ⟨-, -, -, hvalue⟩ := reconcile_open hopen hc
        rw [IsStored, hvalue]
        split
        · exact ⟨_, rfl⟩
        · exact h
      | false =>
        obtain ⟨-, -, -, hvalue⟩ := reconcile_closed hopen hc
        rw [IsStored, hvalue]
        split
        · exact ⟨_, rfl⟩
        · exact h
  · exact h.of_agreeAt (agreeAt_reconcile hk)

theorem IsStored.foldl_reconcile {s : Session} {key : Key} (h : s.IsStored key) (ks : List Key) :
    (ks.foldl Session.reconcile s).IsStored key := by
  induction ks generalizing s with
  | nil => exact h
  | cons k ks ih => exact ih (h.reconcile k)

theorem IsStored.accept {s : Session} {key : Key} (h : s.IsStored key) (hs : s.Sound key) (k : Key)
    (v : Value) : (s.accept k v).IsStored key := by
  by_cases hk : key = k
  · subst hk
    cases hc : s.showing? key v with
    | none =>
      rw [accept_of_none hc]
      exact h
    | some c' =>
      obtain ⟨on, -, hvalue, -⟩ := hs.accepted hc
      exact ⟨on, hvalue⟩
  · exact h.of_agreeAt (agreeAt_accept v hk)

theorem IsStored.run {s : Session} {key : Key} (h : s.IsStored key) (hs : s.Sound key)
    (hkey : s.profile.boundNode? key = none) (a : Act) : (a.run s).IsStored key := by
  cases a with
  | openScreen =>
    obtain ⟨on, hon⟩ := h
    exact ⟨on, (opened_of_unbound hkey).2.trans hon⟩
  | resume => exact h.foldl_reconcile _
  | apply k v =>
    show (s.apply k v).2.IsStored key
    rcases apply_cases s k v with ⟨why, heq⟩ | ⟨c, -, ⟨e, heq⟩ | ⟨-, heq⟩⟩
    · rw [heq]
      exact h
    · rw [heq]
      exact h.accept hs k v
    · rw [heq]
      exact ((h.accept hs k v).foldl_reconcile _).of_agreeAt (agreeAt_checkPocket _ k key)
  | accept k v => exact h.accept hs k v
  | reconcile k => exact h.reconcile k
  | deliver => exact h.of_agreeAt (Act.agreeAt_deliver s key)
  | close => exact h

/-- Steps none of which is a change of the setting that is made. -/
inductive Undisturbed (home : Option Path) (key : Key) (s : Session) : Session → Prop
  | refl : Undisturbed home key s s
  | step {t u : Session} {a : Option Act} (h : Undisturbed home key s t) (hs : Step home t a u)
      (hne : ∀ b, a = some b → ¬b.Changes key t) : Undisturbed home key s u

section
variable {home : Option Path} {p : Profile} {s t : Session} {key : Key}

theorem Undisturbed.kept (h : Undisturbed home key s t) (hr : Reachable home p s)
    (hkey : p.boundNode? key = none) (hs : s.IsStored key) :
    Reachable home p t ∧ t.choice key = s.choice key ∧ t.IsStored key := by
  induction h with
  | refl => exact ⟨hr, rfl, hs⟩
  | @step t u a h hstep hne ih =>
    obtain ⟨hreach, hchoice, hstored⟩ := ih
    refine ⟨hreach.step hstep, (hreach.choice_step hkey hstep hne).1.trans hchoice, ?_⟩
    cases hstep with
    | act a hk => exact hstored.run (hreach.sound hkey) (hreach.profile ▸ hkey) a
    | restart hh ho dispatch =>
      rw [(hreach.lasting hh).reopened ho]
      exact hstored
    | outside d hd => exact hstored

/-- A change that is made is stored; what was pending before it is pending still. -/
theorem Sound.applied {v : Bool} (h : s.Sound key) (hkey : s.profile.boundNode? key = none)
    (happ : (s.apply key (.switch v)).1 = .applied) :
    (s.apply key (.switch v)).2.stores.preferences.get? key = some (.switch v)
      ∧ (s.apply key (.switch v)).2.stores.pending.get? key = s.stores.pending.get? key := by
  rcases apply_cases s key (.switch v) with ⟨why, heq⟩ | ⟨c, hc, ⟨e, heq⟩ | ⟨-, heq⟩⟩
  · rw [heq] at happ
    cases happ
  · rw [heq] at happ
    cases happ
  · obtain ⟨on, hv, hvalue, hpending, -⟩ := h.accepted hc
    cases hv
    have hnone : (s.accept key (.switch v)).dependents key = [] := by
      rw [dependents, profile_accept, hkey]
    rw [heq, hnone, List.foldl_nil, (checkPocket_same _ key).2.2.1]
    exact ⟨hvalue, hpending⟩

/-- Whoever is enabled after a look at the gate has nothing pending, for the gate is open. -/
theorem pending_of_enabled {isOpen : Bool} {c : Control}
    (hgate : Gate.isOpen? t.profile.buttons.gates t.stores.disk key = some isOpen)
    (hc : (t.reconcile key).screen.get? key = some c) (henabled : c.enabled = true) :
    (t.reconcile key).stores.pending.get? key = none := by
  cases hold : t.screen.get? key with
  | none =>
    have heq : t.reconcile key = t := by rw [reconcile, hgate, hold]
    rw [heq, hold] at hc
    cases hc
  | some c' =>
    cases isOpen with
    | true => exact (reconcile_open hgate hold).2.1
    | false =>
      have hcontrol := (reconcile_closed hgate hold).1
      rw [hc] at hcontrol
      rw [Option.some.inj hcontrol] at henabled
      cases henabled

/-- **A change against an older choice.**  After a change that is made, whatever happens until the next one, a
look at its gate that leaves the setting enabled leaves it stored as it was changed to exactly if nothing was
pending for it then, or it was switched on: a pending choice outlives the change, and comes back over it. -/
theorem stored_after_change {s' : Session} {v : Bool} {c : Control} (hr : Reachable home p s)
    (hkey : p.boundNode? key = none) (hs : Step home s (some (.apply key (.switch v))) s')
    (happ : (s.apply key (.switch v)).1 = .applied) (hrun : Undisturbed home key s' t)
    (hopen : Gate.isOpen? p.buttons.gates t.stores.disk key ≠ none)
    (hc : (t.reconcile key).screen.get? key = some c) (henabled : c.enabled = true) :
    (t.reconcile key).stores.preferences.get? key = some (.switch v)
      ↔ v = true ∨ s.stores.pending.get? key = none := by
  have hsound := hr.sound hkey
  obtain ⟨hvalue, hpending⟩ := hsound.applied (hr.profile ▸ hkey) happ
  have hs' : s' = (s.apply key (.switch v)).2 := by
    cases hs
    rfl
  rw [← hs'] at hvalue hpending
  obtain ⟨hreach, hchoice, -⟩ := hrun.kept (hr.step hs) hkey ⟨v, hvalue⟩
  have hstored := (hrun.kept (hr.step hs) hkey ⟨v, hvalue⟩).2.2.reconcile key
  obtain ⟨on, hon⟩ := hstored
  have hsound' := hreach.sound hkey
  rw [← hreach.profile] at hopen
  obtain ⟨isOpen, hgate⟩ := Option.ne_none_iff_exists'.1 hopen
  have hnone := pending_of_enabled hgate hc henabled
  have hfinal : on = s'.choice key := by
    rw [← choice_of_stored hnone hon, (hsound'.reconcile key).2, hchoice]
  rw [hon, hfinal]
  cases hq : s.stores.pending.get? key with
  | none =>
    rw [choice_of_stored (hpending.trans hq) hvalue]
    simp
  | some q =>
    rw [choice_of_pending (hpending.trans hq), hsound.taken q hq]
    cases v <;> simp [PendingChoice.taken]

end

/-- A device on which the gate's node holds a text, or is missing. -/
def gateDevice (content : Option String) : Device :=
  ⟨⟨.ofList (content.toList.map fun text => (["w"], .file text.toUTF8 Disk.fileMode)), []⟩,
    Preferences.Use.midday, []⟩

def withDevice (s : Session) (d : Device) : Session := { s with stores.device := d }

/-- Its choice was on when it was shut out; then its gate was lost, and its screen opened. -/
def gateLost : Session :=
  (start behindGate ⟨⟨none, .ofList [("d", .switch false)], none⟩, ⟨none, .ofList [("d", .taken)]⟩,
    gateDevice none⟩ .inline).openScreen

theorem reachable_gateLost : Reachable none behindGate gateLost := by
  refine (Reachable.start _ _ (fun h hh => by cases hh) fun k c hc => ?_).step (.act .openScreen .refl)
  replace hc : (if k = "d" then some PendingChoice.taken else none) = some c := hc
  split at hc
  · exact (Option.some.inj hc).symm
  · cases hc

/-- The switch is switched off while its choice is pending, and comes back on. -/
theorem stored_after_change_overridden :
    let t := (gateLost.apply "d" (.switch false)).2.withDevice (gateDevice (some "1"))
    (gateLost.apply "d" (.switch false)).1 = .applied
      ∧ (t.reconcile "d").stores.preferences.get? "d" ≠ some (.switch false) := by
  have hs : Step none gateLost (some (.apply "d" (.switch false))) (gateLost.apply "d" (.switch false)).2 :=
    .act (.apply "d" (.switch false)) (Kept.put .refl "d" (.switch false) rfl)
  have hrun : Undisturbed none "d" (gateLost.apply "d" (.switch false)).2
      ((gateLost.apply "d" (.switch false)).2.withDevice (gateDevice (some "1"))) :=
    .step .refl (.outside (gateDevice (some "1")) fun h hh => by cases hh) fun b hb => by cases hb
  have hcontrol : (((gateLost.apply "d" (.switch false)).2.withDevice (gateDevice (some "1"))).reconcile
      "d").screen.get? "d" = some (.switch "d" true) := by decide +kernel
  have h := stored_after_change reachable_gateLost rfl hs rfl hrun (by decide +kernel) hcontrol rfl
  refine ⟨rfl, fun hstored => ?_⟩
  rcases h.1 hstored with hv | hq
  · cases hv
  · cases hq

end Session

end DeviceSettings

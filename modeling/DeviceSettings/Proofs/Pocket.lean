import DeviceSettings.Proofs.Applying
import DeviceSettings.Proofs.Twins

/-!
# Pocket mode follows the settings

Each change of one of the two settings that decide about pocket mode makes one request, after everything else that
belongs to the change.  No other change moves the two settings if their gates are on no other setting's node
(`Profile.PocketApart`), so the latest request stays the right one (`Session.pocket_follows`).
-/

namespace DeviceSettings

/-- The gates of pocket mode's settings are on nodes that mirror no other setting. -/
def Profile.PocketApart (p : Profile) : Prop :=
  ∀ key gate, p.pocket.watches key = true → p.buttons.gates.get? key = some gate →
    ∀ k node kind, p.boundNode? k = some (node, kind) → gate.node.Same node → p.pocket.watches k = true

/-- The built-in profile gates pocket mode on the node of waking by fingerprint. -/
theorem Profile.pocketApart_builtin : Profile.builtin.PocketApart := by
  have hnodes : ∀ g ∈ Profile.builtin.buttons.gates.entries, ∀ b ∈ Profile.builtin.buttons.switches.entries,
      g.2.node.Same b.2 → Profile.builtin.pocket.watches b.1 = true := by decide +kernel
  intro key gate _ hgate k node kind hb hsame
  unfold Profile.boundNode? at hb
  cases hs : Profile.builtin.buttons.switches.get? k with
  | none =>
    rw [hs] at hb
    cases hb
  | some n =>
    rw [hs] at hb
    cases hb
    exact hnodes _ (Table.get?_eq_some_iff.mp hgate) _ (Table.get?_eq_some_iff.mp hs) hsame

/-- A change of the user's.  What becomes of the screen and the device before it is made is left open. -/
structure Press where
  key : Key
  value : Value
  meanwhile : Screen × Device → Screen × Device

structure Pressed where
  press : Press
  outcome : Outcome
  after : Session

namespace Pressed

/-- A change of one of pocket mode's settings that came through. -/
def Decides (p : Profile) (x : Pressed) : Prop := x.outcome = .applied ∧ p.pocket.watches x.press.key = true

instance (p : Profile) (x : Pressed) : Decidable (x.Decides p) := inferInstanceAs (Decidable (_ ∧ _))

/-- A change of one of pocket mode's settings whose node did not take the value. -/
def Fails (p : Profile) (x : Pressed) : Prop :=
  (∃ e, x.outcome = .writeFailed e) ∧ p.pocket.watches x.press.key = true

end Pressed

namespace Session

/-- What pocket mode is to do as the values are. -/
def due (s : Session) : Request := s.profile.pocket.request s.stores.preferences

def found (s : Session) (c : Press) : Session :=
  let (screen, device) := c.meanwhile (s.screen, s.stores.device)
  { s with screen, stores.device := device }

def press (s : Session) (c : Press) : Pressed :=
  let (outcome, after) := (s.found c).apply c.key c.value
  ⟨c, outcome, after⟩

/-- What comes of changes that are made one after another. -/
def trail (s : Session) : List Press → List Pressed
  | [] => []
  | c :: cs => s.press c :: (s.press c).after.trail cs

def pressAll (s : Session) : List Press → Session
  | [] => s
  | c :: cs => (s.press c).after.pressAll cs

/-! ## one change -/

variable {s : Session}

theorem profile_press (s : Session) (c : Press) : (s.press c).after.profile = s.profile :=
  profile_apply (s.found c) c.key c.value

theorem delivered_press (hs : s.dispatch = .inline) (c : Press) :
    (s.press c).after.dispatch = .inline ∧ (s.press c).after.delivered = s.delivered ++
      if (s.press c).Decides s.profile then
        [s.profile.pocket.request (s.press c).after.stores.preferences]
      else [] :=
  apply_inline (s := s.found c) hs c.key c.value

theorem due_congr {t : Session} (hp : t.profile = s.profile)
    (h : ∀ k, s.profile.pocket.watches k = true →
      t.stores.preferences.get? k = s.stores.preferences.get? k) : t.due = s.due := by
  have hwakeup := Stores.isOn_congr (h s.profile.pocket.wakeup (by simp [PocketKeys.watches]))
  have hpocket := Stores.isOn_congr (h s.profile.pocket.pocketMode (by simp [PocketKeys.watches]))
  unfold Stores.isOn at hwakeup hpocket
  rw [due, due, hp, PocketKeys.request, PocketKeys.request, PocketKeys.decide, PocketKeys.decide, hwakeup, hpocket]

theorem agreeAt_foldl {k : Key} {ks : List Key} (hk : k ∉ ks) (s : Session) :
    AgreeAt k s (ks.foldl reconcile s) := by
  induction ks generalizing s with
  | nil => exact .rfl
  | cons j ks ih =>
    obtain ⟨hj, hks⟩ := not_or.mp (hk ∘ List.mem_cons.mpr)
    exact (agreeAt_reconcile hj).trans (ih hks _)

theorem agreeAt_apply {key k : Key} (hk : k ≠ key) (hd : k ∉ s.dependents key) (v : Value) :
    AgreeAt k s (s.apply key v).2 := by
  rcases apply_cases s key v with ⟨why, heq⟩ | ⟨c, -, ⟨e, heq⟩ | ⟨-, heq⟩⟩ <;> rw [heq]
  · exact .rfl
  · exact agreeAt_accept v hk
  · rw [dependents_accept]
    exact ((agreeAt_accept v hk).trans (agreeAt_foldl hd _)).trans (agreeAt_checkPocket _ key k)

/-- No setting of pocket mode depends on another setting. -/
theorem not_mem_dependents (hp : s.profile.PocketApart) {key k : Key}
    (hkey : s.profile.pocket.watches key = false) (hk : s.profile.pocket.watches k = true) :
    k ∉ s.dependents key := by
  intro hmem
  unfold dependents at hmem
  cases hb : s.profile.boundNode? key with
  | none =>
    rw [hb] at hmem
    cases hmem
  | some b =>
    obtain ⟨node, kind⟩ := b
    rw [hb] at hmem
    obtain ⟨gate, hgate, hsame⟩ := Profile.mem_gatedOn.mp hmem
    rw [hp k gate hk hgate key node kind hb hsame] at hkey
    cases hkey

/-- What pocket mode is to do changes only where a request is made or a node fails. -/
theorem due_press (hp : s.profile.PocketApart) (c : Press) (hd : ¬ (s.press c).Decides s.profile)
    (hf : ¬ (s.press c).Fails s.profile) : (s.press c).after.due = s.due := by
  refine due_congr (profile_press s c) fun k hk => ?_
  cases hkey : s.profile.pocket.watches c.key with
  | false =>
    have hne : k ≠ c.key := by
      rintro rfl
      rw [hk] at hkey
      cases hkey
    exact (agreeAt_apply (s := s.found c) hne (not_mem_dependents (s := s.found c) hp hkey hk) c.value).value
  | true =>
    -- a change of pocket mode's own settings can only have been rejected
    rcases apply_cases (s.found c) c.key c.value with ⟨why, heq⟩ | ⟨_, -, ⟨e, heq⟩ | ⟨-, heq⟩⟩
    · show ((s.found c).apply c.key c.value).2.stores.preferences.get? k = _
      rw [heq]
      rfl
    · exact absurd ⟨⟨e, congrArg Prod.fst heq⟩, hkey⟩ hf
    · exact absurd ⟨congrArg Prod.fst heq, hkey⟩ hd

/-- The latest request is the one that is due. -/
def Current (s : Session) : Prop := s.delivered.getLast? = some s.due

theorem current_press (hs : s.dispatch = .inline) {c : Press} (h : (s.press c).Decides s.profile) :
    (s.press c).after.Current := by
  obtain ⟨-, hdelivered⟩ := delivered_press hs c
  rw [Current, hdelivered, if_pos h, List.getLast?_concat, due, profile_press]

theorem Current.press (h : s.Current) (hs : s.dispatch = .inline) (hp : s.profile.PocketApart) {c : Press}
    (hf : ¬ (s.press c).Fails s.profile) : (s.press c).after.Current := by
  by_cases hd : (s.press c).Decides s.profile
  · exact current_press hs hd
  · obtain ⟨-, hdelivered⟩ := delivered_press hs c
    rw [Current, hdelivered, if_neg hd, List.append_nil, due_press hp c hd hf]
    exact h

/-! ## changes in a row -/

theorem Current.pressAll (h : s.Current) (hs : s.dispatch = .inline) (hp : s.profile.PocketApart)
    {cs : List Press} (hf : ∀ x ∈ s.trail cs, ¬ x.Fails s.profile) : (s.pressAll cs).Current := by
  induction cs generalizing s with
  | nil => exact h
  | cons c cs ih =>
    obtain ⟨hfirst, hrest⟩ := List.forall_mem_cons.mp hf
    have hprofile := profile_press s c
    refine ih (h.press hs hp hfirst) (delivered_press hs c).1 (hprofile ▸ hp) ?_
    rw [hprofile]
    exact hrest

theorem profile_pressAll (s : Session) (cs : List Press) : (s.pressAll cs).profile = s.profile := by
  induction cs generalizing s with
  | nil => rfl
  | cons c cs ih => exact (ih _).trans (profile_press s c)

theorem delivered_pressAll (hs : s.dispatch = .inline) (cs : List Press) :
    (s.pressAll cs).delivered
      = s.delivered ++ ((s.trail cs).filter fun x => x.Decides s.profile).map
        fun x => s.profile.pocket.request x.after.stores.preferences := by
  induction cs generalizing s with
  | nil => exact (List.append_nil _).symm
  | cons c cs ih =>
    obtain ⟨hdispatch, hdelivered⟩ := delivered_press hs c
    rw [pressAll, ih hdispatch, hdelivered, trail, profile_press, List.filter_cons, List.append_assoc]
    by_cases hd : (s.press c).Decides s.profile <;> simp [hd]

theorem current_pressAll (hs : s.dispatch = .inline) (hp : s.profile.PocketApart) {cs : List Press}
    {before after : List Pressed} {x : Pressed} (hcut : s.trail cs = before ++ x :: after)
    (hx : x.Decides s.profile) (hf : ∀ y ∈ after, ¬ y.Fails s.profile) : (s.pressAll cs).Current := by
  induction cs generalizing s before with
  | nil => cases before <;> cases hcut
  | cons c cs ih =>
    have hprofile := profile_press s c
    obtain ⟨hdispatch, -⟩ := delivered_press hs c
    rw [← hprofile] at hx hf hp
    cases before with
    | nil =>
      obtain ⟨rfl, hafter⟩ := List.cons.inj hcut
      refine (current_press hs (hprofile ▸ hx)).pressAll hdispatch hp ?_
      rw [hafter]
      exact hf
    | cons b before => exact ih hdispatch hp (List.cons.inj hcut).2 hx hf

/-- **Pocket mode follows the settings.**  Changes of the user's make exactly one request for each change of one
of pocket mode's settings that comes through, in order, each for what the values call for after the change and
everything that depends on it.  Once there has been one, and until a node fails to take one of these settings, the
latest request is what the values call for, whatever else is changed. -/
theorem pocket_follows (s : Session) (hs : s.dispatch = .inline) (hp : s.profile.PocketApart)
    (cs : List Press) :
    (s.pressAll cs).delivered = s.delivered ++
        ((s.trail cs).filter fun x => x.outcome = .applied ∧ s.profile.pocket.watches x.press.key = true).map
          (fun x => ⟨.pocketMode, s.profile.pocket.decide x.after.stores.preferences⟩)
      ∧ ∀ before x after, s.trail cs = before ++ x :: after →
        x.outcome = .applied → s.profile.pocket.watches x.press.key = true →
        (∀ y ∈ after, s.profile.pocket.watches y.press.key = true → ∀ e, y.outcome ≠ .writeFailed e) →
        (s.pressAll cs).delivered.getLast?
          = some ⟨.pocketMode, s.profile.pocket.decide (s.pressAll cs).stores.preferences⟩ := by
  refine ⟨delivered_pressAll hs cs, fun before x after hcut happlied hwatched hf => ?_⟩
  have hcurrent : (s.pressAll cs).Current :=
    current_pressAll hs hp hcut ⟨happlied, hwatched⟩ fun y hy ⟨⟨e, he⟩, hwatches⟩ => hf y hy hwatches e he
  rw [hcurrent, due, profile_pressAll]
  rfl

/-- A device with the node of the fingerprint sensor's wakeup. -/
def sensorDevice : Device :=
  ⟨⟨.ofList [(["sys"], .directory Disk.directoryMode), (["sys", "devices"], .directory Disk.directoryMode),
      (["sys", "devices", "soc"], .directory Disk.directoryMode),
      (["sys", "devices", "soc", "soc:fpc_fpc1020"], .directory Disk.directoryMode),
      (["sys", "devices", "soc", "soc:fpc_fpc1020", "enable_wakeup"], .file "0".toUTF8 Disk.fileMode)], []⟩,
    Preferences.Use.midday, []⟩

/-- Pocket mode was chosen while waking by fingerprint is off. -/
def sensorSession : Session :=
  (start .builtin ⟨⟨none, .ofList [("fp_pocketmode", .switch true)], none⟩, ⟨none, .empty⟩, sensorDevice⟩
    .inline).openScreen

/-- Waking by fingerprint is switched on, and then another setting is tried. -/
theorem pocket_follows_wakeup :
    let cs : List Press := [⟨"fp_wakeup", .switch true, id⟩, ⟨"button_swap", .switch true, id⟩]
    (sensorSession.press ⟨"fp_wakeup", .switch true, id⟩).outcome = .applied
      ∧ (sensorSession.pressAll cs).delivered.getLast?
        = some ⟨.pocketMode, Profile.builtin.pocket.decide (sensorSession.pressAll cs).stores.preferences⟩ := by
  have happlied : (sensorSession.press ⟨"fp_wakeup", .switch true, id⟩).outcome = .applied := by
    decide +kernel
  refine ⟨happlied, (pocket_follows sensorSession rfl Profile.pocketApart_builtin _).2 [] _ _ rfl happlied rfl ?_⟩
  intro y hy hwatched
  rw [List.mem_singleton.mp hy] at hwatched
  cases hwatched

end Session

end DeviceSettings

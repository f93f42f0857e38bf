import DeviceSettings.Doze

/-!
# The ambient display never drifts from its preferences

A change patches a few fields of a few controls, where opening the screen builds all of them.  Both come to the
same: what `DozeKeys.refresh` leaves of a control is `DozeKeys.refreshed`, and that forgets whatever was refreshed
before it.  `Ambient` is a screen in use with its gesture service; `Ambient.follows` is about all of its runs.
-/

namespace DeviceSettings

namespace Preferences

theorem getSwitch_put (s : Preferences) (key k : Key) (on fallback : Bool) (d : Device) :
    (s.put key (.switch on) d).1.getSwitch k fallback = if k = key then on else s.getSwitch k fallback := by
  rw [getSwitch, getSwitch, get?_put]
  split <;> rfl

end Preferences

namespace DozeKeys

/-- No two of the five settings share a key. -/
def Apart (k : DozeKeys) : Prop := [k.enabled, k.alwaysOn, k.pickUp, k.handWave, k.pocket].Nodup

instance (k : DozeKeys) : Decidable k.Apart := inferInstanceAs (Decidable (List.Nodup _))

variable {k : DozeKeys}

theorem Apart.gestures_nodup (h : k.Apart) : k.gestures.Nodup := by
  unfold Apart at h
  unfold gestures
  split <;> simp_all

theorem Apart.alwaysOn_not_mem (h : k.Apart) : k.alwaysOn ∉ k.gestures := by
  unfold Apart at h
  unfold gestures
  split <;> simp_all

theorem Apart.enabled_not_mem (h : k.Apart) : k.enabled ∉ k.gestures := by
  unfold Apart at h
  unfold gestures
  split <;> simp_all

theorem Apart.enabled_ne_alwaysOn (h : k.Apart) : k.enabled ≠ k.alwaysOn := by
  unfold Apart at h
  simp_all

/-! ## the screen, control by control -/

@[simp] theorem get?_adjust (screen : Screen) (key j : Key) (f : Control → Control) :
    (adjust screen key f).get? j = if j = key then (screen.get? j).map f else screen.get? j := by
  unfold adjust
  split
  next c h =>
    rw [Screen.get?_set]
    split
    next hj =>
      rw [hj, h]
      rfl
    next => rfl
  next h =>
    split
    next hj =>
      rw [hj, h]
      rfl
    next => rfl

theorem get?_foldl_adjust {keys : List Key} (h : keys.Nodup) (screen : Screen) (f : Control → Control) (j : Key) :
    (keys.foldl (fun screen key => adjust screen key f) screen).get? j
      = if j ∈ keys then (screen.get? j).map f else screen.get? j := by
  induction keys generalizing screen with
  | nil => simp
  | cons key keys ih =>
    obtain ⟨hkey, hkeys⟩ := List.nodup_cons.mp h
    rw [List.foldl_cons, ih hkeys, get?_adjust]
    by_cases hj : j = key
    · subst hj
      rw [if_neg hkey, if_pos rfl, if_pos List.mem_cons_self]
    · simp [hj]

/-- What refreshing leaves of the control of a setting. -/
def refreshed (k : DozeKeys) (s : Preferences) (j : Key) (c : Control) : Control :=
  if j = k.alwaysOn then { c with enabled := k.isOn s, checked := k.isAlwaysOn s }
  else if j ∈ k.gestures then { c with enabled := k.isOn s && !k.isAlwaysOn s }
  else c

theorem get?_refresh (hk : k.Apart) (s : Preferences) (screen : Screen) (j : Key) :
    (k.refresh s screen).get? j = (screen.get? j).map (k.refreshed s j) := by
  unfold refresh
  rw [get?_foldl_adjust hk.gestures_nodup, get?_adjust]
  unfold refreshed
  by_cases hj : j = k.alwaysOn
  · subst hj
    simp [hk.alwaysOn_not_mem]
  · by_cases hg : j ∈ k.gestures <;> simp [hj, hg]

/-- The control of a setting before the screen is refreshed for the first time. -/
def drafted? (k : DozeKeys) (s : Preferences) (j : Key) : Option Control :=
  if j ∈ k.gestures then some (.switch j (s.getSwitch j false))
  else if k.alwaysOnAvailable ∧ j = k.alwaysOn then some (.switch j false)
  else none

theorem get?_foldl_put (keys : List Key) (screen : Screen) (checked : Key → Bool) (j : Key) :
    (keys.foldl (fun screen key => screen.put (.switch key (checked key))) screen).get? j
      = if j ∈ keys then some (.switch j (checked j)) else screen.get? j := by
  induction keys generalizing screen with
  | nil => simp
  | cons key keys ih =>
    rw [List.foldl_cons, ih, Screen.get?_put]
    by_cases hj : j = key
    · subst hj
      simp [Control.switch]
    · simp [Control.switch, hj]

theorem get?_openScreen (hk : k.Apart) (s : Preferences) (j : Key) :
    (k.openScreen s).get? j = (k.drafted? s j).map (k.refreshed s j) := by
  unfold openScreen drafted?
  rw [get?_refresh hk, get?_foldl_put]
  congr 1
  split
  next => rfl
  next =>
    cases k.alwaysOnAvailable with
    | true =>
      rw [if_pos rfl, Screen.get?_put]
      split
      next hj =>
        rw [if_pos ⟨rfl, hj⟩, hj]
        rfl
      next hj => exact (if_neg fun h => hj h.2).symm
    | false => exact (if_neg fun h => Bool.false_ne_true h.1).symm

/-- Refreshing forgets what an earlier refreshing did. -/
theorem refreshed_refreshed (s t : Preferences) (j : Key) (c : Control) :
    k.refreshed t j (k.refreshed s j c) = k.refreshed t j c := by
  unfold refreshed
  split
  next => rfl
  next => split <;> rfl

/-! ## what a change does to the screen -/

/-- A change of settings that no control shows is shown by refreshing. -/
theorem refresh_openScreen (hk : k.Apart) {s t : Preferences}
    (h : ∀ g ∈ k.gestures, t.getSwitch g false = s.getSwitch g false) :
    k.refresh t (k.openScreen s) = k.openScreen t := by
  refine Screen.ext_get? fun j => ?_
  have hdraft : k.drafted? t j = k.drafted? s j := by
    unfold drafted?
    split
    next hg => rw [h j hg]
    next => rfl
  rw [get?_refresh hk, get?_openScreen hk, get?_openScreen hk, hdraft, Option.map_map]
  exact congrArg (Option.map · _) (funext (refreshed_refreshed s t j))

/-- A switch that is given its new position is shown by refreshing the rest. -/
theorem refresh_set (hk : k.Apart) (s : Preferences) {key : Key} {c : Control}
    (hc : (k.openScreen s).get? key = some c) (on : Bool) (d : Device) :
    k.refresh (s.put key (.switch on) d).1 ((k.openScreen s).set key { c with checked := on })
      = k.openScreen (s.put key (.switch on) d).1 := by
  refine Screen.ext_get? fun j => ?_
  rw [get?_refresh hk, get?_openScreen hk, Screen.get?_set]
  by_cases hj : j = key
  · subst hj
    rw [get?_openScreen hk] at hc
    rw [if_pos rfl]
    unfold drafted? at hc ⊢
    rw [Preferences.getSwitch_put, if_pos rfl]
    by_cases hg : j ∈ k.gestures
    · -- the control of a gesture: its position is new, and the rest is refreshed
      have hne : j ≠ k.alwaysOn := fun h => hk.alwaysOn_not_mem (h ▸ hg)
      rw [if_pos hg] at hc
      obtain rfl := Option.some.inj hc
      simp [refreshed, hne, hg, Control.switch]
    · -- always-on: refreshing decides its position too
      rw [if_neg hg] at hc
      by_cases ha : k.alwaysOnAvailable ∧ j = k.alwaysOn
      · rw [if_pos ha] at hc
        obtain rfl := Option.some.inj hc
        simp [refreshed, ha.1, ha.2, hk.alwaysOn_not_mem, Control.switch]
      · rw [if_neg ha] at hc
        cases hc
  · have hdraft : k.drafted? (s.put key (.switch on) d).1 j = k.drafted? s j := by
      unfold drafted?
      rw [Preferences.getSwitch_put, if_neg hj]
    rw [if_neg hj, get?_openScreen hk, hdraft, Option.map_map]
    exact congrArg (Option.map · _) (funext (refreshed_refreshed s _ j))

/-! ## one change -/

/-- What the user does. -/
inductive Act
  | turn (on : Bool)
  | switch (key : Key) (on : Bool)
deriving DecidableEq

/-- What comes of it, and the request that is made. -/
def act (k : DozeKeys) : Act → DozeState → Outcome × Option Request × DozeState
  | .turn on, d =>
    let (r, d) := k.turn on d
    (.applied, some r, d)
  | .switch key on, d => k.switch key on d

/-- The screen is the one that the preferences open. -/
def InStep (k : DozeKeys) (d : DozeState) : Prop := d.screen = k.openScreen d.preferences

theorem InStep.turn (hk : k.Apart) {d : DozeState} (h : k.InStep d) (on : Bool) : k.InStep (k.turn on d).2 := by
  have hgesture : ∀ g ∈ k.gestures, (k.turn on d).2.preferences.getSwitch g false
      = d.preferences.getSwitch g false := by
    intro g hg
    have henabled : g ≠ k.enabled := fun h => hk.enabled_not_mem (h ▸ hg)
    have halways : g ≠ k.alwaysOn := fun h => hk.alwaysOn_not_mem (h ▸ hg)
    cases on <;> simp [DozeKeys.turn, settle, DozeKeys.put, Preferences.getSwitch_put, henabled, halways]
  have hscreen : (k.turn on d).2.screen = k.refresh (k.turn on d).2.preferences d.screen := by
    cases on <;> rfl
  rw [InStep, hscreen, h]
  exact refresh_openScreen hk hgesture

/-- A switch is rejected, or its control is there and usable. -/
theorem switch_cases (d : DozeState) (key : Key) (on : Bool) :
    (∃ why, k.switch key on d = (.rejected why, none, d))
      ∨ ∃ c, d.screen.get? key = some c ∧ c.enabled = true
        ∧ k.switch key on d = (.applied,
          let (r, d) := k.settle (put { d with screen := d.screen.set key { c with checked := on } } key on)
          (some r, d)) := by
  unfold DozeKeys.switch
  cases hc : d.screen.get? key with
  | none => exact .inl ⟨_, rfl⟩
  | some c =>
    cases he : c.enabled with
    | false => exact .inl ⟨.disabled key, by simp [he]⟩
    | true => exact .inr ⟨c, rfl, he, by simp [he]⟩

theorem InStep.switch (hk : k.Apart) {d : DozeState} (h : k.InStep d) (key : Key) (on : Bool) :
    k.InStep (k.switch key on d).2.2 := by
  rcases switch_cases (k := k) d key on with ⟨why, heq⟩ | ⟨c, hc, -, heq⟩ <;> rw [heq]
  · exact h
  · show k.refresh (d.preferences.put key (.switch on) d.device).1 (d.screen.set key { c with checked := on })
      = k.openScreen (d.preferences.put key (.switch on) d.device).1
    rw [h] at hc ⊢
    exact refresh_set hk d.preferences hc on d.device

theorem InStep.act (hk : k.Apart) {d : DozeState} (h : k.InStep d) (a : Act) : k.InStep (k.act a d).2.2 := by
  cases a with
  | turn on => exact h.turn hk on
  | switch key on => exact h.switch hk key on

/-- Exactly the changes that are not rejected make a request, and it is for the preferences afterwards. -/
theorem act_cases (d : DozeState) (a : Act) :
    (∃ why, k.act a d = (.rejected why, none, d))
      ∨ (k.act a d).1 = .applied ∧ (k.act a d).2.1 = some (k.request (k.act a d).2.2.preferences) := by
  cases a with
  | turn on => exact .inr ⟨rfl, rfl⟩
  | switch key on =>
    rcases switch_cases (k := k) d key on with ⟨why, heq⟩ | ⟨c, -, -, heq⟩
    · exact .inl ⟨why, heq⟩
    · refine .inr ?_
      rw [act, heq]
      exact ⟨rfl, rfl⟩

/-! ## always-on -/

/-- Always-on as it is stored; the device may be without it. -/
def wantsAlwaysOn (k : DozeKeys) (s : Preferences) : Bool := s.getSwitch k.alwaysOn false

theorem wantsAlwaysOn_off (d : DozeState) : k.wantsAlwaysOn (k.act (.turn false) d).2.2.preferences = false := by
  show ((d.preferences.put k.enabled (.switch false) d.device).1.put k.alwaysOn (.switch false) _).1.getSwitch
    k.alwaysOn false = false
  rw [Preferences.getSwitch_put, if_pos rfl]

/-- Always-on comes on only by being switched on while the ambient display is on. -/
theorem act_wantsAlwaysOn (hk : k.Apart) {d : DozeState} (h : k.InStep d) {a : Act}
    (hoff : k.wantsAlwaysOn d.preferences = false)
    (hon : k.wantsAlwaysOn (k.act a d).2.2.preferences = true) :
    a = .switch k.alwaysOn true ∧ k.isOn d.preferences = true ∧ (k.act a d).1 = .applied := by
  cases a with
  | turn on =>
    cases on with
    | false =>
      rw [wantsAlwaysOn_off] at hon
      cases hon
    | true =>
      have hsame : k.wantsAlwaysOn (k.act (.turn true) d).2.2.preferences = k.wantsAlwaysOn d.preferences := by
        show (d.preferences.put k.enabled (.switch true) d.device).1.getSwitch k.alwaysOn false = _
        rw [Preferences.getSwitch_put, if_neg hk.enabled_ne_alwaysOn.symm]
        rfl
      rw [hsame, hoff] at hon
      cases hon
  | switch key on =>
    rcases switch_cases (k := k) d key on with ⟨why, heq⟩ | ⟨c, hc, henabled, heq⟩
    · rw [act, heq, hoff] at hon
      cases hon
    · rw [act, heq] at hon ⊢
      change (d.preferences.put key (.switch on) d.device).1.getSwitch k.alwaysOn false = true at hon
      rw [Preferences.getSwitch_put] at hon
      by_cases hkey : k.alwaysOn = key
      · subst hkey
        rw [if_pos rfl] at hon
        rw [h, get?_openScreen hk] at hc
        obtain ⟨b, -, rfl⟩ := Option.map_eq_some_iff.mp hc
        rw [refreshed, if_pos rfl] at henabled
        exact ⟨by rw [hon], henabled, rfl⟩
      · rw [if_neg hkey] at hon
        exact absurd hon (by simpa [wantsAlwaysOn] using hoff)

/-! ## the gesture service -/

/-- Where all gestures are shown, the service is to run if one of them is usable and checked. -/
theorem shouldRun_iff (hk : k.Apart) (hp : k.proximityCheck = true) (s : Preferences) :
    k.shouldRun s = true
      ↔ ∃ g ∈ k.gestures, ∃ c, (k.openScreen s).get? g = some c ∧ c.enabled = true ∧ c.checked = true := by
  have hcontrol : ∀ g ∈ k.gestures, (k.openScreen s).get? g
      = some ⟨g, .switch, k.isOn s && !k.isAlwaysOn s, s.getSwitch g false, none⟩ := by
    intro g hg
    have hne : g ≠ k.alwaysOn := fun h => hk.alwaysOn_not_mem (h ▸ hg)
    rw [get?_openScreen hk, drafted?, if_pos hg]
    simp [refreshed, hne, hg, Control.switch]
  have hgestures : k.gestures = [k.pickUp, k.handWave, k.pocket] := by
    rw [gestures, if_pos hp]
  rw [shouldRun, ← hgestures, Bool.and_eq_true, List.any_eq_true]
  constructor
  · rintro ⟨husable, g, hg, hchecked⟩
    exact ⟨g, hg, _, hcontrol g hg, husable, hchecked⟩
  · rintro ⟨g, hg, c, hc, henabled, hchecked⟩
    rw [hcontrol g hg] at hc
    obtain rfl := Option.some.inj hc
    exact ⟨henabled, g, hg, hchecked⟩

end DozeKeys

/-! ## a screen in use -/

/-- The screen of the ambient display, with what its gesture service got. -/
structure Ambient where
  keys : DozeKeys
  state : DozeState
  asked : List Request
  /-- requests that the service refused; they are noted and nothing else -/
  refused : List (Request × DeviceError)

/-- Something that the user does.  What becomes of the device before it, and what the service answers if it is
asked, is left open. -/
structure Tap where
  act : DozeKeys.Act
  meanwhile : Device → Device
  answer : Except DeviceError Unit

namespace Ambient

/-- The screen as it is opened. -/
def start (k : DozeKeys) (s : Preferences) (d : Device) : Ambient := ⟨k, ⟨k.openScreen s, s, d⟩, [], []⟩

def found (v : Ambient) (t : Tap) : Ambient := { v with state.device := t.meanwhile v.state.device }

/-- Makes a request, whatever becomes of it. -/
def request (v : Ambient) (r : Request) (answer : Except DeviceError Unit) : Ambient :=
  { v with
    asked := v.asked ++ [r]
    refused := match answer with
      | .ok _ => v.refused
      | .error e => v.refused ++ [(r, e)] }

def tap (v : Ambient) (t : Tap) : Outcome × Ambient :=
  match v.keys.act t.act (v.found t).state with
  | (outcome, none, state) => (outcome, { v with state })
  | (outcome, some r, state) => (outcome, request { v with state } r t.answer)

def run (v : Ambient) (ts : List Tap) : Ambient := ts.foldl (fun v t => (v.tap t).2) v

variable {v : Ambient}

theorem run_append (v : Ambient) (ts us : List Tap) : v.run (ts ++ us) = (v.run ts).run us := List.foldl_append

theorem run_concat (v : Ambient) (ts : List Tap) (t : Tap) : v.run (ts ++ [t]) = ((v.run ts).tap t).2 :=
  run_append v ts [t]

theorem tap_eq (v : Ambient) (t : Tap) :
    (v.tap t).1 = (v.keys.act t.act (v.found t).state).1
      ∧ (v.tap t).2.keys = v.keys ∧ (v.tap t).2.state = (v.keys.act t.act (v.found t).state).2.2
      ∧ (v.tap t).2.asked = v.asked ++ (v.keys.act t.act (v.found t).state).2.1.toList := by
  unfold tap
  split
  next outcome state heq => exact heq ▸ ⟨rfl, rfl, rfl, (List.append_nil _).symm⟩
  next outcome r state heq => exact heq ▸ ⟨rfl, rfl, rfl, rfl⟩

/-- What every step of a run keeps. -/
structure Sound (v : Ambient) : Prop where
  apart : v.keys.Apart
  inStep : v.keys.InStep v.state

theorem Sound.tap (h : v.Sound) (t : Tap) : (v.tap t).2.Sound := by
  obtain ⟨-, hkeys, hstate, -⟩ := tap_eq v t
  refine ⟨hkeys ▸ h.apart, ?_⟩
  rw [hkeys, hstate]
  exact DozeKeys.InStep.act h.apart (d := (v.found t).state) h.inStep t.act

theorem Sound.run (h : v.Sound) (ts : List Tap) : (v.run ts).Sound := by
  induction ts generalizing v with
  | nil => exact h
  | cons t ts ih => exact ih (h.tap t)

theorem keys_run (v : Ambient) (ts : List Tap) : (v.run ts).keys = v.keys := by
  induction ts generalizing v with
  | nil => rfl
  | cons t ts ih => exact (ih _).trans (tap_eq v t).2.1

/-- A step that is rejected does nothing; any other makes one request, the one for the preferences afterwards. -/
theorem tap_cases (v : Ambient) (t : Tap) :
    (∃ why, v.tap t = (.rejected why, v.found t))
      ∨ (v.tap t).1 = .applied
        ∧ (v.tap t).2.asked = v.asked ++ [v.keys.request (v.tap t).2.state.preferences] := by
  obtain ⟨houtcome, -, hstate, hasked⟩ := tap_eq v t
  rcases DozeKeys.act_cases (k := v.keys) (v.found t).state t.act with ⟨why, heq⟩ | ⟨happlied, hrequest⟩
  · refine .inl ⟨why, ?_⟩
    unfold Ambient.tap
    rw [heq]
    rfl
  · refine .inr ⟨houtcome.trans happlied, ?_⟩
    rw [hasked, hrequest, hstate]
    rfl

/-- The stored always-on is off until it is switched on while the ambient display is on. -/
theorem Sound.wantsAlwaysOn_run (h : v.Sound) (hoff : v.keys.wantsAlwaysOn v.state.preferences = false)
    {ts : List Tap} (hon : v.keys.wantsAlwaysOn (v.run ts).state.preferences = true) :
    ∃ before t after, ts = before ++ t :: after ∧ t.act = .switch v.keys.alwaysOn true
      ∧ v.keys.wantsAlwaysOn (v.run before).state.preferences = false
      ∧ v.keys.isOn (v.run before).state.preferences = true
      ∧ ((v.run before).tap t).1 = .applied := by
  induction ts generalizing v with
  | nil =>
    change v.keys.wantsAlwaysOn v.state.preferences = true at hon
    rw [hoff] at hon
    cases hon
  | cons t ts ih =>
    obtain ⟨houtcome, hkeys, hstate, -⟩ := tap_eq v t
    cases hnow : v.keys.wantsAlwaysOn (v.tap t).2.state.preferences with
    | true =>
      rw [hstate] at hnow
      obtain ⟨hact, hison, happlied⟩ :=
        DozeKeys.act_wantsAlwaysOn h.apart (d := (v.found t).state) h.inStep hoff hnow
      exact ⟨[], t, ts, rfl, hact, hoff, hison, houtcome.trans happlied⟩
    | false =>
      rw [← hkeys] at hnow hon
      obtain ⟨before, u, after, hcut, hact, hstill, hison, happlied⟩ := ih (h.tap t) hnow hon
      rw [hkeys] at hact hstill hison
      exact ⟨t :: before, u, after, congrArg (t :: ·) hcut, hact, hstill, hison, happlied⟩

/-- **The ambient display, its preferences and its gesture service never drift apart.**  Whatever is done on the
screen, whatever saves fail and whatever the service answers: the screen is the one that the preferences would open;
a step makes one request, for what the preferences then call for, unless it is rejected, and then it changes nothing
and makes none; once the ambient display was turned off, always-on is off until it is switched on while the display
is on; and where the gestures that look at the proximity sensor are shown, the service is to run if and only if a
gesture is usable and checked. -/
theorem follows (k : DozeKeys) (hk : k.Apart) (s : Preferences) (d : Device) (ts : List Tap) :
    let v := (start k s d).run ts
    v.state.screen = k.openScreen v.state.preferences
      ∧ (∀ t, ((v.tap t).1 = .applied
            ∧ (v.tap t).2.asked = v.asked ++ [⟨.doze, k.shouldRun (v.tap t).2.state.preferences⟩])
          ∨ ∃ why, v.tap t = (.rejected why, v.found t))
      ∧ (∀ before off since, ts = before ++ off :: since → off.act = .turn false →
          v.state.preferences.getSwitch k.alwaysOn false = true →
          ∃ still t after, since = still ++ t :: after ∧ t.act = .switch k.alwaysOn true ∧
            let w := (start k s d).run (before ++ off :: still)
            w.state.preferences.getSwitch k.alwaysOn false = false
              ∧ k.isOn w.state.preferences = true ∧ (w.tap t).1 = .applied)
      ∧ (k.proximityCheck = true → (k.shouldRun v.state.preferences = true ↔
          ∃ g ∈ k.gestures, ∃ c, v.state.screen.get? g = some c ∧ c.enabled = true ∧ c.checked = true)) := by
  intro v
  have hstart : (start k s d).Sound := ⟨hk, rfl⟩
  have hkeys : v.keys = k := keys_run _ ts
  have hscreen : v.state.screen = k.openScreen v.state.preferences := by
    have hin := (hstart.run ts).inStep
    rw [DozeKeys.InStep, show ((start k s d).run ts).keys = k from hkeys] at hin
    exact hin
  refine ⟨hscreen, fun t => ?_, fun before off since hcut hact hon => ?_, fun hp => ?_⟩
  · rcases tap_cases v t with hrejected | happlied
    · exact .inr hrejected
    · rw [hkeys] at happlied
      exact .inl happlied
  · let w := (start k s d).run (before ++ [off])
    have hw : w.Sound := hstart.run _
    have hwkeys : w.keys = k := keys_run _ _
    have hoff : w.keys.wantsAlwaysOn w.state.preferences = false := by
      show w.keys.wantsAlwaysOn ((start k s d).run (before ++ [off])).state.preferences = false
      rw [hwkeys, run_concat, (tap_eq _ off).2.2.1, hact, keys_run]
      exact DozeKeys.wantsAlwaysOn_off _
    have hrun : ∀ us, (start k s d).run (before ++ off :: us) = w.run us := by
      intro us
      rw [List.append_cons, run_append]
    have hend : w.keys.wantsAlwaysOn (w.run since).state.preferences = true := by
      rw [← hrun, ← hcut, hwkeys]
      exact hon
    obtain ⟨still, t, after, hsplit, htap, hstill, hison, happlied⟩ := hw.wantsAlwaysOn_run hoff hend
    rw [hwkeys] at htap hstill hison
    refine ⟨still, t, after, hsplit, htap, ?_⟩
    rw [hrun]
    exact ⟨hstill, hison, happlied⟩
  · rw [hscreen]
    exact DozeKeys.shouldRun_iff hk hp v.state.preferences

/-- Always-on and a gesture were chosen before. -/
def chosenBefore : Preferences :=
  ⟨some ⟨"h/prefs.json"⟩, .ofList [("always_on_display", .switch true), ("gesture_pick_up", .switch true)], none⟩

/-- The display is turned off, which cannot be saved; a gesture is tried; the display is turned on again, which the
service does not hear of; and always-on is switched on. -/
def evening : List Tap :=
  [⟨.turn false, fun d => { d with refusals := [some .noDevice, some .noDevice] }, .ok ()⟩,
    ⟨.switch "gesture_pick_up" false, id, .ok ()⟩,
    ⟨.turn true, id, .error (.service "busy")⟩,
    ⟨.switch "always_on_display" true, id, .ok ()⟩]

/-- Three steps make a request, and the last of them is the one that turns always-on on. -/
theorem follows_evening :
    DozeKeys.standard.Apart ∧
      let v := (start .standard chosenBefore default).run evening
      v.asked = [⟨.doze, false⟩, ⟨.doze, true⟩, ⟨.doze, false⟩] ∧ v.refused = [(⟨.doze, true⟩, .service "busy")]
        ∧ v.state.screen = DozeKeys.standard.openScreen v.state.preferences
        ∧ ∃ still t after, evening.tail = still ++ t :: after ∧ t.act = .switch "always_on_display" true := by
  have happart : DozeKeys.standard.Apart := by decide
  obtain ⟨hscreen, -, halways, -⟩ := follows .standard happart chosenBefore default evening
  refine ⟨happart, by decide +kernel, by decide +kernel, hscreen, ?_⟩
  obtain ⟨still, t, after, hcut, hact, -⟩ := halways [] _ _ rfl rfl (by decide +kernel)
  exact ⟨still, t, after, hcut, hact⟩

end Ambient

end DeviceSettings

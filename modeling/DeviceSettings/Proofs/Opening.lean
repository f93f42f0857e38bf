import DeviceSettings.Proofs.Gating

/-!
# What opening a screen and changing a setting do

Each setting that a node mirrors is opened on its own (`Session.Opener`): its control is put on the screen and
at most its own value is stored.  So opening them in a row does to each what opening it alone would, and
leaves all other settings to `openGated`.  A change that is not rejected is accepted, which is about its own
setting only (`Session.agreeAt_accept`), and then what depends on it is brought in line.
-/

namespace DeviceSettings

open Stores (Kept Saves)

theorem Table.ne_of_get?_none {α : Type} {t : Table Key α} {key : Key} (h : t.get? key = none)
    {e : Key × α} (he : e ∈ t.entries) : e.1 ≠ key := by
  rintro rfl
  rw [Table.get?_eq_some_iff.2 he] at h
  cases h

theorem Profile.boundNode?_eq_none {p : Profile} {key : Key} :
    p.boundNode? key = none ↔ p.buttons.switches.get? key = none ∧ p.buttons.texts.get? key = none := by
  rw [boundNode?]
  cases p.buttons.switches.get? key with
  | none => simp
  | some node => simp

/-- Some setting is mirrored to the node. -/
def Profile.IsNode (p : Profile) (node : Path) : Prop := ∃ key kind, p.boundNode? key = some (node, kind)

namespace Session

/-! ## one setting after another -/

section
variable {α : Type} {f : Key → α → Stores → Control × Stores}

/-- Opening a setting is about that setting only. -/
structure Opener (f : Key → α → Stores → Control × Stores) : Prop where
  key (k : Key) (a : α) (s : Stores) : (f k a s).1.key = k
  other (k : Key) (a : α) (s : Stores) (k' : Key) (hk : k' ≠ k) :
    (f k a s).2.preferences.get? k' = s.preferences.get? k'
  pending (k : Key) (a : α) (s : Stores) : (f k a s).2.pending = s.pending
  saves (k : Key) (a : α) (s : Stores) : s.Saves (f k a s).2

theorem openEach_cons (e : Key × α) (es : List (Key × α)) (screen : Screen) (s : Stores) :
    openEach f (e :: es) (screen, s) = openEach f es (screen.put (f e.1 e.2 s).1, (f e.1 e.2 s).2) := rfl

theorem Opener.frame (h : Opener f) {es : List (Key × α)} {key : Key} (hk : ∀ e ∈ es, e.1 ≠ key)
    (screen : Screen) (s : Stores) :
    (openEach f es (screen, s)).1.get? key = screen.get? key
      ∧ (openEach f es (screen, s)).2.preferences.get? key = s.preferences.get? key := by
  induction es generalizing screen s with
  | nil => exact ⟨rfl, rfl⟩
  | cons e es ih =>
    have he : key ≠ e.1 := (hk e List.mem_cons_self).symm
    obtain ⟨hscreen, hvalue⟩ := ih (fun e' he' => hk e' (List.mem_cons_of_mem _ he'))
      (screen.put (f e.1 e.2 s).1) (f e.1 e.2 s).2
    rw [openEach_cons]
    refine ⟨hscreen.trans ?_, hvalue.trans (h.other _ _ _ _ he)⟩
    rw [Screen.get?_put, h.key, if_neg he]

theorem Opener.pending_openEach (h : Opener f) (es : List (Key × α)) (screen : Screen) (s : Stores) :
    (openEach f es (screen, s)).2.pending = s.pending := by
  induction es generalizing screen s with
  | nil => rfl
  | cons e es ih =>
    rw [openEach_cons, ih]
    exact h.pending _ _ _

theorem Opener.saves_openEach (h : Opener f) (es : List (Key × α)) (screen : Screen) (s : Stores) :
    s.Saves (openEach f es (screen, s)).2 := by
  induction es generalizing screen s with
  | nil => exact .refl
  | cons e es ih =>
    rw [openEach_cons]
    exact (h.saves _ _ _).trans (ih _ _)

end

/-! ## settings that nodes mirror -/

theorem get?_mirror (s : Stores) (key k : Key) (v : Value) :
    (mirror s key v).preferences.get? k = if k = key then some v else s.preferences.get? k := by
  unfold mirror
  split
  · rename_i hv
    by_cases hk : k = key
    · rw [if_pos hk, hk, hv]
    · rw [if_neg hk]
  · exact Stores.get?_put s key k v

theorem mirror_of_ne (s : Stores) {key k : Key} (v : Value) (hk : k ≠ key) :
    (mirror s key v).preferences.get? k = s.preferences.get? k := by
  rw [get?_mirror, if_neg hk]

theorem pending_mirror (s : Stores) (key : Key) (v : Value) : (mirror s key v).pending = s.pending := by
  unfold mirror
  split <;> rfl

theorem saves_mirror (s : Stores) (key : Key) (v : Value) : s.Saves (mirror s key v) := by
  unfold mirror
  split
  · exact .refl
  · exact Saves.refl.put key v

end Session

namespace Profile.NodeKind

/-- What a node that mirrors a setting is read as. -/
def value : NodeKind → String → Value
  | switch, token => .switch (token == Value.switchToken true)
  | text, token => .text token

/-- The control that shows what the node holds. -/
def shows (key : Key) (token : String) : NodeKind → Control
  | switch => .switch key (token == Value.switchToken true)
  | text => .text key (some token)

/-- The control that shows what the setting is stored as. -/
def keeps (p : Profile) (key : Key) (s : Preferences) : NodeKind → Control
  | switch => .switch key (s.switchOrDefault p key)
  | text => .text key (s.textOrDefault? p key)

end Profile.NodeKind

namespace Session

variable {p : Profile} {key : Key} {node : Path} {kind : Profile.NodeKind} {s t : Stores}

/-- The control of a setting that a node mirrors. -/
def openBound (p : Profile) (key : Key) (node : Path) : Profile.NodeKind → Stores → Control × Stores
  | .switch => openSwitch p key node
  | .text => openText p key node

/-- What the node is read as is shown and taken over. -/
theorem openBound_eq : openBound p key node kind s = match Node.token? s.disk node with
    | some token => (kind.shows key token, mirror s key (kind.value token))
    | none => ({ kind.keeps p key s.preferences with enabled := false }, s) := by
  cases kind with
  | switch => exact openSwitch_eq p key node s
  | text => exact openText_eq p key node s

theorem control_openBound : (openBound p key node kind s).1 = match Node.token? s.disk node with
    | some token => kind.shows key token
    | none => { kind.keeps p key s.preferences with enabled := false } := by
  rw [openBound_eq]
  cases Node.token? s.disk node <;> rfl

theorem stores_openBound : (openBound p key node kind s).2 = match Node.token? s.disk node with
    | some token => mirror s key (kind.value token)
    | none => s := by
  rw [openBound_eq]
  cases Node.token? s.disk node <;> rfl

theorem value_openBound (s : Stores) : (openBound p key node kind s).2.preferences.get? key
    = ((Node.token? s.disk node).map kind.value).or (s.preferences.get? key) := by
  rw [stores_openBound]
  cases Node.token? s.disk node with
  | some token => exact (get?_mirror s key key _).trans (if_pos rfl)
  | none => rfl

theorem openBound_congr (htoken : Node.token? t.disk node = Node.token? s.disk node)
    (hvalue : Node.token? s.disk node = none → t.preferences.get? key = s.preferences.get? key) :
    (openBound p key node kind t).1 = (openBound p key node kind s).1 := by
  rw [control_openBound, control_openBound, htoken]
  cases hnode : Node.token? s.disk node with
  | some token => rfl
  | none =>
    have hkeeps : kind.keeps p key t.preferences = kind.keeps p key s.preferences := by
      cases kind with
      | switch =>
        rw [Profile.NodeKind.keeps, Profile.NodeKind.keeps, Preferences.switchOrDefault, Preferences.switchOrDefault,
          Preferences.getSwitch, Preferences.getSwitch, hvalue hnode]
      | text =>
        rw [Profile.NodeKind.keeps, Profile.NodeKind.keeps, Preferences.textOrDefault?, Preferences.textOrDefault?,
          hvalue hnode]
    rw [hkeeps]

theorem opener_openBound (p : Profile) (kind : Profile.NodeKind) :
    Opener fun key node s => openBound p key node kind s where
  key k node s := by
    rw [control_openBound]
    cases Node.token? s.disk node <;> cases kind <;> rfl
  other k node s k' hk := by
    rw [stores_openBound]
    split
    · exact mirror_of_ne s _ hk
    · rfl
  pending k node s := by
    rw [stores_openBound]
    split
    · exact pending_mirror s k _
    · rfl
  saves k node s := by
    rw [stores_openBound]
    split
    · exact saves_mirror s k _
    · exact .refl

theorem opener_openSwitch (p : Profile) : Opener (openSwitch p) := opener_openBound p .switch

theorem opener_openText (p : Profile) : Opener (openText p) := opener_openBound p .text

/-! ## the screen -/

/-- The settings that nodes mirror, opened. -/
def opened (s : Session) : Screen × Stores :=
  openEach (openText s.profile) s.profile.buttons.texts.entries
    (openEach (openSwitch s.profile) s.profile.buttons.switches.entries (.empty, s.stores))

theorem openScreen_eq (s : Session) :
    s.openScreen = { s with screen := openGated s.profile s.opened.2 s.opened.1, stores := s.opened.2 } := rfl

theorem profile_resume (s : Session) : s.openScreen.resume.profile = s.profile := profile_foldl_reconcile _ _

theorem pending_opened (s : Session) : s.opened.2.pending = s.stores.pending := by
  rw [opened, (opener_openText s.profile).pending_openEach, (opener_openSwitch s.profile).pending_openEach]

theorem saves_opened (s : Session) : s.stores.Saves s.opened.2 :=
  ((opener_openSwitch s.profile).saves_openEach _ _ _).trans ((opener_openText s.profile).saves_openEach _ _ _)

/-- A setting without a node is neither shown nor stored yet. -/
theorem opened_of_unbound {s : Session} {key : Key} (h : s.profile.boundNode? key = none) :
    s.opened.1.get? key = none ∧ s.opened.2.preferences.get? key = s.stores.preferences.get? key := by
  obtain ⟨hswitch, htext⟩ := Profile.boundNode?_eq_none.1 h
  have hs := (opener_openSwitch s.profile).frame (fun e he => Table.ne_of_get?_none hswitch he) .empty s.stores
  have ht := (opener_openText s.profile).frame (fun e he => Table.ne_of_get?_none htext he)
    (openEach (openSwitch s.profile) s.profile.buttons.switches.entries (.empty, s.stores)).1
    (openEach (openSwitch s.profile) s.profile.buttons.switches.entries (.empty, s.stores)).2
  exact ⟨ht.1.trans hs.1, ht.2.trans hs.2⟩

/-- A gated setting that has no control yet gets one. -/
theorem get?_openGated (p : Profile) (s : Stores) (screen : Screen) (key : Key) :
    (openGated p s screen).get? key = (screen.get? key).or
      (if key ∈ p.buttons.gates.keys then some (.switch key (s.preferences.switchOrDefault p key))
        else none) := by
  unfold openGated
  generalize p.buttons.gates.keys = ks
  induction ks generalizing screen with
  | nil => simp
  | cons k ks ih =>
    rw [List.foldl_cons, ih]
    by_cases hk : key = k
    · subst hk
      cases hc : screen.get? key with
      | none => simp [Control.switch]
      | some c => simp [hc]
    · have hother : (if (screen.get? k).isSome then screen
          else screen.put (.switch k (s.preferences.switchOrDefault p k))).get? key = screen.get? key := by
        split
        · rfl
        · rw [Screen.get?_put]
          exact if_neg hk
      rw [hother]
      simp [hk]

/-! ## changes -/

/-- The control as a change would leave it, if the change is not rejected. -/
def showing? (s : Session) (key : Key) (v : Value) : Option Control :=
  match s.screen.get? key with
  | none => none
  | some c => if c.enabled then c.showing? v else none

/-- The part of a change that is about its own setting: its control, its value and its node. -/
def accept (s : Session) (key : Key) (v : Value) : Session :=
  match s.showing? key v with
  | none => s
  | some c => ({ s with screen := s.screen.set key c }.enter key v).2

theorem showing?_eq_some {s : Session} {key : Key} {v : Value} {c' : Control} :
    s.showing? key v = some c' ↔
      ∃ c, s.screen.get? key = some c ∧ c.enabled = true ∧ c.showing? v = some c' := by
  unfold showing?
  cases s.screen.get? key with
  | none => simp
  | some c => cases h : c.enabled <;> simp [h]

theorem accept_of_none {s : Session} {key : Key} {v : Value} (h : s.showing? key v = none) :
    s.accept key v = s := by
  rw [accept, h]

theorem accept_of_some {s : Session} {key : Key} {v : Value} {c : Control} (h : s.showing? key v = some c) :
    s.accept key v = ({ s with screen := s.screen.set key c }.enter key v).2 := by
  rw [accept, h]

/-- A change that is rejected does nothing; any other is accepted, and if its node takes the value what
depends on the node is brought in line. -/
theorem apply_cases (s : Session) (key : Key) (v : Value) :
    (∃ why, s.apply key v = (.rejected why, s)) ∨ ∃ c, s.showing? key v = some c
      ∧ ((∃ e, s.apply key v = (.writeFailed e, s.accept key v))
        ∨ ({ s with screen := s.screen.set key c }.enter key v).1 = .ok ()
          ∧ s.apply key v = (.applied,
            (((s.accept key v).dependents key).foldl reconcile (s.accept key v)).checkPocket key)) := by
  unfold apply accept showing?
  cases s.screen.get? key with
  | none => exact .inl ⟨_, rfl⟩
  | some c =>
    dsimp only
    cases c.enabled with
    | false => exact .inl ⟨_, rfl⟩
    | true =>
      rw [if_neg (by simp), if_pos rfl]
      cases c.showing? v with
      | none => exact .inl ⟨_, rfl⟩
      | some c' =>
        refine .inr ⟨c', rfl, ?_⟩
        dsimp only
        rw [commit]
        cases { s with screen := s.screen.set key c' }.enter key v with
        | mk r t =>
          cases r with
          | error e => exact .inl ⟨e, rfl⟩
          | ok u => exact .inr ⟨rfl, rfl⟩

/-- A change that is rejected has nothing to show. -/
theorem showing?_of_rejected {s : Session} {key : Key} {v : Value} {why : Rejection}
    (h : (s.apply key v).1 = .rejected why) : s.showing? key v = none := by
  cases hshowing : s.showing? key v with
  | none => rfl
  | some c' =>
    obtain ⟨c, hc, henabled, hshows⟩ := showing?_eq_some.1 hshowing
    rw [apply, hc] at h
    dsimp only at h
    rw [henabled, hshows, if_neg (by simp)] at h
    dsimp only [commit] at h
    split at h <;> cases h

theorem apply_of_disabled {s : Session} {key : Key} {c : Control} (hc : s.screen.get? key = some c)
    (hoff : c.enabled = false) (v : Value) : s.apply key v = (.rejected (.disabled key), s) := by
  rw [apply, hc]
  dsimp only
  rw [hoff]
  rfl

/-- A value that a control can show is rejected for one reason only. -/
theorem rejected_of_showing? {s : Session} {key : Key} {v : Value} {c : Control} {why : Rejection}
    (hc : s.screen.get? key = some c) (hshows : ∃ c', c.showing? v = some c')
    (h : (s.apply key v).1 = .rejected why) : c.enabled = false ∧ why = .disabled key := by
  obtain ⟨c', hc'⟩ := hshows
  cases hon : c.enabled with
  | true =>
    have hshowing := showing?_eq_some.2 ⟨c, hc, hon, hc'⟩
    rw [showing?_of_rejected h] at hshowing
    cases hshowing
  | false =>
    rw [apply_of_disabled hc hon] at h
    exact ⟨rfl, (Outcome.rejected.inj h).symm⟩

theorem enter_of_unbound {s : Session} {key : Key} (h : s.profile.boundNode? key = none) (v : Value) :
    s.enter key v = (.ok (), { s with stores := s.stores.put key v }) := by
  unfold enter writeNode
  dsimp only
  rw [h]

/-- A setting without a node has nothing that could fail. -/
theorem apply_ne_writeFailed {s : Session} {key : Key} (h : s.profile.boundNode? key = none) (v : Value)
    (e : DeviceError) (t : Session) : s.apply key v ≠ (.writeFailed e, t) := by
  unfold apply
  split
  · intro heq
    cases heq
  · split
    · intro heq
      cases heq
    · split
      · rename_i c c' _
        rw [commit, @enter_of_unbound { s with screen := s.screen.set key c' } key h v]
        intro heq
        cases heq
      · intro heq
        cases heq

theorem profile_enter (s : Session) (key : Key) (v : Value) : (s.enter key v).2.profile = s.profile := by
  unfold enter writeNode
  split <;> rfl

/-- Besides the value only the node changes. -/
theorem stores_enter (s : Session) (key : Key) (v : Value) :
    (s.enter key v).2.stores.preferences = (s.stores.put key v).preferences
      ∧ (s.enter key v).2.stores.pending = s.stores.pending ∧ (s.enter key v).2.screen = s.screen := by
  unfold enter writeNode
  split <;> exact ⟨rfl, rfl, rfl⟩

/-- The screen makes no difference to what is stored and written. -/
theorem enter_screen (s : Session) (screen : Screen) (key : Key) (v : Value) :
    ({ s with screen }.enter key v).1 = (s.enter key v).1
      ∧ ({ s with screen }.enter key v).2.stores = (s.enter key v).2.stores := by
  unfold enter writeNode
  dsimp only
  cases s.profile.boundNode? key <;> exact ⟨rfl, rfl⟩

theorem profile_accept (s : Session) (key : Key) (v : Value) : (s.accept key v).profile = s.profile := by
  cases h : s.showing? key v with
  | none => rw [accept_of_none h]
  | some c => rw [accept_of_some h, profile_enter]

theorem dependents_accept (s : Session) (key : Key) (v : Value) :
    (s.accept key v).dependents key = s.dependents key := by
  rw [dependents, dependents, profile_accept]

/-- Entering a value leaves the control, the value and the choice of another setting as they are. -/
theorem agreeAt_enter {s : Session} {key k : Key} (v : Value) (hk : k ≠ key) : AgreeAt k s (s.enter key v).2 := by
  obtain ⟨hvalues, hpending, hscreen⟩ := stores_enter s key v
  refine ⟨by rw [hscreen], ?_, by rw [hpending]⟩
  rw [hvalues, Stores.get?_put, if_neg hk]

theorem agreeAt_accept {s : Session} {key k : Key} (v : Value) (hk : k ≠ key) :
    AgreeAt k s (s.accept key v) := by
  cases h : s.showing? key v with
  | none =>
    rw [accept_of_none h]
    exact .rfl
  | some c =>
    have hshown : AgreeAt k s { s with screen := s.screen.set key c } :=
      ⟨(Screen.get?_set s.screen key k c).trans (if_neg hk), rfl, rfl⟩
    rw [accept_of_some h]
    exact hshown.trans (agreeAt_enter v hk)

/-- A look at pocket mode is about requests only. -/
theorem checkPocket_same (s : Session) (key : Key) : (s.checkPocket key).profile = s.profile
    ∧ (s.checkPocket key).screen = s.screen ∧ (s.checkPocket key).stores = s.stores
    ∧ (s.checkPocket key).dispatch = s.dispatch := by
  unfold checkPocket request
  split
  · split <;> exact ⟨rfl, rfl, rfl, rfl⟩
  · exact ⟨rfl, rfl, rfl, rfl⟩

/-- What a change that was applied did: its setting was given the value, and then its dependents were brought in
line. -/
theorem stores_applied {s : Session} {key : Key} {v : Value} (ha : (s.apply key v).1 = .applied) :
    (s.enter key v).1 = .ok () ∧ ∃ t : Session, t.stores = (s.enter key v).2.stores
      ∧ (s.apply key v).2.stores = ((s.dependents key).foldl reconcile t).stores := by
  rcases apply_cases s key v with ⟨why, heq⟩ | ⟨c, hc, ⟨e, heq⟩ | ⟨hok, heq⟩⟩
  · rw [heq] at ha
    cases ha
  · rw [heq] at ha
    cases ha
  · obtain ⟨hresult, hstores⟩ := enter_screen s (s.screen.set key c) key v
    refine ⟨hresult.symm.trans hok, s.accept key v, ?_, ?_⟩
    · rw [accept_of_some hc]
      exact hstores
    · rw [heq, (checkPocket_same _ key).2.2.1, dependents_accept]

/-- A change of a setting without a node is made if it is accepted, and nothing depends on it. -/
theorem apply_of_unbound {s : Session} {key : Key} {v : Value} {c : Control}
    (h : s.profile.boundNode? key = none) (hc : s.showing? key v = some c) :
    (s.apply key v).1 = .applied ∧ (s.apply key v).2.stores = s.stores.put key v
      ∧ (s.apply key v).2.screen = s.screen.set key c := by
  have henter := @enter_of_unbound { s with screen := s.screen.set key c } key h v
  have haccept : s.accept key v = { s with screen := s.screen.set key c, stores := s.stores.put key v } := by
    rw [accept_of_some hc, henter]
  have hnone : (s.accept key v).dependents key = [] := by rw [dependents, profile_accept, h]
  rcases apply_cases s key v with ⟨why, heq⟩ | ⟨c', -, ⟨e, heq⟩ | ⟨-, heq⟩⟩
  · obtain ⟨c₀, hc₀, henabled, hshowing⟩ := showing?_eq_some.1 hc
    rw [apply, hc₀] at heq
    dsimp only at heq
    rw [henabled, hshowing] at heq
    replace heq : commit { s with screen := s.screen.set key c } key v = _ := heq
    rw [commit, henter] at heq
    cases heq
  · exact absurd heq (apply_ne_writeFailed h v e _)
  · obtain ⟨-, hscreen, hstores, -⟩ := checkPocket_same (s.accept key v) key
    rw [heq, hnone]
    exact ⟨rfl, hstores.trans (by rw [haccept]), hscreen.trans (by rw [haccept])⟩

theorem profile_apply (s : Session) (key : Key) (v : Value) : (s.apply key v).2.profile = s.profile := by
  rcases apply_cases s key v with ⟨why, h⟩ | ⟨c, -, ⟨e, h⟩ | ⟨-, h⟩⟩
  · rw [h]
  · rw [h]
    exact profile_accept s key v
  · rw [h, (checkPocket_same _ key).1, profile_foldl_reconcile, profile_accept]

/-- A change does nothing to the stores but save them and write the node of its setting. -/
theorem kept_accept {s : Session}
    (hs : ∀ (u : Stores) (c : Change), Kept s.profile.IsNode s.stores u → c.IsSaved u) (key : Key) (v : Value) :
    Kept s.profile.IsNode s.stores (s.accept key v).stores := by
  cases hc : s.showing? key v with
  | none =>
    rw [accept_of_none hc]
    exact .refl
  | some c =>
    have hput : Kept s.profile.IsNode s.stores (s.stores.put key v) := Kept.put .refl key v (hs _ _ .refl)
    rw [accept_of_some hc]
    unfold enter writeNode
    cases hb : s.profile.boundNode? key with
    | none => exact hput
    | some b => exact hput.write b.1 v.token ⟨key, b.2, hb⟩

theorem kept_apply {s : Session}
    (hs : ∀ (u : Stores) (c : Change), Kept s.profile.IsNode s.stores u → c.IsSaved u) (key : Key) (v : Value) :
    Kept s.profile.IsNode s.stores (s.apply key v).2.stores := by
  rcases apply_cases s key v with ⟨why, heq⟩ | ⟨c, -, ⟨e, heq⟩ | ⟨-, heq⟩⟩
  · rw [heq]
    exact .refl
  · rw [heq]
    exact kept_accept hs key v
  · rw [heq, (checkPocket_same _ key).2.2.1]
    exact (kept_accept hs key v).saves hs (saves_foldl _ _)

theorem agreeAt_checkPocket (s : Session) (key k : Key) : AgreeAt k s (s.checkPocket key) := by
  obtain ⟨-, hscreen, hstores, -⟩ := checkPocket_same s key
  exact ⟨by rw [hscreen], by rw [hstores], by rw [hstores]⟩

end Session

end DeviceSettings

import DeviceSettings.Proofs.Following
import DeviceSettings.Proofs.Panel
import DeviceSettings.Proofs.Profile.Store
import DeviceSettings.Proofs.Rest

/-!
# The panel that is shown

Showing the button panel opens it in stores without files, which leaves the device alone.  A session that keeps its
stores opens the same panel if no save touches a node, so what is shown is what a change finds: it knows the same
settings, and the same ones are disabled (`CommandLine.show_previews_set`).  What is shown is the rows that are read
off the printed text, be it a grid or a document.
-/

namespace DeviceSettings

open Disk (Steady exits stepTo)

/-! ## stores side by side -/

namespace Stores

variable {p : Profile} {s t u w : Stores}

theorem SameMemory.value (h : s.SameMemory t) (key : Key) :
    t.preferences.get? key = s.preferences.get? key := by
  rw [Preferences.get?, Preferences.get?, h.values]

theorem SameMemory.mirror (h : s.SameMemory t) (key : Key) (v : Value) :
    (Session.mirror s key v).SameMemory (Session.mirror t key v) := by
  unfold Session.mirror
  rw [h.value]
  split
  · exact h
  · exact h.put key v

/-- The stores are the same in memory, and the nodes hold the same however often either are saved. -/
structure Parallel (p : Profile) (s t : Stores) : Prop where
  memory : s.SameMemory t
  nodes : ∀ u w, s.Saves u → t.Saves w → ∀ n, p.Reads n → Node.token? w.disk n = Node.token? u.disk n

theorem Parallel.next (h : Parallel p s t) (hu : s.Saves u) (hw : t.Saves w) (hm : u.SameMemory w) :
    Parallel p u w :=
  ⟨hm, fun u' w' hu' hw' => h.nodes u' w' (hu.trans hu') (hw.trans hw')⟩

theorem Parallel.token?_eq (h : Parallel p s t) {n : Path} (hn : p.Reads n) :
    Node.token? t.disk n = Node.token? s.disk n :=
  h.nodes s t .refl .refl n hn

theorem Parallel.isOpen?_eq (h : Parallel p s t) (key : Key) :
    Gate.isOpen? p.buttons.gates t.disk key = Gate.isOpen? p.buttons.gates s.disk key :=
  Gate.isOpen?_congr fun gate hg => h.token?_eq (.inr ⟨key, gate, hg, rfl⟩)

/-- Stores without files beside those they were taken from. -/
theorem parallel_inMemory (hmemory : s.SameMemory t) (ht : t.InMemory) (hdevice : t.device = s.device)
    (hstable : ∀ n, p.Reads n → Session.Stable s n) : Parallel p s t := by
  refine ⟨hmemory, fun u w hu hw n hn => ?_⟩
  rw [hstable n hn u hu, disk, disk, (hw.inMemory ht).1, hdevice]

end Stores

namespace Session

open Stores (Parallel)

/-! ## sessions side by side -/

section
variable {p : Profile} {s t : Stores}

theorem parallel_openBound (h : Parallel p s t) (key : Key) {node : Path} (hn : p.Reads node)
    (kind : Profile.NodeKind) : (openBound p key node kind t).1 = (openBound p key node kind s).1
      ∧ Parallel p (openBound p key node kind s).2 (openBound p key node kind t).2 := by
  have htoken := h.token?_eq hn
  refine ⟨openBound_congr htoken fun _ => h.memory.value key,
    h.next ((opener_openBound p kind).saves key node s) ((opener_openBound p kind).saves key node t) ?_⟩
  rw [stores_openBound, stores_openBound, htoken]
  cases Node.token? s.disk node with
  | some token => exact h.memory.mirror key _
  | none => exact h.memory

theorem parallel_openEach {α : Type} {f : Key → α → Stores → Control × Stores} (es : List (Key × α))
    (hf : ∀ e ∈ es, ∀ s t, Parallel p s t →
      (f e.1 e.2 t).1 = (f e.1 e.2 s).1 ∧ Parallel p (f e.1 e.2 s).2 (f e.1 e.2 t).2)
    (h : Parallel p s t) (screen : Screen) :
    (openEach f es (screen, t)).1 = (openEach f es (screen, s)).1
      ∧ Parallel p (openEach f es (screen, s)).2 (openEach f es (screen, t)).2 := by
  induction es generalizing screen s t with
  | nil => exact ⟨rfl, h⟩
  | cons e es ih =>
    obtain ⟨hcontrol, hnext⟩ := hf e List.mem_cons_self s t h
    rw [openEach_cons, openEach_cons, hcontrol]
    exact ih (fun e' he' => hf e' (List.mem_cons_of_mem _ he')) hnext _

theorem openGated_congr (h : s.SameMemory t) (screen : Screen) : openGated p t screen = openGated p s screen := by
  unfold openGated
  simp only [Preferences.switchOrDefault, h.getSwitch]

end

/-- The sessions show the same, in stores side by side. -/
structure InParallel (s t : Session) : Prop where
  profile : t.profile = s.profile
  screen : t.screen = s.screen
  stores : Parallel s.profile s.stores t.stores

section
variable {s t : Session}

theorem InParallel.openScreen (h : InParallel s t) (hp : s.profile.IsValid) :
    InParallel s.openScreen t.openScreen := by
  obtain ⟨hswitches, hstores⟩ := parallel_openEach (f := openSwitch s.profile)
    s.profile.buttons.switches.entries
    (fun e he s' t' h' => parallel_openBound h' e.1
      (.inl ⟨e.1, .switch, Profile.boundNode?_switch.mpr (Table.get?_eq_some_iff.mpr he)⟩) .switch) h.stores .empty
  obtain ⟨htexts, hstores⟩ := parallel_openEach (f := openText s.profile) s.profile.buttons.texts.entries
    (fun e he s' t' h' => parallel_openBound h' e.1
      (.inl ⟨e.1, .text, hp.boundNode?_of_texts (Table.get?_eq_some_iff.mpr he)⟩) .text) hstores
    (openEach (openSwitch s.profile) s.profile.buttons.switches.entries (.empty, s.stores)).1
  have hopened : t.opened = ((openEach (openText s.profile) s.profile.buttons.texts.entries
      ((openEach (openSwitch s.profile) s.profile.buttons.switches.entries (.empty, s.stores)).1,
        (openEach (openSwitch s.profile) s.profile.buttons.switches.entries (.empty, t.stores)).2))) := by
    rw [opened, h.profile, ← hswitches]
  have hscreen : t.opened.1 = s.opened.1 := by rw [hopened, htexts]; rfl
  have hparallel : Parallel s.profile s.opened.2 t.opened.2 := by rw [hopened]; exact hstores
  refine ⟨h.profile, ?_, hparallel⟩
  show openGated t.profile t.opened.2 t.opened.1 = openGated s.profile s.opened.2 s.opened.1
  rw [h.profile, hscreen, openGated_congr hparallel.memory]

theorem InParallel.reconcile (h : InParallel s t) (key : Key) : InParallel (s.reconcile key) (t.reconcile key) := by
  have hgate : Gate.isOpen? t.profile.buttons.gates t.stores.disk key
      = Gate.isOpen? s.profile.buttons.gates s.stores.disk key := by rw [h.profile, h.stores.isOpen?_eq]
  have hscreen : t.screen.get? key = s.screen.get? key := by rw [h.screen]
  rcases reconcile_alike hgate hscreen with ⟨hs, ht⟩ | ⟨isOpen, c, hs, ht⟩ <;> rw [hs, ht]
  · exact h
  · obtain ⟨-, hcontrol, hmemory⟩ := Gate.reconcile_congr key c isOpen h.stores.memory
    refine ⟨h.profile, ?_, h.stores.next (Gate.saves_reconcile key c s.stores isOpen)
      (Gate.saves_reconcile key c t.stores isOpen) hmemory⟩
    rw [h.screen, hcontrol]

theorem InParallel.foldl (h : InParallel s t) (ks : List Key) :
    InParallel (ks.foldl Session.reconcile s) (ks.foldl Session.reconcile t) := by
  induction ks generalizing s t with
  | nil => exact h
  | cons k ks ih => exact ih (h.reconcile k)

theorem InParallel.resume (h : InParallel s t) : InParallel s.resume t.resume := by
  unfold Session.resume
  rw [h.profile]
  exact h.foldl _

end

/-! ## where controls stand -/

end Session

/-- Every control stands at its own key. -/
def Screen.Keyed (s : Screen) : Prop := ∀ key c, s.get? key = some c → c.key = key

namespace Screen

variable {s : Screen} {c : Control} {key : Key}

theorem keyed_empty : Screen.empty.Keyed := fun _ _ hc => nomatch hc

theorem Keyed.set (h : s.Keyed) (hc : c.key = key) : (s.set key c).Keyed := by
  intro k c' hc'
  rw [get?_set] at hc'
  split at hc'
  next hk => rw [← Option.some.inj hc', hc, hk]
  next => exact h k c' hc'

theorem Keyed.put (h : s.Keyed) (c : Control) : (s.put c).Keyed := h.set rfl

theorem mem_toList : c ∈ s.toList ↔ ∃ key, s.get? key = some c := by
  rw [toList, Table.values, List.mem_map]
  constructor
  · rintro ⟨e, he, rfl⟩
    exact ⟨e.1, Table.get?_eq_some_iff.mpr he⟩
  · rintro ⟨key, hc⟩
    exact ⟨(key, c), Table.get?_eq_some_iff.mp hc, rfl⟩

theorem Keyed.mem_toList (h : s.Keyed) : c ∈ s.toList ↔ s.get? c.key = some c := by
  rw [Screen.mem_toList]
  constructor
  · rintro ⟨key, hc⟩
    rw [h key c hc, hc]
  · intro hc
    exact ⟨_, hc⟩

end Screen

namespace Session

theorem keyed_openEach {α : Type} {f : Key → α → Stores → Control × Stores} (es : List (Key × α)) {screen : Screen}
    (h : screen.Keyed) (s : Stores) : (openEach f es (screen, s)).1.Keyed := by
  induction es generalizing screen s with
  | nil => exact h
  | cons e es ih => exact ih (h.put _) _

theorem keyed_openGated (p : Profile) (s : Stores) {screen : Screen} (h : screen.Keyed) :
    (openGated p s screen).Keyed := by
  unfold openGated
  induction p.buttons.gates.keys generalizing screen with
  | nil => exact h
  | cons k ks ih =>
    rw [List.foldl_cons]
    refine ih ?_
    split
    · exact h
    · exact h.put _

theorem keyed_openScreen (s : Session) : s.openScreen.screen.Keyed := by
  have hswitches := keyed_openEach (f := openSwitch s.profile) s.profile.buttons.switches.entries
    Screen.keyed_empty s.stores
  exact keyed_openGated s.profile s.opened.2
    (keyed_openEach (f := openText s.profile) s.profile.buttons.texts.entries hswitches _)

theorem keyed_reconcile {s : Session} (h : s.screen.Keyed) (key : Key) : (s.reconcile key).screen.Keyed := by
  rcases reconcile_cases s key with heq | ⟨isOpen, c, -, hc, heq⟩
  · rw [heq]
    exact h
  · rw [heq]
    refine h.set ((?_ : _ = c.key).trans (h key c hc))
    cases isOpen with
    | true =>
      show (Gate.letIn key c s.stores).1.key = c.key
      rw [Gate.letIn_control]
    | false => rfl

theorem keyed_foldl {s : Session} (h : s.screen.Keyed) (ks : List Key) : (ks.foldl reconcile s).screen.Keyed := by
  induction ks generalizing s with
  | nil => exact h
  | cons k ks ih => exact ih (keyed_reconcile h k)

end Session

/-! ## below a home directory -/

namespace Disk

variable {d : Disk}

/-- Where a profile is loaded the way to the home directory is there. -/
theorem hosts_of_load {home : Path} {p : Profile} (ht : d.IsTree) (h : Profile.load home d = .ok p) :
    d.Hosts home := by
  have hentry : ∃ e, d.entry (Home.profile home) = .ok e := by
    rw [Profile.load] at h
    split at h
    · cases h
    · split at h
      next => cases h
      next text htext =>
        obtain ⟨content, mode, he⟩ := entry_of_readText htext
        exact ⟨_, he⟩
  obtain ⟨e, he⟩ := hentry
  have hsteady : Steady (d.Above (Home.run home)) d (Home.profile home) := steady_of_entry he
  refine ⟨ht, fun x hx hm => hsteady x ?_ hm⟩
  rw [(Home.below_profile home).base, (Home.below_profile home).names, exits_append]
  exact List.mem_append_left _ hx

end Disk

/-- No save of the stores reaches a node: none is one of their files, and the way to none goes up out of a directory
that a save would make. -/
structure Profile.ClearOf (p : Profile) (home : Path) (d : Disk) : Prop where
  apart : ∀ n, p.Reads n → ¬d.IsStore home (d.placeOf n)
  steady : ∀ n, p.Reads n → Steady (d.Above (Home.run home)) d n

theorem Profile.ClearOf.stable {p : Profile} {home : Path} {s : Stores} (h : p.ClearOf home s.disk)
    (hs : s.Housed home) {n : Path} (hn : p.Reads n) : Session.Stable s n :=
  fun _ ht => Node.token?_eq hs.hosts.isTree (ht.grown hs).1 (h.steady n hn) (h.apart n hn)

theorem Profile.apart_of_readNodes {p : Profile} {home : Path} {d : Disk}
    (h : ∀ n ∈ p.readNodes, ∀ q ∈ Home.files home, d.placeOf n ≠ d.placeOf q) (n : Path) (hn : p.Reads n) :
    ¬d.IsStore home (d.placeOf n) := by
  rintro ⟨q, hq, heq⟩
  exact h n hn.mem_readNodes q hq heq

theorem Profile.steady_of_readNodes {p : Profile} {home : Path} {d : Disk}
    (h : ∀ n ∈ p.readNodes, ∀ x ∈ exits (d.base n) n.names,
      x ∈ Disk.visits (d.base (Home.run home)) (Home.run home).names → d.isDirectoryAt x = true) (n : Path)
    (hn : p.Reads n) : Steady (d.Above (Home.run home)) d n :=
  h n hn.mem_readNodes

namespace CommandLine

open Daemon (Machine)
open Session (InParallel)
open Stores (Parallel)

variable {home : Path} {m : Machine} {p : Profile} {s : Preferences} {pending : Pending} {d : Device} {key raw : String}
  {c : Control} {v : Value}

/-! ## opening the panel -/

theorem saves_openPanel (p : Profile) (s : Preferences) (pending : Pending) (d : Device) :
    Stores.Saves ⟨s, pending, d⟩ (openPanel p s pending d).stores := by
  have hresume := Session.saves_foldl (Session.start p ⟨s, pending, d⟩ .inline).openScreen p.buttons.gates.keys
  exact (Session.saves_opened (.start p ⟨s, pending, d⟩ .inline)).trans hresume

theorem keyed_openPanel (p : Profile) (s : Preferences) (pending : Pending) (d : Device) :
    (openPanel p s pending d).screen.Keyed :=
  Session.keyed_foldl (Session.keyed_openScreen _) _

theorem device_openPanel_detached (p : Profile) (s : Preferences) (pending : Pending) (d : Device) :
    (openPanel p s.detached pending.detached d).stores.device = d :=
  ((saves_openPanel p s.detached pending.detached d).inMemory ⟨rfl, rfl⟩).1

/-- Without files the same panel is opened. -/
theorem screen_openPanel_detached (hp : p.IsValid) (hstable : ∀ n, p.Reads n → Session.Stable ⟨s, pending, d⟩ n) :
    (openPanel p s.detached pending.detached d).screen = (openPanel p s pending d).screen := by
  have hparallel : Parallel p ⟨s, pending, d⟩ ⟨s.detached, pending.detached, d⟩ :=
    Stores.parallel_inMemory ⟨rfl, rfl⟩ ⟨rfl, rfl⟩ rfl hstable
  have hstart : InParallel (.start p ⟨s, pending, d⟩ .inline)
      (.start p ⟨s.detached, pending.detached, d⟩ .inline) := ⟨rfl, rfl, hparallel⟩
  exact (hstart.openScreen hp).resume.screen

/-- The panel in which a change is made. -/
def panel (p : Profile) (s : Preferences) (m : Machine) : Session :=
  openPanel p s (Pending.beside s.path m.disk) m.device

theorem loadDevice_ok (h : loadDevice home m.disk = .ok (p, s)) :
    Profile.load home m.disk = .ok p ∧ Preferences.openAt home m.disk = .ok s := by
  unfold loadDevice loadProfile at h
  cases hp : Profile.load home m.disk with
  | error e =>
    rw [hp] at h
    cases h
  | ok p' =>
    cases hs : Preferences.openAt home m.disk with
    | error e =>
      rw [hp, hs] at h
      cases h
    | ok s' =>
      rw [hp, hs] at h
      cases h
      exact ⟨rfl, rfl⟩

/-- What is shown without files is the panel in which a change is made. -/
theorem screen_shown (ht : m.disk.IsTree) (hload : loadDevice home m.disk = .ok (p, s))
    (hpending : Pending.loadAt home m.disk = .ok pending) (hclear : p.ClearOf home m.disk) :
    (openPanel p s.detached pending.detached m.device).screen = (panel p s m).screen := by
  obtain ⟨hprofile, hopen⟩ := loadDevice_ok hload
  have hpath : s.path = some (Home.preferences home) := by
    rcases Preferences.openFile_ok hopen with ⟨-, heq⟩ | ⟨hpath, -⟩
    · rw [heq]
    · exact hpath
  have hbeside : Pending.beside s.path m.disk = pending := by
    rw [hpath]
    exact Pending.beside_of_load hpending
  have hhoused : Stores.Housed home ⟨s, pending, m.device⟩ :=
    ⟨Disk.hosts_of_load ht hprofile, hpath, Pending.path_of_loadFile hpending⟩
  rw [panel, hbeside]
  exact screen_openPanel_detached (Profile.of_load hprofile).1 fun n hn => hclear.stable hhoused hn

/-! ## showing it -/

/-- Showing the panel changes nothing, and asks for nothing. -/
theorem machine_runShow (home : Path) (json : Bool) (m : Machine) : (runShow home json m).2 = m := by
  unfold runShow withDevice
  cases loadDevice home m.disk with
  | error t => rfl
  | ok loaded =>
    dsimp only
    cases Pending.loadAt home m.disk with
    | error e => rfl
    | ok pending =>
      show { m with device := (openPanel loaded.1 loaded.2.detached pending.detached m.device).stores.device } = m
      rw [device_openPanel_detached]

theorem runShow_loaded (hload : loadDevice home m.disk = .ok (p, s))
    (hpending : Pending.loadAt home m.disk = .ok pending) (json : Bool) : runShow home json m
      = (printed (panelLines p json s.savedAt (openPanel p s.detached pending.detached m.device).screen), m) := by
  have hmachine := machine_runShow home json m
  unfold runShow withDevice at hmachine ⊢
  rw [hload] at hmachine ⊢
  dsimp only at hmachine ⊢
  rw [hpending] at hmachine ⊢
  exact Prod.ext rfl hmachine

theorem mem_panelRows {screen : Screen} (h : screen.Keyed) {row : List String} :
    row ∈ panelRows p screen ↔ ∃ c, screen.get? c.key = some c ∧ row = panelRow p c := by
  rw [panelRows, List.mem_map]
  constructor
  · rintro ⟨c, hc, rfl⟩
    exact ⟨c, h.mem_toList.mp hc, rfl⟩
  · rintro ⟨c, hc, rfl⟩
    exact ⟨c, h.mem_toList.mpr hc, rfl⟩

theorem yesNo_eq_no {b : Bool} : yesNo b = "no" ↔ b = false := by
  cases b <;> decide

theorem kindName_inj {k k' : ControlKind} : kindName k = kindName k' ↔ k = k' := by
  cases k <;> cases k' <;> decide

/-- A setting has a control where it has a row. -/
theorem get?_eq_none_iff_panelRows {screen : Screen} (h : screen.Keyed) {key : Key} :
    screen.get? key = none ↔ ∀ row ∈ panelRows p screen, row[0]? ≠ some key := by
  constructor
  · intro hnone row hrow heq
    obtain ⟨c, hc, rfl⟩ := (mem_panelRows h).mp hrow
    have hk : c.key = key := Option.some.inj heq
    rw [hk, hnone] at hc
    cases hc
  · intro hrows
    cases hc : screen.get? key with
    | none => rfl
    | some c =>
      have hk : c.key = key := h key c hc
      exact absurd (congrArg some hk) (hrows _ ((mem_panelRows h).mpr ⟨c, hk ▸ hc, rfl⟩))

/-- A row says of what kind the control is and whether it is disabled. -/
theorem control_of_panelRow {screen : Screen} (h : screen.Keyed) {row : List String} (hrow : row ∈ panelRows p screen)
    {key : Key} (hfirst : row[0]? = some key) {kind : ControlKind} (hkind : row[1]? = some (kindName kind)) :
    ∃ c, screen.get? key = some c ∧ c.kind = kind ∧ (row[2]? = some "no" ↔ c.enabled = false) := by
  obtain ⟨c, hc, rfl⟩ := (mem_panelRows h).mp hrow
  have hk : c.key = key := Option.some.inj hfirst
  have hno : (panelRow p c)[2]? = some "no" ↔ yesNo c.enabled = "no" :=
    ⟨fun heq => Option.some.inj heq, fun heq => congrArg some heq⟩
  exact ⟨c, hk ▸ hc, kindName_inj.mp (Option.some.inj hkind), hno.trans yesNo_eq_no⟩

/-! ## changing it -/

/-- The trouble with a setting that the panel does not know. -/
def unknown (key : Key) : Trouble := .plain ("unknown setting '" ++ key ++ "'")

/-- The trouble with a setting that is disabled. -/
def disabled (key : Key) : Trouble := .plain (Rejection.disabled key).message

/-- The trouble with a value that its node did not take. -/
def unwritten (key : Key) (why : String) : Trouble :=
  .plain (key ++ " saved but the node was not updated: " ++ why)

theorem unknown_ne_disabled (key k : Key) : unknown key ≠ disabled k := by
  intro h
  have hhead : ("unknown setting '" ++ key ++ "'").toList.head? = ("'" ++ k ++ "' is disabled").toList.head? :=
    congrArg (fun t : Trouble => t.message.toList.head?) h
  simp [String.toList_append] at hhead

/-- The trouble with a node takes more words than the others. -/
theorem unwritten_ne_plain (key : Key) (why : String) {message : String} (h : message.length < key.length + 37) :
    unwritten key why ≠ .plain message := by
  intro heq
  have hmessage : key ++ " saved but the node was not updated: " ++ why = message := congrArg Trouble.message heq
  have hmiddle : " saved but the node was not updated: ".length = 37 := by decide
  rw [← hmessage, String.length_append, String.length_append, hmiddle] at h
  omega

theorem unwritten_ne_unknown (key : Key) (why : String) : unwritten key why ≠ unknown key := by
  refine unwritten_ne_plain key why ?_
  have hfirst : "unknown setting '".length = 17 := by decide
  have hlast : "'".length = 1 := by decide
  rw [String.length_append, String.length_append, hfirst, hlast]
  omega

theorem unwritten_ne_disabled (key : Key) (why : String) : unwritten key why ≠ disabled key := by
  refine unwritten_ne_plain key why ?_
  have hfirst : "'".length = 1 := by decide
  have hlast : "' is disabled".length = 13 := by decide
  show ("'" ++ key ++ "' is disabled").length < _
  rw [String.length_append, String.length_append, hfirst, hlast]
  omega

theorem unread_ne_unknown (s : String) (key : Key) :
    Trouble.plain ("expected true/false, got '" ++ s ++ "'") ≠ unknown key := by
  intro h
  have hhead : ("expected true/false, got '" ++ s ++ "'").toList.head?
      = ("unknown setting '" ++ key ++ "'").toList.head? :=
    congrArg (fun t : Trouble => t.message.toList.head?) h
  simp [String.toList_append] at hhead

theorem parseValue_error {kind : ControlKind} {t : Trouble} (h : parseValue kind raw = .error t) :
    ∃ s, t = .plain ("expected true/false, got '" ++ s ++ "'") := by
  cases kind with
  | text => cases h
  | switch =>
    unfold parseValue parseSwitch at h
    dsimp only at h
    split at h
    · cases h
    · split at h
      · cases h
      · cases h
        exact ⟨_, rfl⟩

theorem showing_of_parseValue (h : parseValue c.kind raw = .ok v) : ∃ c', c.showing? v = some c' := by
  cases hk : c.kind with
  | text =>
    rw [hk] at h
    cases h
    exact ⟨_, if_pos hk⟩
  | switch =>
    rw [hk, parseValue] at h
    cases hs : parseSwitch raw with
    | error t =>
      rw [hs] at h
      cases h
    | ok on =>
      rw [hs] at h
      cases h
      exact ⟨_, if_pos hk⟩

section
variable (hload : loadDevice home m.disk = .ok (p, s)) (quiet : Bool)
include hload

theorem runSet_of_none (h : (panel p s m).screen.get? key = none) :
    (runSet home key raw quiet m).1 = .error (unknown key) := by
  unfold runSet withDevice
  rw [hload]
  dsimp only
  rw [show (openPanel p s (Pending.beside s.path m.disk) m.device).screen.get? key = none from h]
  rfl

theorem runSet_of_unparsed {t : Trouble} (h : (panel p s m).screen.get? key = some c)
    (hv : parseValue c.kind raw = .error t) : (runSet home key raw quiet m).1 = .error t := by
  unfold runSet withDevice
  rw [hload]
  dsimp only
  rw [show (openPanel p s (Pending.beside s.path m.disk) m.device).screen.get? key = some c from h]
  dsimp only
  rw [hv]

/-- A value that can be read leads to a change of the panel. -/
theorem runSet_of_parsed (h : (panel p s m).screen.get? key = some c) (hv : parseValue c.kind raw = .ok v) :
    (∃ text, ((panel p s m).apply key v).1 = .applied ∧ (runSet home key raw quiet m).1 = .ok text)
      ∨ (∃ why, ((panel p s m).apply key v).1 = .rejected why
          ∧ (runSet home key raw quiet m).1 = .error (.plain why.message))
      ∨ ∃ e, ((panel p s m).apply key v).1 = .writeFailed e
          ∧ (runSet home key raw quiet m).1 = .error (unwritten key e.message) := by
  unfold runSet withDevice
  rw [hload]
  dsimp only
  rw [show (openPanel p s (Pending.beside s.path m.disk) m.device).screen.get? key = some c from h]
  dsimp only
  rw [hv]
  dsimp only
  unfold panel
  cases (openPanel p s (Pending.beside s.path m.disk) m.device).apply key v with
  | mk outcome t =>
    cases outcome with
    | applied => exact .inl ⟨_, rfl, rfl⟩
    | rejected why => exact .inr (.inl ⟨why, rfl, rfl⟩)
    | writeFailed e => exact .inr (.inr ⟨e, rfl, rfl⟩)

theorem runSet_eq_unknown :
    (runSet home key raw quiet m).1 = .error (unknown key) ↔ (panel p s m).screen.get? key = none := by
  cases hc : (panel p s m).screen.get? key with
  | none => exact iff_of_true (runSet_of_none hload quiet hc) rfl
  | some c =>
    refine iff_of_false (fun heq => ?_) (Option.some_ne_none c)
    cases hv : parseValue c.kind raw with
    | error t =>
      obtain ⟨s, rfl⟩ := parseValue_error hv
      rw [runSet_of_unparsed hload quiet hc hv] at heq
      exact unread_ne_unknown s key (Except.error.inj heq)
    | ok v =>
      rcases runSet_of_parsed hload quiet hc hv with ⟨text, -, hrun⟩ | ⟨why, hwhy, hrun⟩ | ⟨e, -, hrun⟩ <;>
        rw [hrun] at heq
      · cases heq
      · obtain ⟨-, rfl⟩ := Session.rejected_of_showing? hc (showing_of_parseValue hv) hwhy
        exact unknown_ne_disabled key key (Except.error.inj heq).symm
      · exact unwritten_ne_unknown key e.message (Except.error.inj heq)

theorem runSet_eq_disabled (h : (panel p s m).screen.get? key = some c) (hv : parseValue c.kind raw = .ok v) :
    (runSet home key raw quiet m).1 = .error (disabled key) ↔ c.enabled = false := by
  have happly (hoff : c.enabled = false) : ((panel p s m).apply key v).1 = .rejected (.disabled key) := by
    rw [Session.apply_of_disabled h hoff]
  rcases runSet_of_parsed hload quiet h hv with ⟨text, hout, hrun⟩ | ⟨why, hwhy, hrun⟩ | ⟨e, hout, hrun⟩
  · refine iff_of_false (fun heq => ?_) fun hoff => ?_
    · rw [hrun] at heq
      cases heq
    · rw [happly hoff] at hout
      cases hout
  · obtain ⟨hoff, rfl⟩ := Session.rejected_of_showing? h (showing_of_parseValue hv) hwhy
    exact iff_of_true hrun hoff
  · refine iff_of_false (fun heq => ?_) fun hoff => ?_
    · rw [hrun] at heq
      exact unwritten_ne_disabled key e.message (Except.error.inj heq)
    · rw [happly hoff] at hout
      cases hout

/-- A change that fails says why in one sentence. -/
theorem plain_of_runSet {t : Trouble} (h : (runSet home key raw quiet m).1 = .error t) :
    ∃ message, t = .plain message := by
  cases hc : (panel p s m).screen.get? key with
  | none =>
    rw [runSet_of_none hload quiet hc] at h
    exact ⟨_, (Except.error.inj h).symm⟩
  | some c =>
    cases hv : parseValue c.kind raw with
    | error t' =>
      obtain ⟨s, rfl⟩ := parseValue_error hv
      rw [runSet_of_unparsed hload quiet hc hv] at h
      exact ⟨_, (Except.error.inj h).symm⟩
    | ok v =>
      rcases runSet_of_parsed hload quiet hc hv with ⟨text, -, hrun⟩ | ⟨why, -, hrun⟩ | ⟨e, -, hrun⟩ <;>
        rw [hrun] at h
      · cases h
      · exact ⟨_, (Except.error.inj h).symm⟩
      · exact ⟨_, (Except.error.inj h).symm⟩

end

/-! ## the command line -/

theorem text_plain (message : String) : (Trouble.plain message).text = "Error: " ++ message ++ "\n" := by
  show "Error: " ++ message ++ "" ++ "\n" = _
  rw [String.append_empty]

theorem text_plain_inj {message message' : String} :
    (Trouble.plain message).text = (Trouble.plain message').text ↔ message = message' := by
  rw [text_plain, text_plain, String.append_left_inj, String.append_right_inj]

theorem read_show (json : Bool) : Command.read ("show" :: if json then ["--json"] else []) = .ok (.show json) := by
  cases json <;> decide +kernel

theorem read_set (hkey : isDashed key = false) (hraw : isDashed raw = false) :
    Command.read ["set", key, raw] = .ok (.set key raw false) := by
  have hword {w : String} (hw : isDashed w = false) : w ≠ "--" := by
    rintro rfl
    revert hw
    decide
  show readSet [key, raw] = _
  unfold readSet
  simp [Shape.sort, Words.none, hword hkey, hword hraw, hkey, hraw, pair, Words.has, bind, Except.bind, pure,
    Except.pure]

/-- What a change that fails leaves on the command line tells why it failed. -/
theorem output_set (hload : loadDevice home m.disk = .ok (p, s)) (hkey : isDashed key = false)
    (hraw : isDashed raw = false) (message : String) :
    (run home ["set", key, raw] m).1 = ⟨1, "", (Trouble.plain message).text⟩
      ↔ (runSet home key raw false m).1 = .error (.plain message) := by
  have hplain := @plain_of_runSet home m p s key raw hload false
  unfold run
  rw [read_set hkey hraw]
  dsimp only [Command.run]
  cases hrun : runSet home key raw false m with
  | mk r m' =>
    rw [hrun] at hplain
    cases r with
    | ok text =>
      refine iff_of_false (fun heq => ?_) (fun heq => ?_)
      · cases congrArg Output.code heq
      · cases heq
    | error t =>
      obtain ⟨message', rfl⟩ := hplain rfl
      constructor
      · intro heq
        rw [text_plain_inj.mp (congrArg Output.stderr heq)]
      · intro heq
        rw [Except.error.inj heq]

/-- What is shown is printed, and nothing else happens. -/
theorem run_show (hload : loadDevice home m.disk = .ok (p, s))
    (hpending : Pending.loadAt home m.disk = .ok pending) (json : Bool) :
    run home ("show" :: if json then ["--json"] else []) m
      = (⟨0, String.join ((panelLines p json s.savedAt
          (openPanel p s.detached pending.detached m.device).screen).map (· ++ "\n")), ""⟩, m) := by
  unfold run
  rw [read_show]
  dsimp only [Command.run]
  rw [runShow_loaded hload hpending]
  rfl

/-- **The panel that is shown is the one that a change finds.**  If no save reaches a node, showing it prints the
rows of the panel in which a change is made, and leaves the machine as it was.  A grid and a document hold just those
rows.  A change of a setting is refused as unknown if the setting has no row, and a value that can be read is refused as
disabled if its row says so. -/
theorem show_previews_set (ht : m.disk.IsTree) (hload : loadDevice home m.disk = .ok (p, s))
    (hpending : Pending.loadAt home m.disk = .ok pending) (hclear : p.ClearOf home m.disk) :
    let screen := (panel p s m).screen
    let rows := panelRows p screen
    (∀ json, run home ("show" :: if json then ["--json"] else []) m
        = (⟨0, String.join ((panelLines p json s.savedAt screen).map (· ++ "\n")), ""⟩, m))
      ∧ (∃ text note, (run home ["show"] m).1.stdout = text ++ "\n" ++ (note ++ "\n")
        ∧ Text.gridLines text = rows.flatMap Text.rowTexts)
      ∧ (∃ text, (run home ["show", "--json"] m).1.stdout = text ++ "\n"
        ∧ Json.read (rowsReader panelHeadings) text = .ok rows)
      ∧ ∀ key raw, isDashed key = false → isDashed raw = false →
        let answer := (run home ["set", key, raw] m).1
        (answer = ⟨1, "", (unknown key).text⟩ ↔ ∀ row ∈ rows, row[0]? ≠ some key)
          ∧ ∀ row ∈ rows, row[0]? = some key → ∀ kind v, row[1]? = some (kindName kind) →
            parseValue kind raw = .ok v → (answer = ⟨1, "", (disabled key).text⟩ ↔ row[2]? = some "no") := by
  intro screen rows
  have hkeyed : screen.Keyed := keyed_openPanel p s _ m.device
  have hshow (json : Bool) : run home ("show" :: if json then ["--json"] else []) m
      = (⟨0, String.join ((panelLines p json s.savedAt screen).map (· ++ "\n")), ""⟩, m) := by
    rw [run_show hload hpending, screen_shown ht hload hpending hclear]
  refine ⟨hshow, ?_, ?_, fun key raw hkey hraw => ⟨?_, ?_⟩⟩
  · obtain ⟨text, note, hlines, hread⟩ := panelLines_grid p s.savedAt screen
    refine ⟨text, note, ?_, hread⟩
    rw [show run home ["show"] m = _ from hshow false, hlines]
    simp [String.join]
  · obtain ⟨text, hlines, hread⟩ := panelLines_json p s.savedAt screen
    refine ⟨text, ?_, hread⟩
    rw [show run home ["show", "--json"] m = _ from hshow true, hlines]
    simp [String.join]
  · exact (output_set hload hkey hraw _).trans
      ((runSet_eq_unknown hload false).trans (get?_eq_none_iff_panelRows hkeyed))
  · intro row hrow hfirst kind v hkind hv
    obtain ⟨c, hc, rfl, hoff⟩ := control_of_panelRow hkeyed hrow hfirst hkind
    exact (output_set hload hkey hraw _).trans ((runSet_eq_disabled hload false hc hv).trans hoff.symm)

/-- Two settings behind gates; where the second gate's node is differs. -/
def gatesAt (node : Path) : Profile :=
  { Profile.builtin with
    buttons := { Buttons.standard with gates := .ofList [("d", ⟨⟨"g"⟩, "1"⟩), ("e", ⟨node, "1"⟩)] } }

/-- The first setting was switched on. -/
def firstOn : Preferences :=
  ⟨some (Home.preferences ⟨"home"⟩), .ofList [("d", .switch true)], some Preferences.Use.midday⟩

/-- A machine with them, on which both nodes hold a zero. -/
def closedAt (node : Path) : Machine :=
  ⟨⟨⟨.ofList [(["home"], .directory Disk.directoryMode), (["home", ".parts"], .directory Disk.directoryMode),
      (["home", ".parts", "profile.yaml"], .file (gatesAt node).print.toUTF8 Disk.fileMode),
      (["home", ".parts", "prefs.json"],
        .file (Preferences.print Preferences.Use.midday firstOn.values).toUTF8 Disk.fileMode),
      (["g"], .file "0".toUTF8 Disk.fileMode), (["w"], .file "0".toUTF8 Disk.fileMode)], []⟩,
    Preferences.Use.midday, []⟩, none, 0, 0⟩

section
variable {node : Path}

theorem load_closedAt (hvalid : (gatesAt node).IsValid) :
    loadDevice ⟨"home"⟩ (closedAt node).disk = .ok (gatesAt node, firstOn) := by
  have hcodes : (gatesAt node).keys.HasCodes := show Profile.builtin.keys.HasCodes from ⟨by decide, by decide⟩
  have hprofile : Profile.load ⟨"home"⟩ (closedAt node).disk = .ok (gatesAt node) :=
    @Profile.load_of_entry _ _ _ Disk.fileMode hvalid hcodes rfl
  have hopen : Preferences.openAt ⟨"home"⟩ (closedAt node).disk = .ok firstOn :=
    @Preferences.openFile_of_entry _ _ _ _ Disk.fileMode Preferences.Use.isValid_midday rfl
  rw [loadDevice, loadProfile, hprofile, hopen]
  rfl

theorem loadPending_closedAt :
    Pending.loadAt ⟨"home"⟩ (closedAt node).disk = .ok ⟨some (Home.pending ⟨"home"⟩), .empty⟩ :=
  Pending.loadFile_of_absent rfl

end

/-- The second setting is shown as disabled, in a grid and in a document, and a change finds it so. -/
theorem show_previews_set_closed :
    let m := closedAt ⟨"w"⟩
    let rows := [["d", "switch", "no", "false", "-"], ["e", "switch", "no", "false", "-"]]
    (run ⟨"home"⟩ ["show"] m).2 = m
      ∧ (∃ text note, (run ⟨"home"⟩ ["show"] m).1.stdout = text ++ "\n" ++ (note ++ "\n") ∧ Text.gridLines text = rows)
      ∧ (∃ text, (run ⟨"home"⟩ ["show", "--json"] m).1.stdout = text ++ "\n"
        ∧ Json.read (rowsReader panelHeadings) text = .ok rows)
      ∧ (run ⟨"home"⟩ ["set", "e", "true"] m).1 = ⟨1, "", (disabled "e").text⟩
      ∧ (run ⟨"home"⟩ ["set", "x", "true"] m).1 = ⟨1, "", (unknown "x").text⟩ := by
  intro m rows
  have htree : m.disk.IsTree := Disk.isTree_of_entries (by decide +kernel)
  have hclear : (gatesAt ⟨"w"⟩).ClearOf ⟨"home"⟩ m.disk :=
    ⟨Profile.apart_of_readNodes (by decide +kernel), Profile.steady_of_readNodes (by decide +kernel)⟩
  have hrows : panelRows (gatesAt ⟨"w"⟩) (panel (gatesAt ⟨"w"⟩) firstOn m).screen = rows := by decide +kernel
  have htexts : rows.flatMap Text.rowTexts = rows := by decide +kernel
  obtain ⟨hshow, hgrid, hjson, hset⟩ :=
    show_previews_set htree (load_closedAt (by decide +kernel)) loadPending_closedAt hclear
  rw [hrows] at hset hjson
  rw [hrows, htexts] at hgrid
  refine ⟨congrArg Prod.snd (hshow false), hgrid, hjson, ?_, ?_⟩
  · refine ((hset "e" "true" (by decide) (by decide)).2 ["e", "switch", "no", "false", "-"] (by simp [rows]) rfl .switch
      (.switch true) rfl rfl).mpr rfl
  · exact (hset "x" "true" (by decide) (by decide)).1.mpr (by decide)

/-- A node may be spelled by way of the directory that choices are kept in.  While that is missing nobody reads the
node, and the second setting is shown as enabled; a change makes it for the choice of the first, and finds the second
disabled. -/
theorem show_misleads :
    let node : Path := ⟨"home/.parts/run/../../../w"⟩
    let m := closedAt node
    let pending : Pending := ⟨some (Home.pending ⟨"home"⟩), .empty⟩
    let shown := openPanel (gatesAt node) firstOn.detached pending.detached m.device
    m.disk.IsTree
      ∧ loadDevice ⟨"home"⟩ m.disk = .ok (gatesAt node, firstOn)
      ∧ Pending.loadAt ⟨"home"⟩ m.disk = .ok pending
      ∧ (∀ n, (gatesAt node).Reads n → ¬m.disk.IsStore ⟨"home"⟩ (m.disk.placeOf n))
      ∧ (run ⟨"home"⟩ ["show"] m).1.stdout
          = String.join ((panelLines (gatesAt node) false firstOn.savedAt shown.screen).map (· ++ "\n"))
      ∧ panelRows (gatesAt node) shown.screen
        = [["d", "switch", "no", "false", "-"], ["e", "switch", "yes", "false", "-"]]
      ∧ (run ⟨"home"⟩ ["set", "e", "true"] m).1 = ⟨1, "", (disabled "e").text⟩ := by
  intro node m pending shown
  have hload : loadDevice ⟨"home"⟩ m.disk = .ok (gatesAt node, firstOn) := load_closedAt (by decide +kernel)
  refine ⟨Disk.isTree_of_entries (by decide +kernel), hload, loadPending_closedAt,
    Profile.apart_of_readNodes (by decide +kernel), ?_, by decide +kernel, ?_⟩
  · rw [show run ⟨"home"⟩ ["show"] m = _ from run_show hload loadPending_closedAt false]
  · have hc : (panel (gatesAt node) firstOn m).screen.get? "e"
        = some { Control.switch "e" false with enabled := false } := by decide +kernel
    exact (output_set hload (by decide) (by decide) _).mpr ((runSet_eq_disabled hload false hc rfl).mpr rfl)

end CommandLine

end DeviceSettings

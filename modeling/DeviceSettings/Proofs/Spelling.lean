import DeviceSettings.Boot
import DeviceSettings.Proofs.Applying
import DeviceSettings.Proofs.Delivery
import DeviceSettings.Proofs.Path.Spelling
import Mathlib.Data.List.Forall2

/-!
# Spellings in a profile

Two profiles may differ in how they spell their nodes, each node of each table on its own (`Profile.Respelled`).  The
session follows a change by comparing the components of paths, and the system by walking them; both find the same under
every spelling, so a run with the one profile is a run with the other (`Interface.run_respelled`).  Whatever looks at
the profile commutes with changing it (`Session.withProfile`), and results that name a path have a relation of their
own.
-/

namespace DeviceSettings

/-! ## tables -/

namespace Table

set_option linter.unusedSectionVars false

variable {κ α β : Type} [Ord κ] [DecidableEq κ] {r : α → β → Prop} {s : Table κ α} {t : Table κ β}

/-- The same keys, with values that go together. -/
def Alike (r : α → β → Prop) (s : Table κ α) (t : Table κ β) : Prop :=
  List.Forall₂ (fun a b => a.1 = b.1 ∧ r a.2 b.2) s.entries t.entries

section
variable {es : List (κ × α)} {fs : List (κ × β)} (h : List.Forall₂ (fun a b => a.1 = b.1 ∧ r a.2 b.2) es fs)
include h

theorem map_key_eq : fs.map (·.1) = es.map (·.1) := by
  have hkeys : List.Forall₂ Eq (es.map (·.1)) (fs.map (·.1)) :=
    List.forall₂_map_left_iff.mpr (List.forall₂_map_right_iff.mpr (h.imp fun _ _ hab => hab.1))
  rw [List.forall₂_eq_eq_eq] at hkeys
  exact hkeys.symm

theorem find_cases (k : κ) : (find k es = none ∧ find k fs = none)
    ∨ ∃ a b, r a b ∧ find k es = some a ∧ find k fs = some b := by
  induction h with
  | nil => exact .inl ⟨rfl, rfl⟩
  | cons hab _ ih =>
    obtain ⟨hkey, hvalue⟩ := hab
    rw [find, find, ← hkey]
    split
    · exact .inr ⟨_, _, hvalue, rfl, rfl⟩
    · exact ih

end

theorem Alike.keys_eq (h : s.Alike r t) : t.keys = s.keys := map_key_eq h

theorem Alike.get?_cases (h : s.Alike r t) (k : κ) : (s.get? k = none ∧ t.get? k = none)
    ∨ ∃ a b, r a b ∧ s.get? k = some a ∧ t.get? k = some b := find_cases h k

theorem Alike.contains_eq (h : s.Alike r t) (k : κ) : t.contains k = s.contains k := by
  rw [contains, contains]
  rcases h.get?_cases k with ⟨hs, ht⟩ | ⟨a, b, -, hs, ht⟩
  · rw [hs, ht]
    rfl
  · rw [hs, ht]
    rfl

end Table

/-! ## profiles -/

/-- The gates look for the same text in one node. -/
structure Gate.Respelled (g g' : Gate) : Prop where
  node : g.node.Respelled g'.node
  required : g'.required = g.required

/-- The profiles are the same, but for how their nodes are spelled. -/
structure Profile.Respelled (p q : Profile) : Prop where
  version : q.version = p.version
  device : q.device = p.device
  switches : p.buttons.switches.Alike Path.Respelled q.buttons.switches
  texts : p.buttons.texts.Alike Path.Respelled q.buttons.texts
  gates : p.buttons.gates.Alike Gate.Respelled q.buttons.gates
  presence : List.Forall₂ Path.Respelled p.buttons.presence q.buttons.presence
  pocket : q.pocket = { p.pocket with wakeupNode := q.pocket.wakeupNode }
  wakeupNode : Option.Rel Path.Respelled p.pocket.wakeupNode q.pocket.wakeupNode
  search : q.search = p.search
  keys : q.keys = { p.keys with
    fingerprintNode := q.keys.fingerprintNode
    disablerNode := q.keys.disablerNode
    swapperNode := q.keys.swapperNode }
  fingerprintNode : Option.Rel Path.Respelled p.keys.fingerprintNode q.keys.fingerprintNode
  disablerNode : Option.Rel Path.Respelled p.keys.disablerNode q.keys.disablerNode
  swapperNode : Option.Rel Path.Respelled p.keys.swapperNode q.keys.swapperNode
  doze : q.doze = p.doze
  defaults : q.defaults = p.defaults

namespace Profile.Respelled

variable {p q : Profile} (h : p.Respelled q)
include h

theorem boundNode?_cases (key : Key) : (p.boundNode? key = none ∧ q.boundNode? key = none)
    ∨ ∃ m n kind, m.Respelled n ∧ p.boundNode? key = some (m, kind) ∧ q.boundNode? key = some (n, kind) := by
  rw [boundNode?, boundNode?]
  rcases h.switches.get?_cases key with ⟨hp, hq⟩ | ⟨m, n, hnode, hp, hq⟩
  · rcases h.texts.get?_cases key with ⟨hp', hq'⟩ | ⟨m, n, hnode, hp', hq'⟩
    · rw [hp, hq, hp', hq']
      exact .inl ⟨rfl, rfl⟩
    · rw [hp, hq, hp', hq']
      exact .inr ⟨m, n, .text, hnode, rfl, rfl⟩
  · rw [hp, hq]
    exact .inr ⟨m, n, .switch, hnode, rfl, rfl⟩

/-- The settings that are gated on a node are found under any of its spellings. -/
theorem gatedOn_eq {m n : Path} (hnode : m.Respelled n) : q.gatedOn n = p.gatedOn m := by
  refine Table.map_key_eq (r := Gate.Respelled) (List.rel_filter ?_ h.gates)
  rintro ⟨key, gate⟩ ⟨key', gate'⟩ ⟨-, hgate⟩
  have hsame : gate.node.Same m ↔ gate'.node.Same n :=
    ⟨fun hs => hgate.node.same.symm.trans (hs.trans hnode.same),
      fun hs => hgate.node.same.trans (hs.trans hnode.same.symm)⟩
  simp only [decide_eq_true_eq, hsame]

theorem defaultSwitch_eq (key : Key) : q.defaultSwitch key = p.defaultSwitch key := by
  rw [defaultSwitch, defaultSwitch, h.defaults]

theorem defaultText?_eq (key : Key) : q.defaultText? key = p.defaultText? key := by
  rw [defaultText?, defaultText?, h.defaults]

theorem switchOrDefault_eq (s : Preferences) (key : Key) : s.switchOrDefault q key = s.switchOrDefault p key := by
  rw [Preferences.switchOrDefault, Preferences.switchOrDefault, h.defaultSwitch_eq]

theorem textOrDefault?_eq (s : Preferences) (key : Key) : s.textOrDefault? q key = s.textOrDefault? p key := by
  rw [Preferences.textOrDefault?, Preferences.textOrDefault?, h.defaultText?_eq]

theorem watches_eq (key : Key) : q.pocket.watches key = p.pocket.watches key := by
  rw [h.pocket]
  rfl

theorem request_eq (s : Preferences) : q.pocket.request s = p.pocket.request s := by
  rw [h.pocket]
  rfl

theorem suits_eq (key : Key) (v : Value) : q.suits key v = p.suits key v := by
  rw [suits, suits]
  rcases h.boundNode?_cases key with ⟨hp, hq⟩ | ⟨m, n, kind, -, hp, hq⟩
  · rw [hp, hq]
  · rw [hp, hq]
    cases kind with
    | switch => rfl
    | text => rfl

/-- The profiles contradict themselves in the same way, if they do. -/
theorem fault?_eq : q.fault? = p.fault? := by
  have hswitches : q.buttons.switches.contains = p.buttons.switches.contains := funext h.switches.contains_eq
  have htexts : q.buttons.texts.contains = p.buttons.texts.contains := funext h.texts.contains_eq
  have hsuits : q.suits = p.suits := funext fun key => funext (h.suits_eq key)
  rw [fault?, fault?, h.version, h.texts.keys_eq, h.gates.keys_eq, h.defaults, hswitches, htexts, hsuits]

theorem isOpen?_eq (disk : Disk) (key : Key) :
    Gate.isOpen? q.buttons.gates disk key = Gate.isOpen? p.buttons.gates disk key := by
  rcases h.gates.get?_cases key with ⟨hp, hq⟩ | ⟨g, g', hgate, hp, hq⟩
  · rw [Gate.isOpen?, Gate.isOpen?, hp, hq]
  · rw [Gate.isOpen?_eq_map hp, Gate.isOpen?_eq_map hq, hgate.node.token?_eq, hgate.required]

theorem hasButtons_eq (disk : Disk) : q.hasButtons disk = p.hasButtons disk := by
  have hnodes := h.presence
  rw [hasButtons, hasButtons]
  generalize p.buttons.presence = ms at hnodes ⊢
  generalize q.buttons.presence = ns at hnodes ⊢
  induction hnodes with
  | nil => rfl
  | cons hnode _ ih =>
    rw [List.any_cons, List.any_cons, ih, Node.exists_, Node.exists_, hnode.exists_eq]

end Profile.Respelled

/-! ## results -/

/-- The errors differ at most in how they spell the path they name. -/
inductive DeviceError.Respelled : DeviceError → DeviceError → Prop
  | refl (e : DeviceError) : Respelled e e
  | nodeMissing {m n : Path} (h : m.Respelled n) : Respelled (.nodeMissing m) (.nodeMissing n)
  | nodeUnreadable {m n : Path} (h : m.Respelled n) : Respelled (.nodeUnreadable m) (.nodeUnreadable n)
  | nodeUnwritable {m n : Path} (h : m.Respelled n) : Respelled (.nodeUnwritable m) (.nodeUnwritable n)
  | writeFailed {m n : Path} (h : m.Respelled n) (cause : OsError) :
    Respelled (.writeFailed m cause) (.writeFailed n cause)
  | io {m n : Path} (h : m.Respelled n) (cause : OsError) : Respelled (.io m cause) (.io n cause)

/-- Their messages are the same, but for the text of that path. -/
theorem DeviceError.Respelled.message {e e' : DeviceError} (h : e.Respelled e') : e'.message = e.message
    ∨ ∃ (m n : Path) (before after : String), m.Respelled n ∧ e.message = before ++ m.text ++ after
      ∧ e'.message = before ++ n.text ++ after := by
  have hends (text : String) : text = text ++ "" := String.append_empty.symm
  cases h with
  | refl => exact .inl rfl
  | nodeMissing h => exact .inr ⟨_, _, "node missing: ", "", h, hends _, hends _⟩
  | nodeUnreadable h => exact .inr ⟨_, _, "node unreadable: ", "", h, hends _, hends _⟩
  | nodeUnwritable h => exact .inr ⟨_, _, "node unwritable: ", "", h, hends _, hends _⟩
  | writeFailed h cause =>
    exact .inr ⟨_, _, "write to ", " failed: " ++ cause.message, h, String.append_assoc, String.append_assoc⟩
  | io h cause =>
    exact .inr ⟨_, _, "I/O error at ", ": " ++ cause.message, h, String.append_assoc, String.append_assoc⟩

/-- The outcomes differ at most in an error's path. -/
inductive Outcome.Respelled : Outcome → Outcome → Prop
  | applied : Respelled .applied .applied
  | rejected (why : Rejection) : Respelled (.rejected why) (.rejected why)
  | writeFailed {e e' : DeviceError} (h : e.Respelled e') : Respelled (.writeFailed e) (.writeFailed e')

/-! ## nodes -/

theorem Device.perform_congr {s t : Step} (h : ∀ disk, t.run disk = s.run disk) (d : Device) :
    d.perform t = d.perform s := by
  rw [Device.perform, Device.perform, h]

namespace Node

/-- A node took its text both times, or neither time and for the same reason. -/
inductive Respelled : Except DeviceError Unit → Except DeviceError Unit → Prop
  | ok : Respelled (.ok ()) (.ok ())
  | error {e e' : DeviceError} (h : e.Respelled e') : Respelled (.error e) (.error e')

theorem Respelled.toBool_eq {r r' : Except DeviceError Unit} (h : Respelled r r') : r'.toBool = r.toBool := by
  cases h with
  | ok => rfl
  | error => rfl

theorem openError_respelled {m n : Path} (h : m.Respelled n) {denied denied' : DeviceError}
    (hd : denied.Respelled denied') (e : OsError) :
    (openError denied m e).Respelled (openError denied' n e) := by
  cases e with
  | notFound => exact .nodeMissing h
  | permissionDenied => exact hd
  | _ => exact .io h _

/-- A node may be written under any of its spellings. -/
theorem write_respelled {m n : Path} (h : m.Respelled n) (text : String) (d : Device) :
    Respelled (write m text d).1 (write n text d).1 ∧ (write n text d).2 = (write m text d).2 := by
  have hclear (d : Device) : d.perform (.clear n) = d.perform (.clear m) :=
    Device.perform_congr (fun disk => by rw [Step.run, Step.run, h.overwrite_eq]) d
  have hfill (d : Device) : d.perform (.fill n text.toUTF8) = d.perform (.fill m text.toUTF8) :=
    Device.perform_congr (fun disk => by rw [Step.run, Step.run, h.overwrite_eq]) d
  rw [write, write, hclear]
  cases d.perform (.clear m) with
  | mk r d =>
    cases r with
    | error e => exact ⟨.error (openError_respelled h (.nodeUnwritable h) e), rfl⟩
    | ok _ =>
      dsimp only
      rw [hfill]
      cases d.perform (.fill m text.toUTF8) with
      | mk r d =>
        cases r with
        | error e => exact ⟨.error (.writeFailed h e), rfl⟩
        | ok _ => exact ⟨.ok, rfl⟩

end Node

/-! ## sessions -/

namespace Session

variable {s : Session} {q : Profile}

/-- The session with another profile. -/
def withProfile (s : Session) (q : Profile) : Session := { s with profile := q }

theorem profile_withProfile (s : Session) (q : Profile) : (s.withProfile q).profile = q := rfl

theorem stores_withProfile (s : Session) (q : Profile) : (s.withProfile q).stores = s.stores := rfl

theorem screen_withProfile (s : Session) (q : Profile) : (s.withProfile q).screen = s.screen := rfl

theorem openSwitch_respelled {p : Profile} (h : p.Respelled q) (key : Key) (m n : Path) (s : Stores)
    (hn : m.Respelled n) : openSwitch q key n s = openSwitch p key m s := by
  rw [openSwitch_eq, openSwitch_eq, hn.token?_eq, h.switchOrDefault_eq]

theorem openText_respelled {p : Profile} (h : p.Respelled q) (key : Key) (m n : Path) (s : Stores)
    (hn : m.Respelled n) : openText q key n s = openText p key m s := by
  rw [openText_eq, openText_eq, hn.token?_eq, h.textOrDefault?_eq]

theorem openEach_alike {α β : Type} {r : α → β → Prop} {f : Key → α → Stores → Control × Stores}
    {g : Key → β → Stores → Control × Stores} (hfg : ∀ key a b s, r a b → g key b s = f key a s) {t : Table Key α}
    {t' : Table Key β} (h : t.Alike r t') (at_ : Screen × Stores) :
    openEach g t'.entries at_ = openEach f t.entries at_ := by
  rw [Table.Alike] at h
  obtain ⟨screen, s⟩ := at_
  generalize t.entries = es at h ⊢
  generalize t'.entries = es' at h ⊢
  induction h generalizing screen s with
  | nil => rfl
  | @cons e e' es es' he _ ih =>
    obtain ⟨hkey, hvalue⟩ := he
    rw [openEach_cons, openEach_cons, ← hkey, hfg _ _ _ _ hvalue]
    exact ih _ _

theorem opened_withProfile (h : s.profile.Respelled q) : (s.withProfile q).opened = s.opened := by
  show openEach (openText q) q.buttons.texts.entries
    (openEach (openSwitch q) q.buttons.switches.entries (.empty, s.stores)) = s.opened
  rw [openEach_alike (openSwitch_respelled h) h.switches, openEach_alike (openText_respelled h) h.texts]
  rfl

theorem openGated_respelled {p : Profile} (h : p.Respelled q) : openGated q = openGated p := by
  funext stores screen
  rw [openGated, openGated, h.gates.keys_eq]
  simp only [h.switchOrDefault_eq]

theorem openScreen_withProfile (h : s.profile.Respelled q) :
    (s.withProfile q).openScreen = s.openScreen.withProfile q := by
  rw [openScreen_eq, openScreen_eq, opened_withProfile h, profile_withProfile, openGated_respelled h]
  rfl

theorem reconcile_withProfile (h : s.profile.Respelled q) (key : Key) :
    (s.withProfile q).reconcile key = (s.reconcile key).withProfile q := by
  rw [reconcile, reconcile, profile_withProfile, stores_withProfile, screen_withProfile, h.isOpen?_eq]
  cases Gate.isOpen? s.profile.buttons.gates s.stores.disk key with
  | none => rfl
  | some isOpen =>
    cases s.screen.get? key with
    | none => rfl
    | some c => rfl

theorem foldl_withProfile (h : s.profile.Respelled q) (ks : List Key) :
    ks.foldl reconcile (s.withProfile q) = (ks.foldl reconcile s).withProfile q := by
  induction ks generalizing s with
  | nil => rfl
  | cons k ks ih =>
    rw [List.foldl_cons, List.foldl_cons, reconcile_withProfile h]
    exact ih ((profile_reconcile s k).symm ▸ h)

theorem resume_withProfile (h : s.profile.Respelled q) : (s.withProfile q).resume = s.resume.withProfile q := by
  rw [resume, resume, profile_withProfile, h.gates.keys_eq]
  exact foldl_withProfile h _

theorem request_withProfile (s : Session) (q : Profile) (r : Request) :
    (s.withProfile q).request r = (s.request r).withProfile q := by
  obtain ⟨profile, stores, screen, dispatch, waiting, delivered⟩ := s
  cases dispatch with
  | inline => rfl
  | deferred => rfl

theorem checkPocket_withProfile (h : s.profile.Respelled q) (key : Key) :
    (s.withProfile q).checkPocket key = (s.checkPocket key).withProfile q := by
  rw [checkPocket, checkPocket, profile_withProfile, stores_withProfile, h.watches_eq, h.request_eq,
    request_withProfile]
  split
  · rfl
  · rfl

theorem writeNode_withProfile (h : s.profile.Respelled q) (key : Key) (v : Value) :
    Node.Respelled (s.writeNode key v).1 ((s.withProfile q).writeNode key v).1
      ∧ ((s.withProfile q).writeNode key v).2 = (s.writeNode key v).2.withProfile q := by
  rw [writeNode, writeNode, profile_withProfile, stores_withProfile]
  rcases h.boundNode?_cases key with ⟨hp, hq⟩ | ⟨m, n, kind, hnode, hp, hq⟩
  · rw [hp, hq]
    exact ⟨.ok, rfl⟩
  · obtain ⟨hresult, hdevice⟩ := Node.write_respelled hnode v.token s.stores.device
    rw [hp, hq]
    dsimp only
    rw [hdevice]
    exact ⟨hresult, rfl⟩

theorem dependents_withProfile (h : s.profile.Respelled q) (key : Key) :
    (s.withProfile q).dependents key = s.dependents key := by
  rw [dependents, dependents, profile_withProfile]
  rcases h.boundNode?_cases key with ⟨hp, hq⟩ | ⟨m, n, kind, hnode, hp, hq⟩
  · rw [hp, hq]
  · rw [hp, hq]
    exact h.gatedOn_eq hnode

theorem enter_withProfile (h : s.profile.Respelled q) (key : Key) (v : Value) :
    Node.Respelled (s.enter key v).1 ((s.withProfile q).enter key v).1
      ∧ ((s.withProfile q).enter key v).2 = (s.enter key v).2.withProfile q :=
  @writeNode_withProfile { s with stores := s.stores.put key v } q h key v

theorem commit_withProfile (h : s.profile.Respelled q) (key : Key) (v : Value) :
    Outcome.Respelled (s.commit key v).1 ((s.withProfile q).commit key v).1
      ∧ ((s.withProfile q).commit key v).2 = (s.commit key v).2.withProfile q := by
  obtain ⟨hresult, hsession⟩ := enter_withProfile h key v
  have hprofile := profile_enter s key v
  rw [commit, commit]
  generalize s.enter key v = a at hresult hsession hprofile ⊢
  generalize (s.withProfile q).enter key v = b at hresult hsession ⊢
  obtain ⟨r, t⟩ := a
  obtain ⟨r', t'⟩ := b
  obtain rfl : t' = t.withProfile q := hsession
  replace hprofile : t.profile = s.profile := hprofile
  rw [← hprofile] at h
  cases hresult with
  | error he => exact ⟨.writeFailed he, rfl⟩
  | ok =>
    refine ⟨.applied, ?_⟩
    dsimp only
    have hafter : ((t.dependents key).foldl reconcile t).profile.Respelled q := by
      rw [profile_foldl_reconcile]
      exact h
    rw [dependents_withProfile h, foldl_withProfile h, checkPocket_withProfile hafter]

theorem apply_withProfile (h : s.profile.Respelled q) (key : Key) (v : Value) :
    Outcome.Respelled (s.apply key v).1 ((s.withProfile q).apply key v).1
      ∧ ((s.withProfile q).apply key v).2 = (s.apply key v).2.withProfile q := by
  rw [apply, apply, screen_withProfile]
  cases s.screen.get? key with
  | none => exact ⟨.rejected _, rfl⟩
  | some c =>
    dsimp only
    cases c.enabled with
    | false => exact ⟨.rejected _, rfl⟩
    | true =>
      rw [if_neg (by simp), if_neg (by simp)]
      cases c.showing? v with
      | none => exact ⟨.rejected _, rfl⟩
      | some c' => exact @commit_withProfile { s with screen := s.screen.set key c' } q h key v

theorem use_withProfile (h : s.profile.Respelled q) (u : Use) :
    List.Forall₂ Outcome.Respelled (s.use u).1 ((s.withProfile q).use u).1
      ∧ ((s.withProfile q).use u).2 = (s.use u).2.withProfile q := by
  cases u with
  | openScreen => exact ⟨.nil, openScreen_withProfile h⟩
  | resume => exact ⟨.nil, resume_withProfile h⟩
  | change key v =>
    obtain ⟨houtcome, hsession⟩ := apply_withProfile h key v
    exact ⟨.cons houtcome .nil, hsession⟩
  | outside f => exact ⟨.nil, rfl⟩

end Session

/-! ## booting -/

namespace Boot

/-- The same value was or was not written to its node. -/
structure Restored.Respelled (r r' : Restored) : Prop where
  key : r'.key = r.key
  node : r.node.Respelled r'.node
  value : r'.value = r.value
  written : r'.written = r.written

/-- The reports differ at most in how they spell the nodes that values were written to. -/
structure Report.Respelled (r r' : Report) : Prop where
  hasButtons : r'.hasButtons = r.hasButtons
  entryPointEnabled : r'.entryPointEnabled = r.entryPointEnabled
  restored : List.Forall₂ Restored.Respelled r.restored r'.restored
  request : r'.request = r.request

/-- The same value is to be written to a node. -/
def EntryRespelled (e e' : Key × Path × Value) : Prop := e'.1 = e.1 ∧ e.2.1.Respelled e'.2.1 ∧ e'.2.2 = e.2.2

variable {p q : Profile}

theorem values_respelled (h : p.Respelled q) (s : Preferences) :
    List.Forall₂ EntryRespelled (values p s) (values q s) := by
  refine List.rel_append (List.rel_map ?_ h.switches) (List.rel_filterMap ?_ h.texts)
  · rintro ⟨key, m⟩ ⟨key', n⟩ ⟨hkey, hnode⟩
    obtain rfl : key = key' := hkey
    exact ⟨rfl, hnode, congrArg Value.switch (h.switchOrDefault_eq s key)⟩
  · rintro ⟨key, m⟩ ⟨key', n⟩ ⟨hkey, hnode⟩
    obtain rfl : key = key' := hkey
    dsimp only
    rw [h.textOrDefault?_eq]
    cases s.textOrDefault? p key with
    | none => exact .none
    | some text => exact .some ⟨rfl, hnode, rfl⟩

theorem restore_respelled {es es' : List (Key × Path × Value)} (h : List.Forall₂ EntryRespelled es es') (d : Device) :
    List.Forall₂ Restored.Respelled (restore es d).1 (restore es' d).1 ∧ (restore es' d).2 = (restore es d).2 := by
  induction h generalizing d with
  | nil => exact ⟨.nil, rfl⟩
  | @cons e e' es es' he _ ih =>
    obtain ⟨key, m, v⟩ := e
    obtain ⟨key', n, v'⟩ := e'
    obtain ⟨hkey, hnode, hvalue⟩ := he
    obtain rfl : key' = key := hkey
    obtain rfl : v' = v := hvalue
    obtain ⟨hresult, hdevice⟩ := Node.write_respelled hnode v'.token d
    obtain ⟨hrest, hlast⟩ := ih (Node.write m v'.token d).2
    rw [restore, restore]
    dsimp only
    rw [hdevice]
    exact ⟨.cons ⟨rfl, hnode, rfl, hresult.toBool_eq⟩ hrest, hlast⟩

theorem report_respelled (h : p.Respelled q) (s : Preferences) (c : Components) (d : Device) :
    (run p s c d).1.Respelled (run q s c d).1 ∧ (run q s c d).2 = (run p s c d).2 := by
  rw [run, run, h.hasButtons_eq, h.request_eq]
  cases p.hasButtons d.disk with
  | false => exact ⟨⟨rfl, rfl, .nil, rfl⟩, rfl⟩
  | true =>
    rw [if_pos rfl, if_pos rfl]
    generalize (if c.isEnabled Components.buttonSettings then (c, d) else showEntryPoint true c d) = at_
    obtain ⟨c, d⟩ := at_
    obtain ⟨hrestored, hdevice⟩ := restore_respelled (values_respelled h s) d
    dsimp only
    rw [hdevice]
    exact ⟨⟨rfl, rfl, hrestored, rfl⟩, rfl⟩

end Boot

/-! ## the interface in use -/

/-- The button panel, and which of the interface's entry points are shown. -/
structure Interface where
  panel : Session
  components : Components

/-- The panel is used, or the device boots. -/
inductive Deed
  | use (u : Session.Use)
  | boot

/-- What is said of a deed.  What a boot requests of a service is in its report. -/
inductive Told
  | outcomes (outcomes : List Outcome)
  | report (report : Boot.Report)

/-- The same was said, but for how paths are spelled. -/
inductive Told.Respelled : Told → Told → Prop
  | outcomes {os os' : List Outcome} (h : List.Forall₂ Outcome.Respelled os os') :
    Respelled (.outcomes os) (.outcomes os')
  | report {r r' : Boot.Report} (h : r.Respelled r') : Respelled (.report r) (.report r')

namespace Interface

def withProfile (i : Interface) (q : Profile) : Interface := { i with panel := i.panel.withProfile q }

def act (i : Interface) : Deed → Told × Interface
  | .use u =>
    let (outcomes, panel) := i.panel.use u
    (.outcomes outcomes, { i with panel })
  | .boot =>
    let stores := i.panel.stores
    let (report, components, device) := Boot.run i.panel.profile stores.preferences i.components stores.device
    (.report report, { panel := { i.panel with stores.device := device }, components })

def run (i : Interface) : List Deed → List Told × Interface
  | [] => ([], i)
  | d :: ds =>
    let (told, i) := i.act d
    let (rest, i) := i.run ds
    (told :: rest, i)

variable {i : Interface} {p q : Profile}

theorem profile_act (i : Interface) (d : Deed) : (i.act d).2.panel.profile = i.panel.profile := by
  cases d with
  | use u =>
    cases u with
    | openScreen => rfl
    | resume => exact Session.profile_foldl_reconcile _ _
    | change key v => exact Session.profile_apply _ key v
    | outside f => rfl
  | boot => rfl

theorem act_withProfile (h : i.panel.profile.Respelled q) (d : Deed) :
    (i.act d).1.Respelled ((i.withProfile q).act d).1 ∧ ((i.withProfile q).act d).2 = (i.act d).2.withProfile q := by
  cases d with
  | use u =>
    obtain ⟨houtcomes, hpanel⟩ := Session.use_withProfile h u
    refine ⟨.outcomes houtcomes, ?_⟩
    exact congrArg (fun panel => (⟨panel, i.components⟩ : Interface)) hpanel
  | boot =>
    obtain ⟨hreport, hafter⟩ :=
      Boot.report_respelled h i.panel.stores.preferences i.components i.panel.stores.device
    refine ⟨.report hreport, ?_⟩
    exact congrArg (fun after : Components × Device =>
      (⟨{ i.panel with profile := q, stores.device := after.2 }, after.1⟩ : Interface)) hafter

theorem run_withProfile (h : i.panel.profile.Respelled q) (ds : List Deed) :
    List.Forall₂ Told.Respelled (i.run ds).1 ((i.withProfile q).run ds).1
      ∧ ((i.withProfile q).run ds).2 = (i.run ds).2.withProfile q := by
  induction ds generalizing i with
  | nil => exact ⟨.nil, rfl⟩
  | cons d ds ih =>
    obtain ⟨htold, hafter⟩ := act_withProfile h d
    obtain ⟨hrest, hlast⟩ := ih (i := (i.act d).2) ((profile_act i d).symm ▸ h)
    rw [run, run]
    dsimp only
    rw [hafter]
    exact ⟨.cons htold hrest, hlast⟩

/-- **How a profile spells its nodes does not matter.**  Respell each node of a profile on its own, however a node that
is written and the gates that look at it are spelled: the profile is as valid as before, and whatever is done with the
panel and however often the device boots, the same is said of every deed up to paths in errors and reports, so that
messages differ at most in the text of a path.  All but the profile ends up the same: the screen, what is stored and
what is pending, the nodes and all other files, the requests, and the components.  The settings that are gated on a node
are found in key order under any of its spellings, and they are those whose gate's node has the same components. -/
theorem run_respelled (h : p.Respelled q) (i : Interface) (ds : List Deed) :
    (q.IsValid ↔ p.IsValid)
      ∧ List.Forall₂ Told.Respelled ((i.withProfile p).run ds).1 ((i.withProfile q).run ds).1
      ∧ (∀ e e' : DeviceError, e.Respelled e' → e'.message = e.message
        ∨ ∃ (m n : Path) (before after : String), m.Respelled n ∧ e.message = before ++ m.text ++ after
          ∧ e'.message = before ++ n.text ++ after)
      ∧ ((i.withProfile q).run ds).2 = ((i.withProfile p).run ds).2.withProfile q
      ∧ ∀ m n : Path, m.Respelled n → q.gatedOn n = p.gatedOn m
        ∧ (p.gatedOn m).Pairwise (fun k k' => compare k k' = .lt)
        ∧ ∀ key, key ∈ p.gatedOn m ↔ ∃ gate, p.buttons.gates.get? key = some gate
          ∧ gate.node.components = m.components := by
  obtain ⟨htold, hlast⟩ := @run_withProfile (i.withProfile p) q h ds
  refine ⟨?_, htold, fun e e' he => he.message, hlast,
    fun m n hnode => ⟨h.gatedOn_eq hnode, ?_, fun key => Profile.mem_gatedOn⟩⟩
  · rw [Profile.IsValid, Profile.IsValid, h.fault?_eq]
  · exact List.pairwise_map.mpr (p.buttons.gates.ascending.filter _)

/-- A switch with a node, and a setting that is gated on it. -/
def twoSettings (node gate presence : Path) : Profile :=
  { Profile.builtin with
    buttons := ⟨.ofList [("w", node)], .empty, .ofList [("d", ⟨gate, "1"⟩)], [presence]⟩
    pocket := .standard
    keys := .standard
    defaults := .empty }

theorem twoSettings_respelled {node node' gate gate' presence presence' : Path} (hnode : node.Respelled node')
    (hgate : gate.Respelled gate') (hpresence : presence.Respelled presence') :
    (twoSettings node gate presence).Respelled (twoSettings node' gate' presence') where
  version := rfl
  device := rfl
  switches := .cons ⟨rfl, hnode⟩ .nil
  texts := .nil
  gates := .cons ⟨rfl, hgate, rfl⟩ .nil
  presence := .cons hpresence .nil
  pocket := rfl
  wakeupNode := .none
  search := rfl
  keys := rfl
  fingerprintNode := .none
  disablerNode := .none
  swapperNode := .none
  doze := rfl
  defaults := rfl

/-- The node is there and holds a switch that is off. -/
def oneNode : Interface :=
  let disk : Disk :=
    ⟨.ofList [(["n"], .directory Disk.directoryMode), (["n", "w"], .file "0".toUTF8 Disk.fileMode)], []⟩
  ⟨.start default ⟨.inMemory, .inMemory, ⟨disk, default, []⟩⟩ .inline, .inMemory⟩

/-- The switch is turned on, and the device boots. -/
def turnedOn : List Deed := [.use .openScreen, .use .resume, .use (.change "w" (.switch true)), .boot]

/-- The switch and its gate spell the node alike. -/
def spelledAlike : Profile := twoSettings ⟨"n/w"⟩ ⟨"n/w"⟩ ⟨"n/w"⟩

def spelledApart : Profile := twoSettings ⟨"n/w"⟩ ⟨"n//w"⟩ ⟨"n/./w"⟩

/-- The gated setting cannot be used before the switch is on, and can be afterwards, though its gate spells the node
otherwise than the switch does. -/
theorem run_respelled_turnedOn : spelledAlike.Respelled spelledApart
    ∧ (((oneNode.withProfile spelledApart).run (turnedOn.take 2)).2.panel.screen.get? "d").map (·.enabled) = some false
    ∧ (((oneNode.withProfile spelledApart).run turnedOn).2.panel.screen.get? "d").map (·.enabled) = some true := by
  have h : spelledAlike.Respelled spelledApart := twoSettings_respelled (.refl _)
    ⟨.rel _ _ (.slash "n" "w"), by decide⟩ ⟨.rel _ _ (.dot "n" "w"), by decide⟩
  have hscreen {i j : Interface} (hj : j = i.withProfile spelledApart) : j.panel.screen = i.panel.screen := by
    rw [hj]
    rfl
  refine ⟨h, ?_, ?_⟩
  · rw [hscreen (run_respelled h oneNode (turnedOn.take 2)).2.2.2.1]
    decide +kernel
  · rw [hscreen (run_respelled h oneNode turnedOn).2.2.2.1]
    decide +kernel

end Interface

end DeviceSettings

import DeviceSettings.KeyEvent
import DeviceSettings.Proofs.Footprint

/-!
# HOME keys from the settings to the events

Two nodes decide what becomes of HOME keys.  The disabler of the touch keys writes one, with `0` for disabled keys, and
the setting of the fingerprint key is mirrored to the other, with `1` for a key that works.  Nothing else that is done
on a screen writes either (`Session.Reaches`), so each holds what it took last (`Phone.Course.holds`), and these two
values are what an event is judged by (`Phone.handle_after`).
-/

namespace DeviceSettings

open Disk (Touches)

namespace Session

variable {s t : Session} {key k : Key} {v : Value} {ns : List Path} {disabler home : Path}

/-! ## what a step leaves alone -/

/-- The stores keep their documents, and on the disk nothing is touched but these and the nodes. -/
structure Reaches (ns : List Path) (s t : Session) : Prop where
  profile : t.profile = s.profile
  documents : t.stores.documents = s.stores.documents
  touches : Touches s.stores.documents ns s.stores.disk t.stores.disk

theorem reaches_of_saves (ht : s.stores.disk.IsTree) (hp : t.profile = s.profile) (h : s.stores.Saves t.stores) :
    Reaches ns s t :=
  ⟨hp, h.documents_eq, h.touches ht (List.Subset.refl _)⟩

theorem documents_apply (s : Session) (key : Key) (v : Value) :
    (s.apply key v).2.stores.documents = s.stores.documents := by
  rcases apply_cases s key v with ⟨why, heq⟩ | ⟨c, hc, hcases⟩
  · rw [heq]
  · have haccept : (s.accept key v).stores.documents = s.stores.documents := by
      rw [stores_accept hc]
      exact documents_enter s key v
    rcases hcases with ⟨e, heq⟩ | ⟨-, heq⟩
    · rw [heq]
      exact haccept
    · rw [heq, (checkPocket_same _ key).2.2.1]
      exact (saves_foldl _ _).documents_eq.trans haccept

theorem reaches_apply (ht : s.stores.disk.IsTree) (key : Key) (v : Value) :
    Reaches (s.nodes key) s (s.apply key v).2 :=
  ⟨profile_apply s key v, documents_apply s key v, touches_apply ht (List.Subset.refl _)⟩

theorem reaches_set (ht : s.stores.disk.IsTree) (node : Path) (on : Bool) :
    Reaches [node] s (s.withDevice (KeyDisabler.set node on s.stores.device).2) :=
  ⟨rfl, rfl, (KeyDisabler.touches_set ht node on).1⟩

/-- What is not touched is there as it was. -/
theorem Reaches.entry {n : Path} {e : Entry} (h : Reaches ns s t)
    (hdocuments : ¬s.stores.disk.Among s.stores.documents (s.stores.disk.placeOf n))
    (hnodes : ¬s.stores.disk.Among ns (s.stores.disk.placeOf n)) (he : s.stores.disk.entry n = .ok e) :
    t.stores.disk.entry n = .ok e := by
  refine h.touches.grown.entry_again ?_ he
  rintro (hmem | hmem)
  · exact hdocuments hmem
  · exact hnodes hmem

/-! ## the two nodes -/

/-- HOME keys are looked up at two nodes, one for the virtual keys and one for the fingerprint key.  The second mirrors
a switch; no other setting is mirrored to either, and neither is a document of the stores. -/
structure Wired (key : Key) (disabler home : Path) (s : Session) : Prop where
  virtualKeys : s.profile.keys.virtualKeys = .disablerNode
  disablerNode : s.profile.keys.disablerNode = some disabler
  fingerprintNode : s.profile.keys.fingerprintNode = some home
  bound : s.profile.boundNode? key = some (home, .switch)
  distinct : s.stores.disk.placeOf disabler ≠ s.stores.disk.placeOf home
  others : ∀ k n kind, k ≠ key → s.profile.boundNode? k = some (n, kind) →
    s.stores.disk.placeOf n ≠ s.stores.disk.placeOf disabler ∧ s.stores.disk.placeOf n ≠ s.stores.disk.placeOf home
  apart : ∀ n ∈ [disabler, home], ¬s.stores.disk.Among s.stores.documents (s.stores.disk.placeOf n)
  isTree : s.stores.disk.IsTree

theorem Wired.apart_disabler (hw : Wired key disabler home s) :
    ¬s.stores.disk.Among s.stores.documents (s.stores.disk.placeOf disabler) := hw.apart _ List.mem_cons_self

theorem Wired.apart_home (hw : Wired key disabler home s) :
    ¬s.stores.disk.Among s.stores.documents (s.stores.disk.placeOf home) :=
  hw.apart _ (List.mem_cons_of_mem _ List.mem_cons_self)

theorem Wired.of_reaches (hw : Wired key disabler home s) (h : Reaches ns s t) : Wired key disabler home t := by
  have hplace (n : Path) : t.stores.disk.placeOf n = s.stores.disk.placeOf n := h.touches.grown.placeOf_eq n
  refine ⟨?_, ?_, ?_, ?_, ?_, fun k n kind hk hb => ?_, fun n hn => ?_, h.touches.grown.isTree hw.isTree⟩
  · rw [h.profile]
    exact hw.virtualKeys
  · rw [h.profile]
    exact hw.disablerNode
  · rw [h.profile]
    exact hw.fingerprintNode
  · rw [h.profile]
    exact hw.bound
  · rw [hplace, hplace]
    exact hw.distinct
  · rw [h.profile] at hb
    rw [hplace, hplace, hplace]
    exact hw.others k n kind hk hb
  · rw [hplace, h.documents, Disk.among_congr h.touches.grown.work]
    exact hw.apart n hn

/-- A change writes the node of the disabler never, and that of the fingerprint key for its own setting only. -/
theorem Wired.not_among (hw : Wired key disabler home s) (k : Key) :
    ¬s.stores.disk.Among (s.nodes k) (s.stores.disk.placeOf disabler)
      ∧ (k ≠ key → ¬s.stores.disk.Among (s.nodes k) (s.stores.disk.placeOf home)) := by
  have hnode {n x : Path} (hmem : n ∈ s.nodes k) (hx : s.stores.disk.placeOf x = s.stores.disk.placeOf n) :
      ∃ kind, s.profile.boundNode? k = some (n, kind) ∧ s.stores.disk.placeOf n = s.stores.disk.placeOf x := by
    rw [nodes] at hmem
    cases hb : s.profile.boundNode? k with
    | none =>
      rw [hb] at hmem
      cases hmem
    | some b =>
      rw [hb] at hmem
      obtain rfl := List.mem_singleton.mp hmem
      exact ⟨b.2, rfl, hx.symm⟩
  refine ⟨?_, fun hk => ?_⟩
  · rintro ⟨n, hmem, hx⟩
    obtain ⟨kind, hb, hplace⟩ := hnode hmem hx
    by_cases hk : k = key
    -- the setting of the fingerprint key has its own node, which is another one
    · subst hk
      rw [hw.bound] at hb
      cases hb
      exact hw.distinct hplace.symm
    · exact (hw.others k n kind hk hb).1 hplace
  · rintro ⟨n, hmem, hx⟩
    obtain ⟨kind, hb, hplace⟩ := hnode hmem hx
    exact (hw.others k n kind hk hb).2 hplace

/-- The node of the disabler says that the keys are disabled or not, and that of the fingerprint key that it works or
not, if anything is known of them. -/
structure Holds (disabler home : Path) (disabled works : Option Bool) (s : Session) : Prop where
  disabler : ∀ on, disabled = some on →
    ∃ mode, s.stores.disk.entry disabler = .ok (.file (Value.switchToken !on).toUTF8 mode)
  home : ∀ on, works = some on → ∃ mode, s.stores.disk.entry home = .ok (.file (Value.switchToken on).toUTF8 mode)

section
variable {disabled works : Option Bool} (h : Holds disabler home disabled works s) (hw : Wired key disabler home s)
  (hr : Reaches ns s t)
include h hw hr

/-- A step that leaves a node alone leaves it what it holds. -/
theorem Holds.disabler_of_reaches (hns : ¬s.stores.disk.Among ns (s.stores.disk.placeOf disabler)) (on : Bool)
    (hon : disabled = some on) :
    ∃ mode, t.stores.disk.entry disabler = .ok (.file (Value.switchToken !on).toUTF8 mode) := by
  obtain ⟨mode, he⟩ := h.disabler on hon
  exact ⟨mode, hr.entry hw.apart_disabler hns he⟩

theorem Holds.home_of_reaches (hns : ¬s.stores.disk.Among ns (s.stores.disk.placeOf home)) (on : Bool)
    (hon : works = some on) :
    ∃ mode, t.stores.disk.entry home = .ok (.file (Value.switchToken on).toUTF8 mode) := by
  obtain ⟨mode, he⟩ := h.home on hon
  exact ⟨mode, hr.entry hw.apart_home hns he⟩

theorem Holds.of_reaches (hdisabler : ¬s.stores.disk.Among ns (s.stores.disk.placeOf disabler))
    (hhome : ¬s.stores.disk.Among ns (s.stores.disk.placeOf home)) : Holds disabler home disabled works t :=
  ⟨h.disabler_of_reaches hw hr hdisabler, h.home_of_reaches hw hr hhome⟩

end

end Session

/-! ## what is known of the nodes -/

/-- What is known of a switch that was written to a node: it is there if the node took it. -/
def Node.known (r : Except DeviceError Unit) (on : Bool) : Option Bool := if r.toBool then some on else none

/-- What is known of a node after a change of its setting. -/
def Outcome.known (r : Outcome) (v : Value) (before : Option Bool) : Option Bool :=
  match r with
  | applied => v.switch?
  | rejected _ => before
  | writeFailed _ => none

namespace Session

variable {s : Session} {key : Key} {disabler home : Path} {disabled works : Option Bool}

/-- The disabler's node holds what it took. -/
theorem Holds.set (h : Holds disabler home disabled works s) (hw : Wired key disabler home s) (on : Bool) :
    Holds disabler home (Node.known (KeyDisabler.set disabler on s.stores.device).1 on) works
      (s.withDevice (KeyDisabler.set disabler on s.stores.device).2) := by
  refine ⟨fun b hb => ?_, h.home_of_reaches hw (reaches_set hw.isTree disabler on) ?_⟩
  · rw [Node.known] at hb
    split at hb
    next hok =>
      obtain rfl := Option.some.inj hb
      exact Node.entry_of_write hw.isTree (ok_of_toBool hok)
    next => cases hb
  · rintro ⟨n, hn, hplace⟩
    obtain rfl := List.mem_singleton.mp hn
    exact hw.distinct hplace.symm

/-- So does the node of the fingerprint key, and changes of other settings leave both alone. -/
theorem Holds.apply (h : Holds disabler home disabled works s) (hw : Wired key disabler home s) (k : Key) (v : Value) :
    Holds disabler home disabled (if k = key then (s.apply k v).1.known v works else works) (s.apply k v).2 := by
  have hreaches := reaches_apply hw.isTree k v
  obtain ⟨hdisabler, hhome⟩ := hw.not_among k
  by_cases hk : k = key
  · subst hk
    rw [if_pos rfl]
    cases hr : (s.apply k v).1 with
    | rejected why =>
      rw [eq_of_rejected hr]
      exact h
    | writeFailed e => exact ⟨h.disabler_of_reaches hw hreaches hdisabler, nofun⟩
    | applied =>
      refine ⟨h.disabler_of_reaches hw hreaches hdisabler, fun b hb => ?_⟩
      obtain ⟨mode, he⟩ := entry_applied hw.isTree hw.bound hw.apart_home hr
      cases v with
      | switch on =>
        obtain rfl := Option.some.inj hb
        exact ⟨mode, he⟩
      | text line => cases hb
  · rw [if_neg hk]
    exact h.of_reaches hw hreaches hdisabler (hhome hk)

end Session

/-! ## a device in use -/

/-- A session and the screen of the device. -/
structure Phone where
  session : Session
  screenOn : Bool

namespace Phone

open Session (Wired Holds)

/-- Anything that is done to a device, one thing after another: the touch keys are disabled or not, a screen is opened,
resumed and used for changes, the device's own screen turns on or off, and keys are pressed.  Along with it goes what is
known of the two nodes: what was written last, unless that failed. -/
inductive Course (key : Key) (disabler : Path) (p : Phone) : Option Bool → Option Bool → Phone → Prop
  | refl : Course key disabler p none none p
  | disable {disabled works : Option Bool} {q : Phone} (h : Course key disabler p disabled works q) (on : Bool) :
      Course key disabler p (Node.known (KeyDisabler.set disabler on q.session.stores.device).1 on) works
        { q with session := q.session.withDevice (KeyDisabler.set disabler on q.session.stores.device).2 }
  | change {disabled works : Option Bool} {q : Phone} (h : Course key disabler p disabled works q) (k : Key)
      (v : Value) :
      Course key disabler p disabled (if k = key then (q.session.apply k v).1.known v works else works)
        { q with session := (q.session.apply k v).2 }
  | openScreen {disabled works : Option Bool} {q : Phone} (h : Course key disabler p disabled works q) :
      Course key disabler p disabled works { q with session := q.session.openScreen }
  | resume {disabled works : Option Bool} {q : Phone} (h : Course key disabler p disabled works q) :
      Course key disabler p disabled works { q with session := q.session.resume }
  | turn {disabled works : Option Bool} {q : Phone} (h : Course key disabler p disabled works q) (on : Bool) :
      Course key disabler p disabled works { q with screenOn := on }
  | press {disabled works : Option Bool} {q : Phone} (h : Course key disabler p disabled works q) (e : KeyEvent) :
      Course key disabler p disabled works q

variable {key : Key} {disabler home : Path} {disabled works : Option Bool} {p q : Phone}

/-- All along the two nodes hold what is known of them. -/
theorem Course.holds (h : Course key disabler p disabled works q) (hw : Wired key disabler home p.session) :
    Wired key disabler home q.session ∧ Holds disabler home disabled works q.session
      ∧ q.session.profile = p.session.profile := by
  have hnone (d : Disk) (x : Place) : ¬d.Among [] x := by
    rintro ⟨n, hn, -⟩
    cases hn
  induction h with
  | refl => exact ⟨hw, ⟨nofun, nofun⟩, rfl⟩
  | @disable disabled works q h on ih =>
    obtain ⟨hw, hholds, hp⟩ := ih
    exact ⟨hw.of_reaches (Session.reaches_set hw.isTree disabler on), hholds.set hw on, hp⟩
  | @change disabled works q h k v ih =>
    obtain ⟨hw, hholds, hp⟩ := ih
    exact ⟨hw.of_reaches (Session.reaches_apply hw.isTree k v), hholds.apply hw k v,
      (Session.profile_apply q.session k v).trans hp⟩
  | @openScreen disabled works q h ih =>
    obtain ⟨hw, hholds, hp⟩ := ih
    -- opening a screen and resuming it save documents and write no node
    have hreaches : Session.Reaches [] q.session q.session.openScreen :=
      Session.reaches_of_saves hw.isTree rfl (Session.saves_opened q.session)
    exact ⟨hw.of_reaches hreaches, hholds.of_reaches hw hreaches (hnone _ _) (hnone _ _), hp⟩
  | @resume disabled works q h ih =>
    obtain ⟨hw, hholds, hp⟩ := ih
    have hprofile : q.session.resume.profile = q.session.profile := Session.profile_foldl_reconcile _ _
    have hreaches : Session.Reaches [] q.session q.session.resume :=
      Session.reaches_of_saves hw.isTree hprofile (Session.saves_foldl _ _)
    exact ⟨hw.of_reaches hreaches, hholds.of_reaches hw hreaches (hnone _ _) (hnone _ _), hprofile.trans hp⟩
  | turn h on ih => exact ih
  | press h e ih => exact ih

/-! ## events -/

/-- What the handler of the profile's keys makes of an event now. -/
def handle (p : Phone) (setupComplete : Bool) (e : KeyEvent) : Disposition :=
  let keys := p.session.profile.keys
  keys.handle e (keys.context setupComplete p.screenOn p.session.stores.preferences p.session.stores.disk)

end Phone

end DeviceSettings

import DeviceSettings.Proofs.Applying
import DeviceSettings.Proofs.Twins

/-!
# Sittings

The user's changes may be made in one session or in several, each opened over the files that the one before
left: what comes of them is the same (`Sitting.courseAll_eq_course`).  Two sessions are `Alike` if they differ in
nothing that a change looks at; a session whose settings are at rest is alike to the one that is opened after
it.
-/

namespace DeviceSettings

open Stores (Kept Synced Saves)

/-- A moment that a clock shows. -/
abbrev Moment := { t : Timestamp // t.IsValid }

/-- A change of the user's: when it is made, and which of its steps are refused. -/
structure Edit where
  key : Key
  value : Value
  moment : Moment
  refusals : List (Option OsError)

/-- A session from when it is opened to its end. -/
structure Sitting where
  moment : Moment
  refusals : List (Option OsError)
  dispatch : Dispatch
  edits : List Edit

/-- What comes of sittings: the outcomes of the changes, the requests that were delivered, and what the last
sitting leaves. -/
structure Course where
  outcomes : List Outcome
  requests : List Request
  screen : Screen
  preferences : Preferences
  pending : Pending
  disk : Disk

/-- A course and another one after it. -/
def Course.followedBy (c c' : Course) : Course :=
  { c' with outcomes := c.outcomes ++ c'.outcomes, requests := c.requests ++ c'.requests }

namespace Session

/-- The session when the clock shows a moment. -/
def at_ (s : Session) (moment : Moment) (refusals : List (Option OsError)) : Session :=
  { s with stores.device := ⟨s.stores.disk, moment.1, refusals⟩ }

def make (s : Session) (e : Edit) : Outcome × Session := (s.at_ e.moment e.refusals).apply e.key e.value

def makeAll (s : Session) : List Edit → List Outcome × Session
  | [] => ([], s)
  | e :: es => ((s.make e).1 :: ((s.make e).2.makeAll es).1, ((s.make e).2.makeAll es).2)

/-- What is left of a session when it is closed. -/
def course (s : Session) (outcomes : List Outcome) : Course :=
  ⟨outcomes, s.close.delivered, s.close.screen, s.close.stores.preferences, s.close.stores.pending,
    s.close.stores.disk⟩

theorem makeAll_append (s : Session) (es fs : List Edit) :
    s.makeAll (es ++ fs)
      = ((s.makeAll es).1 ++ ((s.makeAll es).2.makeAll fs).1, ((s.makeAll es).2.makeAll fs).2) := by
  induction es generalizing s with
  | nil => rfl
  | cons e es ih =>
    rw [List.cons_append, makeAll, makeAll, ih]
    rfl

/-! ## sessions that follow each other -/

/-- The sessions differ at most in their requests, and in the clock and the refusals that are to come. -/
structure Alike (s t : Session) : Prop where
  profile : t.profile = s.profile
  screen : t.screen = s.screen
  preferences : t.stores.preferences = s.stores.preferences
  pending : t.stores.pending = s.stores.pending
  disk : t.stores.disk = s.stores.disk

theorem Twin.alike {s t : Session} (h : Twin s t) : Alike s t :=
  ⟨h.profile, h.screen, by rw [h.stores], by rw [h.stores], by rw [h.stores]⟩

theorem Alike.at_ {s t : Session} (h : Alike s t) (moment : Moment) (refusals : List (Option OsError)) :
    Twin (s.at_ moment refusals) (t.at_ moment refusals) := by
  refine ⟨h.profile, ?_, h.screen⟩
  show (⟨t.stores.preferences, t.stores.pending, ⟨t.stores.disk, moment.1, refusals⟩⟩ : Stores)
    = ⟨s.stores.preferences, s.stores.pending, ⟨s.stores.disk, moment.1, refusals⟩⟩
  rw [h.preferences, h.pending, h.disk]

theorem Alike.make {s t : Session} (h : Alike s t) (e : Edit) :
    (t.make e).1 = (s.make e).1 ∧ Twin (s.make e).2 (t.make e).2 :=
  (h.at_ e.moment e.refusals).apply e.key e.value

theorem Alike.makeAll {s t : Session} (h : Alike s t) (hs : s.Prompt) (ht : t.Prompt) (es : List Edit) :
    (t.makeAll es).1 = (s.makeAll es).1 ∧ Alike (s.makeAll es).2 (t.makeAll es).2
      ∧ ∃ rs, (s.makeAll es).2.sent = s.sent ++ rs ∧ (t.makeAll es).2.sent = t.sent ++ rs := by
  induction es generalizing s t with
  | nil => exact ⟨rfl, h, [], (List.append_nil _).symm, (List.append_nil _).symm⟩
  | cons e es ih =>
    have htwin := h.at_ e.moment e.refusals
    obtain ⟨hresult, hafter⟩ := h.make e
    obtain ⟨hsent, hprompt⟩ := sent_apply (s := s.at_ e.moment e.refusals) hs e.key e.value
    obtain ⟨hsent', hprompt'⟩ := sent_apply (s := t.at_ e.moment e.refusals) ht e.key e.value
    rw [htwin.asked e.key e.value] at hsent'
    obtain ⟨hresults, halike, rs, hrs, hrs'⟩ := ih hafter.alike hprompt hprompt'
    refine ⟨?_, halike, (s.at_ e.moment e.refusals).asked e.key e.value ++ rs, ?_, ?_⟩
    · rw [Session.makeAll, Session.makeAll, hresult, hresults]
    · rw [← List.append_assoc]
      exact hrs.trans (congrArg (· ++ rs) hsent)
    · rw [← List.append_assoc]
      exact hrs'.trans (congrArg (· ++ rs) hsent')

/-- A change all of whose saves succeed, and whose node takes its value. -/
structure Passes (s : Session) (e : Edit) : Prop where
  line : e.value.IsLine
  taken : ∀ why, (s.make e).1 ≠ .writeFailed why
  kept : Kept s.profile.IsNode (s.at_ e.moment e.refusals).stores (s.make e).2.stores

/-- Changes in a row that pass. -/
def PassesAll (s : Session) : List Edit → Prop
  | [] => True
  | e :: es => s.Passes e ∧ (s.make e).2.PassesAll es

theorem PassesAll.append {s : Session} {es fs : List Edit} (h : s.PassesAll (es ++ fs)) :
    s.PassesAll es ∧ (s.makeAll es).2.PassesAll fs := by
  induction es generalizing s with
  | nil => exact ⟨trivial, h⟩
  | cons e es ih =>
    obtain ⟨hfirst, hrest⟩ := h
    obtain ⟨hes, hfs⟩ := ih hrest
    exact ⟨⟨hfirst, hes⟩, hfs⟩

theorem Alike.passesAll {s t : Session} (h : Alike s t) {es : List Edit} (hs : s.PassesAll es) :
    t.PassesAll es := by
  induction es generalizing s t with
  | nil => trivial
  | cons e es ih =>
    obtain ⟨⟨hline, htaken, hkept⟩, hrest⟩ := hs
    obtain ⟨hresult, hafter⟩ := h.make e
    refine ⟨⟨hline, ?_, ?_⟩, ih hafter.alike hrest⟩
    · rw [hresult]
      exact htaken
    · rw [h.profile, (h.at_ e.moment e.refusals).stores, hafter.stores]
      exact hkept

/-- A session with every setting at rest, and in its files what its stores hold. -/
structure Settled (home : Path) (s : Session) : Prop where
  valid : s.profile.IsValid
  apart : s.profile.GatesApart
  fits : s.profile.Fits home s.stores.disk
  synced : s.stores.Synced home
  rest : ∀ key, s.AtRest key

section
variable {home : Path} {s : Session}

theorem Settled.placed (h : s.Settled home) : s.Placed home :=
  ⟨h.synced.housed, h.fits⟩

theorem profile_make (s : Session) (e : Edit) : (s.make e).2.profile = s.profile :=
  profile_apply (s.at_ e.moment e.refusals) e.key e.value

/-- A change that passes leaves the session settled. -/
theorem Settled.make (h : s.Settled home) {e : Edit} (he : s.Passes e) :
    (s.make e).2.Settled home := by
  have hp := profile_make s e
  have hsynced : (s.at_ e.moment e.refusals).stores.Synced home :=
    ⟨h.synced.hosts, e.moment.2, h.synced.opens, h.synced.loads⟩
  have hrest (key : Key) : (s.at_ e.moment e.refusals).AtRest key :=
    (h.rest key).of_agreeAt rfl ⟨rfl, rfl, rfl⟩ ⟨fun _ _ _ => rfl, rfl⟩
  obtain ⟨hplaced, hrest'⟩ : (s.make e).2.Placed home ∧ ∀ key, (s.make e).2.AtRest key :=
    atRest_apply (s := s.at_ e.moment e.refusals) h.apart ⟨hsynced.housed, h.fits⟩ hrest he.line he.taken
  refine ⟨hp ▸ h.valid, hp ▸ h.apart, hplaced.fits, ?_, hrest'⟩
  exact (he.kept.synced hsynced fun n hn => h.fits.apart n (.inl hn)).1

theorem Settled.makeAll (h : s.Settled home) {es : List Edit}
    (hes : s.PassesAll es) : (s.makeAll es).2.Settled home := by
  induction es generalizing s with
  | nil => exact h
  | cons e es ih => exact ih (h.make hes.1) hes.2

/-- The rest of a course, told by a session that is alike. -/
theorem course_followedBy {t u : Session} (h : Alike t u) (hsent : t.sent = s.sent ++ u.sent)
    (outcomes outcomes' : List Outcome) :
    (s.course outcomes).followedBy (u.course outcomes') = t.course (outcomes ++ outcomes') := by
  have hrequests : s.close.delivered ++ u.close.delivered = t.close.delivered := hsent.symm
  show Course.mk _ (s.close.delivered ++ u.close.delivered) u.screen u.stores.preferences u.stores.pending
    u.stores.disk = _
  rw [hrequests, h.screen, h.preferences, h.pending, h.disk]
  rfl

theorem prompt_makeAll (h : s.Prompt) (es : List Edit) : (s.makeAll es).2.Prompt := by
  induction es generalizing s with
  | nil => exact h
  | cons e es ih => exact ih (sent_apply (s := s.at_ e.moment e.refusals) h e.key e.value).2

theorem profile_makeAll (s : Session) (es : List Edit) : (s.makeAll es).2.profile = s.profile := by
  induction es generalizing s with
  | nil => rfl
  | cons e es ih => exact (ih _).trans (profile_make s e)

/-- Opening settles a session over files that hold what its stores do. -/
theorem settled_resume (hp : s.profile.IsValid) (hg : s.profile.GatesApart)
    (hf : s.profile.Fits home s.stores.disk) (hs : s.stores.Synced home)
    (hk : Kept s.profile.IsNode s.stores s.openScreen.resume.stores) : s.openScreen.resume.Settled home := by
  have hprofile := profile_resume s
  have hplaced : s.Placed home := ⟨hs.housed, hf⟩
  have hopened : s.openScreen.Placed home := hplaced.of_saves rfl (saves_opened s)
  refine ⟨hprofile ▸ hp, hprofile ▸ hg, (hopened.foldl _).fits, ?_, atRest_resume hp hg hplaced⟩
  exact (hk.synced hs fun n hn => hf.apart n (.inl hn)).1

theorem silent_resume (s : Session) : Silent s s.openScreen.resume :=
  (⟨rfl, rfl, rfl⟩ : Silent s s.openScreen).trans (silent_foldl _ _)

end

end Session

namespace Sitting

variable (p : Profile) (home : Path)

/-- Opens the files of a home directory. -/
def start (x : Sitting) (d : Disk) : Except StoreError Session :=
  (Preferences.openAt home d).map fun preferences =>
    .start p ⟨preferences, .beside preferences.path d, ⟨d, x.moment.1, x.refusals⟩⟩ x.dispatch

def course (x : Sitting) (d : Disk) : Except StoreError Course :=
  (x.start p home d).map fun s =>
    (s.openScreen.resume.makeAll x.edits).2.course (s.openScreen.resume.makeAll x.edits).1

/-- Sittings in a row, each on the disk that the one before leaves. -/
def courseAll (x : Sitting) (d : Disk) : List Sitting → Except StoreError Course
  | [] => x.course p home d
  | y :: ys => do
    let c ← x.course p home d
    let c' ← y.courseAll c.disk ys
    pure (c.followedBy c')

/-- The sitting with the changes of later ones made in it. -/
def joined (x : Sitting) (xs : List Sitting) : Sitting :=
  { x with edits := x.edits ++ xs.flatMap Sitting.edits }

variable {p home} {d : Disk}

/-- Opening and all changes pass. -/
structure Passes (p : Profile) (home : Path) (x : Sitting) (d : Disk) : Prop where
  opened : ∀ s, x.start p home d = .ok s → Kept p.IsNode s.stores s.openScreen.resume.stores
  made : ∀ s, x.start p home d = .ok s → s.openScreen.resume.PassesAll x.edits

theorem start_ok {x : Sitting} {s : Session} (hd : d.Hosts home) (h : x.start p home d = .ok s) :
    s.profile = p ∧ s.stores.disk = d ∧ s.stores.Synced home ∧ s.waiting = [] ∧ s.delivered = [] := by
  unfold start at h
  cases ho : Preferences.openAt home d with
  | error e =>
    rw [ho] at h
    cases h
  | ok preferences =>
    rw [ho] at h
    cases h
    refine ⟨rfl, rfl, ⟨hd, x.moment.2, ho, ?_⟩, rfl, rfl⟩
    have hpath : preferences.path = some (Home.preferences home) := by
      rcases Preferences.openFile_ok ho with ⟨-, heq⟩ | ⟨hpath, -⟩
      · rw [heq]
      · exact hpath
    show Pending.beside _ d = Pending.beside preferences.path d
    rw [hpath]

/-- A session that is opened after a settled one is like it, and has yet to make its first request. -/
theorem start_of_settled {s : Session} (h : s.Settled home) (y : Sitting) :
    ∃ t, y.start s.profile home s.stores.disk = .ok t ∧ t.openScreen.resume.stores = t.stores
      ∧ s.Alike t.openScreen.resume := by
  have hpath := h.synced.housed.preferences
  have hstart : y.start s.profile home s.stores.disk = .ok (.start s.profile
      ⟨s.stores.preferences, s.stores.pending, ⟨s.stores.disk, y.moment.1, y.refusals⟩⟩ y.dispatch) := by
    rw [start, h.synced.opens]
    show Except.ok (Session.start _ ⟨_, Pending.beside s.stores.preferences.path s.stores.disk, _⟩ _) = _
    rw [hpath, h.synced.loads]
  refine ⟨_, hstart, ?_⟩
  obtain ⟨hstores, hscreen⟩ := @Session.reopened home s (.start s.profile
    ⟨s.stores.preferences, s.stores.pending, ⟨s.stores.disk, y.moment.1, y.refusals⟩⟩ y.dispatch)
    h.valid h.apart h.placed h.rest rfl rfl rfl rfl
  refine ⟨hstores, ⟨Session.profile_resume _, hscreen, ?_, ?_, ?_⟩⟩
  · rw [hstores]
    rfl
  · rw [hstores]
    rfl
  · rw [hstores]
    rfl

theorem course_of_start {x : Sitting} {s : Session} (h : x.start p home d = .ok s) :
    x.course p home d = .ok ((s.openScreen.resume.makeAll x.edits).2.course
      (s.openScreen.resume.makeAll x.edits).1) := by
  rw [course, h]
  rfl

theorem course_of_error {x : Sitting} {e : StoreError} (h : x.start p home d = .error e) :
    x.course p home d = .error e := by
  rw [course, h]
  rfl

/-- **Cutting a session changes nothing.**  The user's changes come to the same in one sitting as in several,
each opened over what the one before left: the outcomes, the requests, the last screen, what is stored and
pending, and the whole disk. -/
theorem courseAll_eq_course (hp : p.IsValid) (hg : p.GatesApart) (hf : p.Fits home d) (hd : d.Hosts home)
    (x : Sitting) (xs : List Sitting) (h : (x.joined xs).Passes p home d) :
    x.courseAll p home d xs = (x.joined xs).course p home d := by
  induction xs generalizing x d with
  | nil =>
    have hjoined : x.joined [] = x := by rw [joined, List.flatMap_nil, List.append_nil]
    rw [hjoined]
    rfl
  | cons y ys ih =>
    cases hs : x.start p home d with
    | error e =>
      have hs' : (x.joined (y :: ys)).start p home d = .error e := hs
      rw [courseAll, course_of_error hs, course_of_error hs']
      rfl
    | ok s =>
      obtain ⟨hprofile, hdisk, hsynced, hwaiting, -⟩ := start_ok hd hs
      have hs' : (x.joined (y :: ys)).start p home d = .ok s := hs
      subst hprofile hdisk
      -- the first sitting ends settled
      have hsettled := Session.settled_resume hp hg hf hsynced (h.opened s hs)
      have hprompt : s.openScreen.resume.Prompt := (Session.silent_resume s).prompt fun _ => hwaiting
      obtain ⟨hfirst, hrest⟩ := (h.made s hs).append
      have hend := hsettled.makeAll hfirst
      have hsame : (s.openScreen.resume.makeAll x.edits).2.profile = s.profile :=
        (Session.profile_makeAll _ _).trans (Session.profile_resume s)
      have hprompt' := Session.prompt_makeAll hprompt x.edits
      rw [courseAll, course_of_start hs, course_of_start hs']
      show (do
        let c' ← y.courseAll s.profile home (s.openScreen.resume.makeAll x.edits).2.stores.disk ys
        pure (Course.followedBy _ c')) = _
      have hedits : (x.joined (y :: ys)).edits = x.edits ++ (y.joined ys).edits := rfl
      rw [hedits, Session.makeAll_append]
      generalize s.openScreen.resume.makeAll x.edits = r at hend hsame hrest hprompt' ⊢
      obtain ⟨outcomes, u⟩ := r
      -- the second one begins where it ended
      obtain ⟨t, ht, hstores, halike⟩ := start_of_settled hend y
      rw [hsame] at ht
      obtain ⟨-, -, -, hwaiting', hdelivered'⟩ := start_ok hend.synced.hosts ht
      have hpromptt : t.openScreen.resume.Prompt := (Session.silent_resume t).prompt fun _ => hwaiting'
      have hpasses : (y.joined ys).Passes s.profile home u.stores.disk := by
        refine ⟨fun t' ht' => ?_, fun t' ht' => ?_⟩
        · cases ht.symm.trans ht'
          rw [hstores]
          exact .refl
        · cases ht.symm.trans ht'
          exact halike.passesAll hrest
      rw [ih (hsame ▸ hend.fits) hend.synced.hosts y hpasses, course_of_start (x := y.joined ys) ht]
      obtain ⟨houtcomes, hafter, rs, hsent, hsent'⟩ := halike.makeAll hprompt' hpromptt (y.joined ys).edits
      have hnone : t.openScreen.resume.sent = [] := by
        rw [(Session.silent_resume t).sent, Session.sent, hwaiting', hdelivered']
        rfl
      rw [hnone, List.nil_append] at hsent'
      refine congrArg Except.ok ?_
      rw [houtcomes]
      exact Session.course_followedBy hafter (by rw [hsent, hsent']) _ _

/-! ## a switch behind a gate -/

/-- One switch, behind a gate. -/
def oneGate (node : Path) : Profile :=
  { Profile.builtin with buttons := { Buttons.standard with gates := .ofList [("d", ⟨node, "1"⟩)] } }

def midday : Moment := ⟨Preferences.Use.midday, Preferences.Use.isValid_midday⟩

/-- The user switches it. -/
def pressing (on : Bool) : Edit := ⟨"d", .switch on, midday, []⟩

/-- Stores with files that are missing. -/
def nothing (home : Path) (d : Disk) : Stores :=
  ⟨⟨some (Home.preferences home), .empty, none⟩, ⟨some (Home.pending home), .empty⟩, ⟨d, midday.1, []⟩⟩

variable {node : Path} {s : Session}

theorem eq_of_gated {key : Key} (h : (oneGate node).buttons.gates.contains key = true) : key = "d" := by
  replace h : (if key = "d" then some (Gate.mk node "1") else none).isSome = true := h
  split at h
  · assumption
  · cases h

theorem isValid_oneGate : (oneGate node).IsValid := rfl

theorem gatesApart_oneGate : (oneGate node).GatesApart := by
  refine ⟨fun key _ => rfl, fun key hk => ?_⟩
  rw [eq_of_gated hk]
  show Profile.builtin.defaults.get? "d" ≠ some (.switch true)
  decide

theorem reads_oneGate {n : Path} (h : (oneGate node).Reads n) : n = node := by
  rcases h with ⟨key, kind, h⟩ | ⟨key, gate, h, rfl⟩
  · cases h
  · replace h : (if key = "d" then some (Gate.mk node "1") else none) = some gate := h
    split at h
    · cases h
      rfl
    · cases h

theorem separate_oneGate (h : ∀ q ∈ Home.files home, d.placeOf node ≠ d.placeOf q) :
    (oneGate node).Separate home d := by
  refine ⟨?_, ?_, ?_⟩
  · rintro n hn ⟨q, hq, heq⟩
    rw [reads_oneGate hn] at heq
    exact h q hq heq
  · intro k k' n n' kind kind' hk
    cases hk
  · rintro n key gate ⟨k, kind, hk⟩
    cases hk

theorem start_nothing (hp : d.exists_ (Home.preferences home) = false)
    (hq : d.exists_ (Home.pending home) = false) {x : Sitting} (hm : x.moment = midday) (hr : x.refusals = []) :
    x.start (oneGate node) home d = .ok (.start (oneGate node) (nothing home d) x.dispatch) := by
  rw [start, Preferences.openAt, Preferences.openFile_of_absent hp]
  show Except.ok (Session.start _ ⟨_, Pending.beside (some (Home.preferences home)) d, _⟩ _) = _
  rw [Pending.beside_of_load (Pending.loadFile_of_absent hq), hm, hr]
  rfl

/-- The switch can be used while nobody can say that its gate is closed. -/
theorem resume_nothing (hgate : Gate.isOpen? (oneGate node).buttons.gates d "d" ≠ some false)
    (dispatch : Dispatch) :
    (Session.start (oneGate node) (nothing home d) dispatch).openScreen.resume.stores = nothing home d
      ∧ (Session.start (oneGate node) (nothing home d) dispatch).openScreen.resume.screen.get? "d"
        = some (.switch "d" false) := by
  show ((Session.start (oneGate node) (nothing home d) dispatch).openScreen.reconcile "d").stores = _
    ∧ ((Session.start (oneGate node) (nothing home d) dispatch).openScreen.reconcile "d").screen.get? "d" = _
  have hc : (Session.start (oneGate node) (nothing home d) dispatch).openScreen.screen.get? "d"
      = some (.switch "d" false) := rfl
  cases hopen : Gate.isOpen? (oneGate node).buttons.gates d "d" with
  | none =>
    rw [Session.reconcile_of_none hopen]
    exact ⟨rfl, hc⟩
  | some isOpen =>
    cases isOpen with
    | false => exact absurd hopen hgate
    | true =>
      rw [Session.reconcile_of_isOpen hopen hc]
      exact ⟨rfl, (Screen.get?_set _ _ _ _).trans (if_pos rfl)⟩

/-- A switch that is saved passes. -/
theorem passes_pressing {on was : Bool} (hb : s.profile.boundNode? "d" = none)
    (hc : s.screen.get? "d" = some (.switch "d" was))
    (hsave : (s.stores.preferences.set "d" (.switch on) ⟨s.stores.disk, midday.1, []⟩).1 = .ok ()) :
    s.Passes (pressing on)
      ∧ (s.make (pressing on)).2.stores = (s.at_ midday []).stores.put "d" (.switch on)
      ∧ (s.make (pressing on)).2.screen.get? "d" = some (.switch "d" on) := by
  have hshowing : (s.at_ midday []).showing? "d" (.switch on) = some (.switch "d" on) := by
    rw [Session.showing?_eq_some]
    exact ⟨_, hc, rfl, rfl⟩
  obtain ⟨hresult, hstores, hscreen⟩ := Session.apply_of_unbound (s := s.at_ midday []) hb hshowing
  refine ⟨⟨Value.isLine_switch on, fun why hwhy => ?_, ?_⟩, hstores, ?_⟩
  · cases hresult.symm.trans hwhy
  · show Kept _ (s.at_ midday []).stores ((s.at_ midday []).apply "d" (.switch on)).2.stores
    rw [hstores]
    exact .put .refl "d" (.switch on) hsave
  · show ((s.at_ midday []).apply "d" (.switch on)).2.screen.get? "d" = _
    rw [hscreen, Screen.get?_set, if_pos rfl]

def pressed : Sitting := ⟨midday, [], .inline, [pressing true]⟩

/-- A sitting in which nothing is changed. -/
def idle : Sitting := ⟨midday, [], .deferred, []⟩

/-- Stores once the switch was switched on. -/
def once (home : Path) (d : Disk) : Stores := (nothing home d).put "d" (.switch true)

section
variable (hp : d.exists_ (Home.preferences home) = false) (hq : d.exists_ (Home.pending home) = false)
  (hgate : Gate.isOpen? (oneGate node).buttons.gates d "d" ≠ some false)
  (hsave : ((nothing home d).preferences.set "d" (.switch true) (nothing home d).device).1 = .ok ())
include hp hq hgate hsave

/-- A sitting in which the switch is switched on passes. -/
theorem passes_pressed : ∃ s, pressed.start (oneGate node) home d = .ok s ∧ s.profile = oneGate node
    ∧ s.openScreen.resume.stores = s.stores ∧ s.openScreen.resume.Passes (pressing true)
    ∧ (s.openScreen.resume.make (pressing true)).2.stores = once home d
    ∧ (s.openScreen.resume.make (pressing true)).2.screen.get? "d" = some (.switch "d" true) := by
  obtain ⟨hstores, hscreen⟩ := resume_nothing hgate pressed.dispatch
  refine ⟨_, start_nothing hp hq rfl rfl, rfl, hstores, ?_⟩
  generalize hs : Session.start (oneGate node) (nothing home d) pressed.dispatch = s at hstores hscreen
  have hb : s.openScreen.resume.profile.boundNode? "d" = none := by
    rw [Session.profile_resume, ← hs]
    rfl
  obtain ⟨hpasses, hafter, hcontrol⟩ := @passes_pressing s.openScreen.resume true false hb hscreen
    (by rw [hstores]; exact hsave)
  refine ⟨hpasses, hafter.trans ?_, hcontrol⟩
  rw [Session.at_, hstores, once]
  rfl

/-- What it comes to, with a sitting after it or without. -/
theorem courses_pressed : ∃ c, (pressed.joined [idle]).course (oneGate node) home d = .ok c
    ∧ c.screen.get? "d" = some (.switch "d" true) ∧ c.pending = ⟨some (Home.pending home), .empty⟩
    ∧ (∀ c', idle.course (oneGate node) home (once home d).disk = .ok c' →
        pressed.courseAll (oneGate node) home d [idle] = .ok (c.followedBy c'))
    ∧ (pressed.joined [idle]).Passes (oneGate node) home d := by
  obtain ⟨s, hs, -, hsame, hpasses, hstores, hscreen⟩ := passes_pressed hp hq hgate hsave
  have hcourse : pressed.course (oneGate node) home d
      = .ok ((s.openScreen.resume.makeAll [pressing true]).2.course
        (s.openScreen.resume.makeAll [pressing true]).1) := course_of_start hs
  have hlast : (s.openScreen.resume.makeAll [pressing true]).2 = (s.openScreen.resume.make (pressing true)).2 := rfl
  refine ⟨_, hcourse, ?_, ?_, ?_, ?_⟩
  · show (s.openScreen.resume.makeAll [pressing true]).2.screen.get? "d" = _
    rw [hlast, hscreen]
  · show (s.openScreen.resume.makeAll [pressing true]).2.stores.pending = _
    rw [hlast, hstores, once, Stores.pending_put]
    rfl
  · intro c' hc'
    rw [courseAll, hcourse]
    show (do
      let c' ← idle.course (oneGate node) home (s.openScreen.resume.makeAll [pressing true]).2.stores.disk
      pure (Course.followedBy _ c')) = _
    rw [hlast, hstores, hc']
    rfl
  · refine ⟨fun s' hs' => ?_, fun s' hs' => ?_⟩
    · cases hs.symm.trans hs'
      rw [hsame]
      exact .refl
    · cases hs.symm.trans hs'
      exact ⟨hpasses, trivial⟩

end

/-- A gate that stands open. -/
def openGate : Disk :=
  ⟨.ofList [(["h"], .directory Disk.directoryMode), (["w"], .file "1".toUTF8 Disk.fileMode)], []⟩

/-- The switch is switched on in one sitting and off in the next. -/
theorem courseAll_eq_course_pressing :
    let x := pressed
    let y : Sitting := { idle with edits := [pressing false] }
    x.courseAll (oneGate ⟨"w"⟩) ⟨"h"⟩ openGate [y] = (x.joined [y]).course (oneGate ⟨"w"⟩) ⟨"h"⟩ openGate := by
  intro x y
  have htree : openGate.IsTree := Disk.isTree_of_entries (by decide +kernel)
  have hfits : (oneGate ⟨"w"⟩).Fits ⟨"h"⟩ openGate := by
    refine ⟨separate_oneGate (by decide +kernel), fun n hn x hx => ?_⟩
    rw [reads_oneGate hn] at hx
    cases hx
  obtain ⟨s, hs, hprofile, hsame, hpasses, hstores, hscreen⟩ := @passes_pressed ⟨"h"⟩ openGate ⟨"w"⟩
    (by decide +kernel) (by decide +kernel) (by decide +kernel) (ok_of_toBool (by decide +kernel))
  have hb : (s.openScreen.resume.make (pressing true)).2.profile.boundNode? "d" = none := by
    rw [Session.profile_make, Session.profile_resume, hprofile]
    rfl
  refine courseAll_eq_course isValid_oneGate gatesApart_oneGate hfits ⟨htree, fun x hx => by cases hx⟩ x [y]
    ⟨fun s' hs' => ?_, fun s' hs' => ?_⟩
  · cases hs.symm.trans hs'
    rw [hsame]
    exact .refl
  · cases hs.symm.trans hs'
    refine ⟨hpasses, (@passes_pressing _ false true hb hscreen ?_).1, trivial⟩
    rw [hstores]
    exact ok_of_toBool (by decide +kernel)

/-- All that `courseAll_eq_course` asks for but that no way goes up out of a directory that a save makes, and
yet it does matter whether the switch is switched on in the last sitting. -/
structure Misled (p : Profile) (home : Path) (d : Disk) : Prop where
  valid : p.IsValid
  gates : p.GatesApart
  separate : p.Separate home d
  isTree : d.IsTree
  loads : ∃ q, Pending.loadFile (Home.pending home) d = .ok q
  passes : (pressed.joined [idle]).Passes p home d
  differs : pressed.courseAll p home d [idle] ≠ (pressed.joined [idle]).course p home d

section
variable {preferences : Preferences} {pending : Pending} (hopen : Preferences.openAt home d = .ok preferences)
  (hpath : preferences.path = some (Home.preferences home))
  (hload : Pending.loadFile (Home.pending home) d = .ok pending)
include hopen hpath hload

theorem course_idle : idle.course (oneGate node) home d = .ok (((Session.start (oneGate node)
    ⟨preferences, pending, ⟨d, midday.1, []⟩⟩ .deferred).openScreen.reconcile "d").course []) := by
  have hstart : idle.start (oneGate node) home d = .ok (.start (oneGate node)
      ⟨preferences, pending, ⟨d, midday.1, []⟩⟩ .deferred) := by
    rw [start, hopen]
    show Except.ok (Session.start _ ⟨_, Pending.beside preferences.path d, _⟩ _) = _
    rw [hpath, Pending.beside_of_load hload]
    rfl
  exact course_of_start hstart

/-- Behind a gate that cannot be read what is pending stays so. -/
theorem course_idle_of_none (hgate : Gate.isOpen? (oneGate node).buttons.gates d "d" = none) :
    ∃ c, idle.course (oneGate node) home d = .ok c ∧ c.pending = pending := by
  refine ⟨_, course_idle hopen hpath hload, ?_⟩
  rw [Session.reconcile_of_none hgate]
  rfl

/-- Behind a closed gate the switch is shut out. -/
theorem course_idle_of_closed (hgate : Gate.isOpen? (oneGate node).buttons.gates d "d" = some false) :
    ∃ c, idle.course (oneGate node) home d = .ok c
      ∧ c.screen.get? "d" = some { Control.switch "d" false with enabled := false } := by
  have hc : (Session.start (oneGate node) ⟨preferences, pending, ⟨d, midday.1, []⟩⟩ .deferred).openScreen.screen.get?
      "d" = some (.switch "d" (preferences.switchOrDefault (oneGate node) "d")) := rfl
  exact ⟨_, course_idle hopen hpath hload, (Session.reconcile_closed hgate hc).1⟩

end

theorem openAt_once (ht : d.IsTree)
    (hsave : ((nothing home d).preferences.set "d" (.switch true) (nothing home d).device).1 = .ok ()) :
    Preferences.openAt home (once home d).disk = .ok (once home d).preferences := by
  have hpath : (nothing home d).preferences.path = some (Home.preferences home) := rfl
  rw [once, Change.put_eq]
  generalize (nothing home d).preferences = preferences at hpath hsave ⊢
  exact @Preferences.openFile_of_saved { preferences with values := preferences.values.insert "d" (.switch true) }
    (Home.preferences home) (nothing home d).device hpath ht midday.2 hsave

theorem path_once : (once home d).preferences.path = some (Home.preferences home) := by
  rw [once, Change.path_put]
  rfl

/-- A choice that is pending below `h`. -/
def lostChoice : Disk :=
  ⟨.ofList [(["h"], .directory Disk.directoryMode), (["h", ".parts"], .directory Disk.directoryMode),
    (["h", ".parts", "run"], .directory Disk.directoryMode),
    (["h", ".parts", "run", "pending.json"],
      .file (Pending.print midday.1 (.ofList [("d", .taken)])).toUTF8 Disk.fileMode)], []⟩

/-- A gate that is closed. -/
def closedGate : Disk :=
  ⟨.ofList [(["h"], .directory Disk.directoryMode), (["w"], .file "0".toUTF8 Disk.fileMode)], []⟩

/-- Once the save has made `m` the pending choice is found that was there before. -/
theorem misled_home : Misled (oneGate ⟨"w"⟩) ⟨"m/../h"⟩ lostChoice := by
  have htree : lostChoice.IsTree := Disk.isTree_of_entries (by decide +kernel)
  have hsave : ((nothing ⟨"m/../h"⟩ lostChoice).preferences.set "d" (.switch true)
      (nothing ⟨"m/../h"⟩ lostChoice).device).1 = .ok () := ok_of_toBool (by decide +kernel)
  obtain ⟨c, hc, -, hpending, hall, hpasses⟩ := @courses_pressed ⟨"m/../h"⟩ lostChoice ⟨"w"⟩ (by decide +kernel)
    (by decide +kernel) (by decide +kernel) hsave
  have hload : Pending.loadFile (Home.pending ⟨"m/../h"⟩) (once ⟨"m/../h"⟩ lostChoice).disk
      = .ok ⟨some (Home.pending ⟨"m/../h"⟩), .ofList [("d", .taken)]⟩ :=
    @Pending.loadFile_of_entry _ _ _ _ Disk.fileMode midday.2 (ok_of_toOption (by decide +kernel))
  have hgate : Gate.isOpen? (oneGate ⟨"w"⟩).buttons.gates (once ⟨"m/../h"⟩ lostChoice).disk "d" = none := by
    decide +kernel
  refine ⟨isValid_oneGate, gatesApart_oneGate, separate_oneGate (by decide +kernel), htree,
    ⟨_, Pending.loadFile_of_absent (by decide +kernel)⟩, hpasses, fun heq => ?_⟩
  obtain ⟨c', hc', hpending'⟩ := course_idle_of_none (openAt_once htree hsave) path_once hload hgate
  have hsame : c.followedBy c' = c := Except.ok.inj ((hall c' hc').symm.trans (heq.trans hc))
  have hchoices : (c.followedBy c').pending = c.pending := congrArg Course.pending hsame
  rw [Course.followedBy, hpending, hpending'] at hchoices
  cases congrArg (fun q : Pending => q.choices.isEmpty) hchoices

/-- Once the save has made `.parts` the gate is found to be closed. -/
theorem misled_node : Misled (oneGate ⟨"h/.parts/../../w"⟩) ⟨"h"⟩ closedGate := by
  have htree : closedGate.IsTree := Disk.isTree_of_entries (by decide +kernel)
  have hsave : ((nothing ⟨"h"⟩ closedGate).preferences.set "d" (.switch true)
      (nothing ⟨"h"⟩ closedGate).device).1 = .ok () := ok_of_toBool (by decide +kernel)
  obtain ⟨c, hc, hscreen, -, hall, hpasses⟩ := @courses_pressed ⟨"h"⟩ closedGate ⟨"h/.parts/../../w"⟩
    (by decide +kernel) (by decide +kernel) (by decide +kernel) hsave
  have hload : Pending.loadFile (Home.pending ⟨"h"⟩) (once ⟨"h"⟩ closedGate).disk
      = .ok ⟨some (Home.pending ⟨"h"⟩), .empty⟩ := Pending.loadFile_of_absent (by decide +kernel)
  have hgate : Gate.isOpen? (oneGate ⟨"h/.parts/../../w"⟩).buttons.gates (once ⟨"h"⟩ closedGate).disk "d"
      = some false := by decide +kernel
  refine ⟨isValid_oneGate, gatesApart_oneGate, separate_oneGate (by decide +kernel), htree,
    ⟨_, Pending.loadFile_of_absent (by decide +kernel)⟩, hpasses, fun heq => ?_⟩
  obtain ⟨c', hc', hscreen'⟩ := course_idle_of_closed (openAt_once htree hsave) path_once hload hgate
  have hsame : c.followedBy c' = c := Except.ok.inj ((hall c' hc').symm.trans (heq.trans hc))
  have hcontrol : (c.followedBy c').screen = c.screen := congrArg Course.screen hsame
  replace hcontrol : c'.screen = c.screen := hcontrol
  rw [hcontrol, hscreen] at hscreen'
  cases hscreen'

/-- The way to the home directory or to a node may go up out of a directory that is missing.  The save that makes
it changes what a later sitting finds, though every save succeeds. -/
theorem courseAll_ne_course : Misled (oneGate ⟨"w"⟩) ⟨"m/../h"⟩ lostChoice
    ∧ Misled (oneGate ⟨"h/.parts/../../w"⟩) ⟨"h"⟩ closedGate := ⟨misled_home, misled_node⟩

end Sitting

end DeviceSettings

import DeviceSettings.Proofs.Opening

/-!
# Requests

A change makes its requests after everything else, and nothing looks at them: sessions that differ in their
requests only are `Twin`s, of which a change makes twins again (`Session.Twin.apply`) with the same new requests
(`Session.sent_apply`).
-/

namespace DeviceSettings.Session

/-! ## requests -/

/-- All requests that were made, the delivered ones first. -/
def sent (s : Session) : List Request := s.delivered ++ s.waiting

/-- Who delivers at once lets nothing wait. -/
def Prompt (s : Session) : Prop := s.dispatch = .inline → s.waiting = []

/-- The requests that a change makes. -/
def asked (s : Session) (key : Key) (v : Value) : List Request :=
  if (s.apply key v).1 = .applied ∧ s.profile.pocket.watches key = true then
    [s.profile.pocket.request (s.apply key v).2.stores.preferences]
  else []

/-- Neither made nor delivered a request. -/
structure Silent (s t : Session) : Prop where
  dispatch : t.dispatch = s.dispatch
  waiting : t.waiting = s.waiting
  delivered : t.delivered = s.delivered

theorem Silent.trans {s t u : Session} (h : Silent s t) (h' : Silent t u) : Silent s u :=
  ⟨h'.dispatch.trans h.dispatch, h'.waiting.trans h.waiting, h'.delivered.trans h.delivered⟩

theorem Silent.sent {s t : Session} (h : Silent s t) : t.sent = s.sent := by
  rw [Session.sent, Session.sent, h.delivered, h.waiting]

theorem Silent.prompt {s t : Session} (h : Silent s t) (hs : s.Prompt) : t.Prompt := by
  intro hd
  rw [h.waiting]
  exact hs (h.dispatch.symm.trans hd)

theorem Silent.request {s t : Session} (h : Silent s t) (r : Request) : Silent (s.request r) (t.request r) := by
  unfold Session.request
  rw [h.dispatch]
  cases hd : s.dispatch with
  | inline => exact ⟨rfl, h.waiting, congrArg (· ++ [r]) h.delivered⟩
  | deferred => exact ⟨rfl, congrArg (· ++ [r]) h.waiting, h.delivered⟩

theorem silent_foldl (s : Session) (ks : List Key) : Silent s (ks.foldl reconcile s) := by
  induction ks generalizing s with
  | nil => exact ⟨rfl, rfl, rfl⟩
  | cons k ks ih =>
    have hfirst : Silent s (s.reconcile k) :=
      ⟨dispatch_reconcile s k, waiting_reconcile s k, delivered_reconcile s k⟩
    exact hfirst.trans (ih _)

theorem silent_accept (s : Session) (key : Key) (v : Value) : Silent s (s.accept key v) := by
  cases hc : s.showing? key v with
  | none =>
    rw [accept_of_none hc]
    exact ⟨rfl, rfl, rfl⟩
  | some c =>
    rw [accept_of_some hc]
    unfold enter writeNode
    split <;> exact ⟨rfl, rfl, rfl⟩

theorem sent_request {s : Session} (h : s.Prompt) (r : Request) :
    (s.request r).sent = s.sent ++ [r] ∧ (s.request r).Prompt := by
  unfold request
  cases hd : s.dispatch with
  | inline =>
    refine ⟨?_, fun _ => h hd⟩
    rw [sent, sent]
    show (s.delivered ++ [r]) ++ s.waiting = _
    rw [h hd, List.append_nil, List.append_nil]
  | deferred =>
    refine ⟨?_, fun hd' => ?_⟩
    · show s.delivered ++ (s.waiting ++ [r]) = _
      rw [← List.append_assoc]
      rfl
    · replace hd' : Dispatch.deferred = .inline := hd'
      cases hd'

/-- A change is silent until its last deed, which is to make its requests. -/
theorem apply_eq_foldl_request (s : Session) (key : Key) (v : Value) :
    ∃ u, Silent s u ∧ (s.apply key v).2 = (s.asked key v).foldl request u := by
  rcases apply_cases s key v with ⟨why, heq⟩ | ⟨c, -, ⟨e, heq⟩ | ⟨-, heq⟩⟩
  · rw [asked, heq, if_neg (by simp)]
    exact ⟨s, ⟨rfl, rfl, rfl⟩, rfl⟩
  · rw [asked, heq, if_neg (by simp)]
    exact ⟨s.accept key v, silent_accept s key v, rfl⟩
  · have hp : (((s.accept key v).dependents key).foldl reconcile (s.accept key v)).profile = s.profile := by
      rw [profile_foldl_reconcile, profile_accept]
    refine ⟨((s.accept key v).dependents key).foldl reconcile (s.accept key v),
      (silent_accept s key v).trans (silent_foldl _ _), ?_⟩
    rw [asked, heq]
    generalize ((s.accept key v).dependents key).foldl reconcile (s.accept key v) = t at hp ⊢
    obtain ⟨-, -, hstores, -⟩ := checkPocket_same t key
    rw [hstores, checkPocket, hp]
    cases s.profile.pocket.watches key with
    | true => rw [if_pos rfl, if_pos ⟨rfl, rfl⟩, List.foldl_cons, List.foldl_nil]
    | false => rw [if_neg Bool.false_ne_true, if_neg (by simp), List.foldl_nil]

theorem sent_foldl_request {s : Session} (h : s.Prompt) (rs : List Request) :
    (rs.foldl request s).sent = s.sent ++ rs ∧ (rs.foldl request s).Prompt := by
  induction rs generalizing s with
  | nil => exact ⟨(List.append_nil _).symm, h⟩
  | cons r rs ih =>
    obtain ⟨hsent, hprompt⟩ := sent_request h r
    obtain ⟨hsent', hprompt'⟩ := ih hprompt
    rw [hsent, List.append_assoc] at hsent'
    exact ⟨hsent', hprompt'⟩

theorem sent_apply {s : Session} (h : s.Prompt) (key : Key) (v : Value) :
    (s.apply key v).2.sent = s.sent ++ s.asked key v ∧ (s.apply key v).2.Prompt := by
  obtain ⟨u, hsilent, heq⟩ := apply_eq_foldl_request s key v
  obtain ⟨hsent, hprompt⟩ := sent_foldl_request (hsilent.prompt h) (s.asked key v)
  rw [heq, hsent, hsilent.sent]
  exact ⟨rfl, hprompt⟩

/-- Requests that are delivered at once. -/
theorem foldl_request_inline {s : Session} (h : s.dispatch = .inline) (rs : List Request) :
    rs.foldl request s = { s with delivered := s.delivered ++ rs } := by
  induction rs generalizing s with
  | nil =>
    show s = { s with delivered := s.delivered ++ [] }
    rw [List.append_nil]
  | cons r rs ih =>
    have hr : s.request r = { s with delivered := s.delivered ++ [r] } := by rw [request, h]
    have hd : (s.request r).dispatch = .inline := hr ▸ h
    rw [List.foldl_cons, ih hd, hr, List.append_assoc]
    rfl

/-- Requests that are left to wait. -/
theorem foldl_request_deferred {s : Session} (h : s.dispatch = .deferred) (rs : List Request) :
    rs.foldl request s = { s with waiting := s.waiting ++ rs } := by
  induction rs generalizing s with
  | nil =>
    show s = { s with waiting := s.waiting ++ [] }
    rw [List.append_nil]
  | cons r rs ih =>
    have hr : s.request r = { s with waiting := s.waiting ++ [r] } := by rw [request, h]
    have hd : (s.request r).dispatch = .deferred := hr ▸ h
    rw [List.foldl_cons, ih hd, hr, List.append_assoc]
    rfl

theorem apply_inline {s : Session} (h : s.dispatch = .inline) (key : Key) (v : Value) :
    (s.apply key v).2.dispatch = .inline
      ∧ (s.apply key v).2.delivered = s.delivered ++ s.asked key v := by
  obtain ⟨u, hsilent, heq⟩ := apply_eq_foldl_request s key v
  rw [heq, foldl_request_inline (hsilent.dispatch.trans h), hsilent.delivered]
  exact ⟨hsilent.dispatch.trans h, rfl⟩

theorem apply_deferred {s : Session} (h : s.dispatch = .deferred) (key : Key) (v : Value) :
    (s.apply key v).2.dispatch = .deferred ∧ (s.apply key v).2.delivered = s.delivered
      ∧ (s.apply key v).2.waiting = s.waiting ++ s.asked key v := by
  obtain ⟨u, hsilent, heq⟩ := apply_eq_foldl_request s key v
  rw [heq, foldl_request_deferred (hsilent.dispatch.trans h), hsilent.waiting]
  exact ⟨hsilent.dispatch.trans h, hsilent.delivered, rfl⟩

/-! ## sessions that differ in their requests -/

/-- The sessions differ at most in their requests. -/
structure Twin (s t : Session) : Prop where
  profile : t.profile = s.profile
  stores : t.stores = s.stores
  screen : t.screen = s.screen

theorem Twin.reconcile {s t : Session} (h : Twin s t) (key : Key) : Twin (s.reconcile key) (t.reconcile key) := by
  unfold Session.reconcile
  rw [h.profile, h.stores, h.screen]
  split
  · exact ⟨rfl, rfl, rfl⟩
  · exact h

theorem Twin.foldl {s t : Session} (h : Twin s t) (ks : List Key) :
    Twin (ks.foldl Session.reconcile s) (ks.foldl Session.reconcile t) := by
  induction ks generalizing s t with
  | nil => exact h
  | cons k ks ih => exact ih (h.reconcile k)

theorem Twin.enter {s t : Session} (h : Twin s t) (key : Key) (v : Value) :
    (t.enter key v).1 = (s.enter key v).1 ∧ Twin (s.enter key v).2 (t.enter key v).2 := by
  unfold Session.enter writeNode
  dsimp only
  rw [h.profile, h.stores]
  split
  · exact ⟨rfl, rfl, rfl, h.screen⟩
  · exact ⟨rfl, rfl, rfl, h.screen⟩

theorem Twin.checkPocket {s t : Session} (h : Twin s t) (key : Key) :
    Twin (s.checkPocket key) (t.checkPocket key) := by
  obtain ⟨hp, hscreen, hstores, -⟩ := checkPocket_same s key
  obtain ⟨hp', hscreen', hstores', -⟩ := checkPocket_same t key
  refine ⟨?_, ?_, ?_⟩
  · rw [hp, hp', h.profile]
  · rw [hstores, hstores', h.stores]
  · rw [hscreen, hscreen', h.screen]

theorem Twin.commit {s t : Session} (h : Twin s t) (key : Key) (v : Value) :
    (t.commit key v).1 = (s.commit key v).1 ∧ Twin (s.commit key v).2 (t.commit key v).2 := by
  obtain ⟨hresult, htwin⟩ := h.enter key v
  unfold Session.commit
  cases hs : s.enter key v with
  | mk r u =>
    cases ht : t.enter key v with
    | mk r' u' =>
      rw [hs, ht] at hresult htwin
      replace hresult : r' = r := hresult
      replace htwin : Twin u u' := htwin
      subst hresult
      cases r' with
      | error e => exact ⟨rfl, htwin⟩
      | ok _ =>
        have hdependents : u'.dependents key = u.dependents key := by
          rw [dependents, dependents, htwin.profile]
        refine ⟨rfl, ?_⟩
        dsimp only
        rw [hdependents]
        exact (htwin.foldl _).checkPocket key

theorem Twin.apply {s t : Session} (h : Twin s t) (key : Key) (v : Value) :
    (t.apply key v).1 = (s.apply key v).1 ∧ Twin (s.apply key v).2 (t.apply key v).2 := by
  unfold Session.apply
  rw [h.screen]
  cases s.screen.get? key with
  | none => exact ⟨rfl, h⟩
  | some c =>
    dsimp only
    cases c.enabled with
    | false => exact ⟨rfl, h⟩
    | true =>
      rw [if_neg (by simp), if_neg (by simp)]
      cases c.showing? v with
      | none => exact ⟨rfl, h⟩
      | some c' =>
        have htwin : Twin { s with screen := s.screen.set key c' } { t with screen := s.screen.set key c' } :=
          ⟨h.profile, h.stores, rfl⟩
        exact htwin.commit key v

theorem Twin.asked {s t : Session} (h : Twin s t) (key : Key) (v : Value) : t.asked key v = s.asked key v := by
  obtain ⟨hresult, htwin⟩ := h.apply key v
  rw [Session.asked, Session.asked, hresult, h.profile, htwin.stores]

end DeviceSettings.Session

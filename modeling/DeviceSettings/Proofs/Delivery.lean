import DeviceSettings.Proofs.Twins
import Mathlib.Data.List.Induction

/-!
# Requests delivered by a thread

A session may leave its requests to a thread that delivers them while the session is used on.  `Worker` is the two
of them with the channel in between; a schedule is any list of their moves.  Whatever the schedule, the session does
what it would do if it delivered at once, and so does, later, the thread (`Worker.deferred_eq_inline`).
-/

namespace DeviceSettings

namespace Session

/-- What a caller does with a session, or somebody else with the device. -/
inductive Use
  | openScreen
  | resume
  | change (key : Key) (v : Value)
  | outside (f : Device → Device)

/-- What the caller is told, and the session afterwards. -/
def use (s : Session) : Use → List Outcome × Session
  | .openScreen => ([], s.openScreen)
  | .resume => ([], s.resume)
  | .change key v => let (outcome, s) := s.apply key v; ([outcome], s)
  | .outside f => ([], { s with stores.device := f s.stores.device })

def useAll (s : Session) (us : List Use) : List Outcome × Session :=
  us.foldl (fun (outcomes, s) u => let (told, s) := s.use u; (outcomes ++ told, s)) ([], s)

def asks (s : Session) : Use → List Request
  | .change key v => s.asked key v
  | _ => []

theorem useAll_concat (s : Session) (us : List Use) (u : Use) :
    s.useAll (us ++ [u]) = ((s.useAll us).1 ++ ((s.useAll us).2.use u).1, ((s.useAll us).2.use u).2) := by
  rw [useAll, List.foldl_append]
  rfl

variable {s t : Session}

theorem use_inline (h : s.dispatch = .inline) (u : Use) :
    (s.use u).2.dispatch = .inline ∧ (s.use u).2.delivered = s.delivered ++ s.asks u := by
  cases u with
  | openScreen => exact ⟨h, (List.append_nil _).symm⟩
  | resume =>
    have hsilent : Silent s s.resume := silent_foldl s _
    exact ⟨hsilent.dispatch.trans h, hsilent.delivered.trans (List.append_nil _).symm⟩
  | change key v => exact apply_inline h key v
  | outside f => exact ⟨h, (List.append_nil _).symm⟩

theorem use_deferred (h : s.dispatch = .deferred) (u : Use) :
    (s.use u).2.dispatch = .deferred ∧ (s.use u).2.delivered = s.delivered
      ∧ (s.use u).2.waiting = s.waiting ++ s.asks u := by
  cases u with
  | openScreen => exact ⟨h, rfl, (List.append_nil _).symm⟩
  | resume =>
    have hsilent : Silent s s.resume := silent_foldl s _
    exact ⟨hsilent.dispatch.trans h, hsilent.delivered, hsilent.waiting.trans (List.append_nil _).symm⟩
  | change key v => exact apply_deferred h key v
  | outside f => exact ⟨h, rfl, (List.append_nil _).symm⟩

theorem Twin.openScreen (h : Twin s t) : Twin s.openScreen t.openScreen := by
  unfold Session.openScreen
  rw [h.profile, h.stores]
  exact ⟨rfl, rfl, rfl⟩

theorem Twin.resume (h : Twin s t) : Twin s.resume t.resume := by
  rw [Session.resume, Session.resume, h.profile]
  exact h.foldl _

theorem Twin.use (h : Twin s t) (u : Use) :
    (t.use u).1 = (s.use u).1 ∧ Twin (s.use u).2 (t.use u).2 ∧ t.asks u = s.asks u := by
  cases u with
  | openScreen => exact ⟨rfl, h.openScreen, rfl⟩
  | resume => exact ⟨rfl, h.resume, rfl⟩
  | change key v =>
    obtain ⟨houtcome, htwin⟩ := h.apply key v
    exact ⟨congrArg (fun o => [o]) houtcome, htwin, h.asked key v⟩
  | outside f =>
    refine ⟨rfl, ⟨h.profile, ?_, h.screen⟩, rfl⟩
    show ({ t.stores with device := f t.stores.device } : Stores) = { s.stores with device := f s.stores.device }
    rw [h.stores]

/-- A session that keeps its requests until it is closed makes the same ones in the end. -/
theorem Twin.delivered_close (h : Twin s t) (hs : s.dispatch = .inline) (ht : t.dispatch = .deferred)
    (hsent : s.delivered = t.sent) (us : List Use) :
    (s.useAll us).2.delivered = (t.useAll us).2.close.delivered := by
  suffices hall : Twin (s.useAll us).2 (t.useAll us).2 ∧ (s.useAll us).2.dispatch = .inline
      ∧ (t.useAll us).2.dispatch = .deferred ∧ (s.useAll us).2.delivered = (t.useAll us).2.sent from hall.2.2.2
  induction us using List.reverseRecOn with
  | nil => exact ⟨h, hs, ht, hsent⟩
  | append_singleton us u ih =>
    obtain ⟨htwin, hinline, hdeferred, heq⟩ := ih
    obtain ⟨-, htwin', hasks⟩ := htwin.use u
    obtain ⟨hinline', hmade⟩ := use_inline hinline u
    obtain ⟨hdeferred', hdelivered, hwaiting⟩ := use_deferred hdeferred u
    rw [useAll_concat, useAll_concat]
    refine ⟨htwin', hinline', hdeferred', ?_⟩
    rw [hmade, heq, sent, sent, hdelivered, hwaiting, hasks, List.append_assoc]

end Session

open Session (Use Twin)

/-- A session and the thread that delivers its requests. -/
structure Worker where
  /-- the session; the requests that wait in it have yet to be sent to the thread -/
  caller : Session
  /-- what the caller has been told of its changes -/
  outcomes : List Outcome
  /-- requests that the thread has yet to take, the first to be taken first -/
  channel : List Request
  /-- the request that the thread is about to make of the service -/
  held : Option Request
  /-- requests that the service got, in order -/
  delivered : List Request
  /-- requests that the service refused; they are noted and nothing else -/
  refused : List (Request × DeviceError)

/-- What happens next.  The caller and the thread share the channel only, so any interleaving of the two is a list
of these; a request is sent by a move of its own, for the thread may be quicker than the end of a change. -/
inductive Move
  | use (u : Use)
  | send
  /-- the thread goes on; if it makes a request, this is the service's answer -/
  | turn (answer : Except DeviceError Unit)

namespace Move

def use? : Move → Option Use
  | .use u => some u
  | _ => none

end Move

namespace Worker

def start (p : Profile) (stores : Stores) : Worker := ⟨.start p stores .deferred, [], [], none, [], []⟩

def use (w : Worker) (u : Use) : Worker :=
  let (told, caller) := w.caller.use u
  { w with caller, outcomes := w.outcomes ++ told }

def send (w : Worker) : Worker :=
  match w.caller.waiting with
  | [] => w
  | r :: rest => { w with caller.waiting := rest, channel := w.channel ++ [r] }

/-- The thread makes the request that it holds; without one it takes the next, if there is one. -/
def turn (w : Worker) (answer : Except DeviceError Unit) : Worker :=
  match w.held, w.channel with
  | some r, _ =>
    { w with
      held := none
      delivered := w.delivered ++ [r]
      refused := match answer with
        | .ok _ => w.refused
        | .error e => w.refused ++ [(r, e)] }
  | none, r :: rest => { w with held := some r, channel := rest }
  | none, [] => w

def move (w : Worker) : Move → Worker
  | .use u => w.use u
  | .send => w.send
  | .turn answer => w.turn answer

def run (w : Worker) (moves : List Move) : Worker := moves.foldl move w

/-- Takes the session apart: whatever was made is sent, and the thread goes on by itself. -/
def close (w : Worker) (answers : List (Except DeviceError Unit)) : Worker :=
  answers.foldl turn { w with caller.waiting := [], channel := w.channel ++ w.caller.waiting }

/-- The thread has nothing to do, so it ends when the channel is closed. -/
def IsIdle (w : Worker) : Prop := w.held = none ∧ w.channel = []

/-- How many turns the thread needs before it is idle. -/
def load (w : Worker) : Nat := 2 * w.channel.length + w.held.toList.length

/-- The worker is where a session is that delivers at once, except that requests are still on their way. -/
structure Trails (i : List Outcome × Session) (w : Worker) : Prop where
  outcomes : w.outcomes = i.1
  inline : i.2.dispatch = .inline
  deferred : w.caller.dispatch = .deferred
  twin : Twin i.2 w.caller
  made : i.2.delivered = w.delivered ++ (w.held.toList ++ (w.channel ++ w.caller.waiting))

variable {i : List Outcome × Session} {w : Worker}

theorem Trails.use (h : Trails i w) (u : Use) : Trails (i.1 ++ (i.2.use u).1, (i.2.use u).2) (w.use u) := by
  obtain ⟨hinline, hdelivered⟩ := Session.use_inline h.inline u
  obtain ⟨hdeferred, -, hwaiting⟩ := Session.use_deferred h.deferred u
  obtain ⟨htold, htwin, hasks⟩ := h.twin.use u
  refine ⟨congrArg₂ (· ++ ·) h.outcomes htold, hinline, hdeferred, htwin, ?_⟩
  show _ = w.delivered ++ (w.held.toList ++ (w.channel ++ (w.caller.use u).2.waiting))
  rw [hdelivered, hwaiting, hasks, h.made]
  simp only [List.append_assoc]

theorem Trails.send (h : Trails i w) : Trails i w.send := by
  unfold Worker.send
  cases hw : w.caller.waiting with
  | nil => exact h
  | cons r rest =>
    refine ⟨h.outcomes, h.inline, h.deferred, ⟨h.twin.profile, h.twin.stores, h.twin.screen⟩, ?_⟩
    rw [h.made, hw, List.append_assoc w.channel]
    rfl

theorem caller_turn (w : Worker) (answer : Except DeviceError Unit) :
    (w.turn answer).caller = w.caller ∧ (w.turn answer).outcomes = w.outcomes := by
  unfold turn
  split <;> exact ⟨rfl, rfl⟩

/-- Requests keep their order on the way. -/
theorem requests_turn (w : Worker) (answer : Except DeviceError Unit) :
    (w.turn answer).delivered ++ ((w.turn answer).held.toList ++ (w.turn answer).channel)
      = w.delivered ++ (w.held.toList ++ w.channel) := by
  unfold turn
  split
  next r _ hheld => rw [hheld, List.append_assoc]; rfl
  next r rest hheld hchannel => rw [hheld, hchannel]; rfl
  next => rfl

theorem Trails.turn (h : Trails i w) (answer : Except DeviceError Unit) : Trails i (w.turn answer) := by
  obtain ⟨hcaller, houtcomes⟩ := caller_turn w answer
  refine ⟨houtcomes.trans h.outcomes, h.inline, hcaller ▸ h.deferred, hcaller ▸ h.twin, ?_⟩
  have hrequests := requests_turn w answer
  rw [h.made, hcaller]
  simp only [← List.append_assoc] at hrequests ⊢
  rw [hrequests]

/-! ## closing -/

theorem Trails.close_nil (h : Trails i w) : Trails i (w.close []) := by
  refine ⟨h.outcomes, h.inline, h.deferred, ⟨h.twin.profile, h.twin.stores, h.twin.screen⟩, ?_⟩
  rw [h.made]
  show _ = w.delivered ++ (w.held.toList ++ ((w.channel ++ w.caller.waiting) ++ []))
  rw [List.append_nil]

theorem load_turn (w : Worker) (answer : Except DeviceError Unit) : (w.turn answer).load = w.load - 1 := by
  unfold turn load
  split
  next r _ hheld => simp [hheld]
  next r rest hheld hchannel => simp [hheld, hchannel]; omega
  next hheld hchannel => simp [hheld, hchannel]

theorem isIdle_iff (w : Worker) : w.IsIdle ↔ w.load = 0 := by
  unfold IsIdle load
  cases w.held <;> cases w.channel <;> simp

/-- A thread that goes on long enough becomes idle, and its caller is left alone. -/
theorem Trails.foldl_turn (h : Trails i w) {answers : List (Except DeviceError Unit)}
    (hlong : w.load ≤ answers.length) :
    Trails i (answers.foldl Worker.turn w) ∧ (answers.foldl Worker.turn w).IsIdle
      ∧ (answers.foldl Worker.turn w).caller = w.caller := by
  induction answers generalizing w with
  | nil => exact ⟨h, (isIdle_iff w).mpr (Nat.le_zero.mp hlong), rfl⟩
  | cons answer answers ih =>
    have hload := load_turn w answer
    rw [List.length_cons] at hlong
    obtain ⟨htrails, hidle, hcaller⟩ := ih (h.turn answer) (by omega)
    exact ⟨htrails, hidle, hcaller.trans (caller_turn w answer).1⟩

theorem Trails.close (h : Trails i w) {answers : List (Except DeviceError Unit)}
    (hlong : 2 * (w.channel ++ w.caller.waiting).length + w.held.toList.length ≤ answers.length) :
    (w.close answers).IsIdle ∧ (w.close answers).delivered = i.2.delivered
      ∧ (w.close answers).caller.stores = i.2.stores := by
  obtain ⟨htrails, hidle, hcaller⟩ := h.close_nil.foldl_turn hlong
  refine ⟨hidle, ?_, htrails.twin.stores⟩
  obtain ⟨hheld, hchannel⟩ := hidle
  have hwaiting : (w.close answers).caller.waiting = [] := congrArg Session.waiting hcaller
  have hmade : i.2.delivered = (w.close answers).delivered ++ ((w.close answers).held.toList
      ++ ((w.close answers).channel ++ (w.close answers).caller.waiting)) := htrails.made
  rw [show (w.close answers).held = none from hheld, show (w.close answers).channel = [] from hchannel,
    hwaiting] at hmade
  exact (hmade.trans (List.append_nil _)).symm

/-! ## schedules -/

theorem trails_run (p : Profile) (stores : Stores) (moves : List Move) :
    Trails ((Session.start p stores .inline).useAll (moves.filterMap Move.use?)) ((start p stores).run moves) := by
  -- only uses move the session that delivers at once; it stands still while requests are on their way
  induction moves using List.reverseRecOn with
  | nil => exact ⟨rfl, rfl, rfl, ⟨rfl, rfl, rfl⟩, rfl⟩
  | append_singleton moves m ih =>
    have hrun : (start p stores).run (moves ++ [m]) = ((start p stores).run moves).move m := by
      rw [run, List.foldl_append]
      rfl
    rw [hrun, List.filterMap_append]
    cases m with
    | use u =>
      show Trails (Session.useAll _ (_ ++ [u])) _
      rw [Session.useAll_concat]
      exact ih.use u
    | send =>
      show Trails (Session.useAll _ (_ ++ [])) _
      rw [List.append_nil]
      exact ih.send
    | turn answer =>
      show Trails (Session.useAll _ (_ ++ [])) _
      rw [List.append_nil]
      exact ih.turn answer

/-- **Deferred requests are delayed and nothing else.**  Whatever the schedule and whatever the service answers, a
session whose requests are delivered by a thread gives the same outcomes, screen, stores and nodes as one that
delivers at once, and what the service has got is a beginning of what it gets at once.  When the session is taken
apart the thread becomes idle, and then the service has got exactly the same, as it has from a session that delivers
what waits when it is closed. -/
theorem deferred_eq_inline (p : Profile) (stores : Stores) (moves : List Move) :
    let uses := moves.filterMap Move.use?
    let i := (Session.start p stores .inline).useAll uses
    let w := (start p stores).run moves
    w.outcomes = i.1 ∧ w.caller.screen = i.2.screen ∧ w.caller.stores = i.2.stores
      ∧ w.delivered <+: i.2.delivered
      ∧ (∀ answers : List (Except DeviceError Unit),
        2 * (w.channel ++ w.caller.waiting).length + w.held.toList.length ≤ answers.length →
          (w.close answers).IsIdle ∧ (w.close answers).delivered = i.2.delivered
            ∧ (w.close answers).caller.stores = i.2.stores)
      ∧ ((Session.start p stores .deferred).useAll uses).2.close.delivered = i.2.delivered := by
  intro uses i w
  have h : Trails i w := trails_run p stores moves
  have htwin : Twin (Session.start p stores .inline) (Session.start p stores .deferred) := ⟨rfl, rfl, rfl⟩
  exact ⟨h.outcomes, h.twin.screen, h.twin.stores, ⟨_, h.made.symm⟩, fun _ hlong => h.close hlong,
    (htwin.delivered_close rfl rfl rfl uses).symm⟩

/-- Settings in memory only, on a device without nodes. -/
def bareStores : Stores := ⟨⟨none, .empty, none⟩, ⟨none, .empty⟩, default⟩

/-- The thread has taken a request and not made it yet; the service is going to refuse it. -/
def underWay : List Move :=
  [.use .openScreen, .use (.change "fp_pocketmode" (.switch true)), .send, .turn (.ok ())]

/-- A request that is still under way when the session is taken apart is made all the same. -/
theorem deferred_eq_inline_underWay :
    let i := (Session.start .builtin bareStores .inline).useAll (underWay.filterMap Move.use?)
    let w := (start .builtin bareStores).run underWay
    w.delivered = [] ∧ i.2.delivered = [⟨.pocketMode, false⟩]
      ∧ (w.close [.error (.service "busy")]).delivered = i.2.delivered := by
  obtain ⟨-, -, -, -, hclose, -⟩ := deferred_eq_inline .builtin bareStores underWay
  exact ⟨by decide +kernel, by decide +kernel,
    (hclose [.error (.service "busy")] (by decide +kernel)).2.1⟩

end Worker

end DeviceSettings

import DeviceSettings.Daemon.Connection
import Mathlib.Data.List.Induction
import Mathlib.Tactic.SplitIfs

/-!
# When the proximity gate is armed

What a daemon's pocket mode is doing can be read off the queries that the daemon has heard.  `IsRunning`,
`IsListening` and `IsArmed` say it of the whole history, without a state; the state agrees with them after every
history (`Host.pocket_after`).
-/

namespace DeviceSettings.Daemon

/-- A query that is heard: what the disk holds and what the clock shows at that moment. -/
structure Heard where
  query : Query
  disk : Disk
  now : Nat

def Host.hear (h : Host) (s : State) (m : Heard) : State :=
  (answer h m.now (h.wakeupOn m.disk) m.query s).2

/-- The state of a daemon that has heard some queries since it started, the latest last. -/
def Host.after (h : Host) (log : List Heard) : State := log.foldl h.hear .idle

/-- The queries of a connection that are heard; the one that ends the daemon is the last. -/
def heard (now : Nat) (disk : Disk) : List Line → List Heard
  | [] => []
  | .query q :: rest => ⟨q, disk, now⟩ :: if q.command = shutdown then [] else heard now disk rest
  | .blank :: rest | .malformed _ :: rest => heard now disk rest

theorem state_serve (h : Host) (now : Nat) (disk : Disk) (lines : List Line) (s : State) :
    (serve h now disk lines s).state = (heard now disk lines).foldl h.hear s := by
  induction lines generalizing s with
  | nil => rfl
  | cons line rest ih =>
    cases line with
    | blank => exact ih s
    | malformed why => exact ih s
    | query q =>
      rw [serve, heard]
      dsimp only
      by_cases hq : q.command = shutdown
      · rw [if_pos hq, if_pos hq]
        rfl
      · rw [if_neg hq, if_neg hq]
        exact ih _

/-! ## what a query says to pocket mode -/

namespace Query

/-- Whether pocket mode is started or stopped; a service that is not named is pocket mode. -/
def turns? (q : Query) : Option Bool :=
  if (q.command = "start" ∨ q.command = "stop") ∧ (q.service = none ∨ q.service = some .pocketMode) then
    some (q.command = "start")
  else none

/-- Whether the screen listener is set up or taken down. -/
def listens? (q : Query) : Option Bool := if q.command = "proximity" then q.enabled else none

/-- The gate is not armed after the query, whatever was before. -/
def Disarms (q : Query) : Prop :=
  q.command = "screen_on" ∨ q.turns? = some false ∨ q.listens? = some false

/-- the commands that a daemon knows -/
def commands : List String := ["start", "stop", "proximity", "screen_off", "screen_on", "status", shutdown]

/-- The query is unknown or lacks what it needs, or it starts or stops the other service. -/
def IsForeign (q : Query) : Prop :=
  q.command ∉ commands ∨ (q.command = "proximity" ∧ q.enabled = none)
    ∨ ((q.command = "start" ∨ q.command = "stop") ∧ q.service = some .doze)

theorem turns?_eq_none {q : Query} (h : ¬ (q.command = "start" ∨ q.command = "stop")) : q.turns? = none :=
  if_neg fun hq => h hq.1

theorem listens?_eq_none {q : Query} (h : q.command ≠ "proximity") : q.listens? = none := if_neg h

theorem command_of_turns? {q : Query} {on : Bool} (h : q.turns? = some on) :
    q.listens? = none ∧ q.command ≠ "screen_off" ∧ q.command ≠ "screen_on" := by
  have hturn : q.command = "start" ∨ q.command = "stop" := by
    by_contra hturn
    rw [turns?_eq_none hturn] at h
    cases h
  rcases hturn with hq | hq <;> exact ⟨listens?_eq_none (by simp [hq]), by simp [hq], by simp [hq]⟩

theorem command_of_listens? {q : Query} {on : Bool} (h : q.listens? = some on) :
    q.turns? = none ∧ q.command ≠ "screen_off" ∧ q.command ≠ "screen_on" := by
  have hq : q.command = "proximity" := by
    by_contra hq
    rw [listens?_eq_none hq] at h
    cases h
  exact ⟨turns?_eq_none (by simp [hq]), by simp [hq], by simp [hq]⟩

end Query

theorem pocket_answer (h : Host) (now : Nat) (wakeupOn : Bool) (q : Query) (s : State) :
    (answer h now wakeupOn q s).2.pocket =
      match q.turns?, q.listens? with
      | some on, _ => if on then s.pocket.start else .idle
      | none, some on => s.pocket.listen on
      | none, none =>
        if q.command = "screen_off" then s.pocket.screenOff wakeupOn
        else if q.command = "screen_on" then s.pocket.screenOn
        else s.pocket := by
  obtain ⟨command, service, enabled⟩ := q
  by_cases hturn : command = "start" ∨ command = "stop"
  · rcases hturn with rfl | rfl <;> rcases service with _ | _ | _ <;> rfl
  · obtain ⟨hstart, hstop⟩ := not_or.mp hturn
    rw [Query.turns?_eq_none hturn]
    by_cases hproximity : command = "proximity"
    · subst hproximity
      cases enabled <;> rfl
    · rw [Query.listens?_eq_none hproximity]
      unfold answer
      dsimp only
      rw [if_neg (by simp [hstart, hstop]), if_neg hproximity]
      -- of what is left only the screen changes pocket mode
      split_ifs <;> rfl

theorem pocket_answer_of_isForeign {q : Query} (hq : q.IsForeign) (h : Host) (now : Nat) (wakeupOn : Bool)
    (s : State) : (answer h now wakeupOn q s).2.pocket = s.pocket := by
  obtain ⟨command, service, enabled⟩ := q
  rcases hq with hunknown | ⟨hproximity, hlacks⟩ | ⟨hturn, hdoze⟩
  · simp only [Query.commands, List.mem_cons, List.not_mem_nil, or_false, not_or] at hunknown
    obtain ⟨hstart, hstop, hproximity, hoff, hon, -⟩ := hunknown
    have hturn : ¬ (command = "start" ∨ command = "stop") := not_or.mpr ⟨hstart, hstop⟩
    rw [pocket_answer, Query.turns?_eq_none hturn, Query.listens?_eq_none hproximity]
    dsimp only
    rw [if_neg hoff, if_neg hon]
  · subst hproximity hlacks
    rfl
  · subst hdoze
    rcases hturn with rfl | rfl <;> rfl

/-! ## what the history says -/

/-- The latest answer that the queries of a history give to a question. -/
def latest? (f : Query → Option Bool) (log : List Heard) : Option Bool :=
  (log.filterMap fun m => f m.query).getLast?

/-- Pocket mode was started later than it was stopped. -/
def IsRunning (log : List Heard) : Prop := latest? Query.turns? log = some true

/-- Pocket mode was started, and has not been stopped since; `later` is what was heard since then. -/
def IsPeriod (log later : List Heard) : Prop :=
  ∃ before start, log = before ++ start :: later ∧ ¬ IsRunning before ∧ start.query.turns? = some true
    ∧ ∀ m ∈ later, m.query.turns? ≠ some false

/-- Since pocket mode began to run, its listener was set up later than it was taken down. -/
def IsListening (log : List Heard) : Prop :=
  ∃ later, IsPeriod log later ∧ latest? Query.listens? later = some true

/-- The screen goes off while the wakeup node reads as on and the listener is there. -/
def Host.Arms (h : Host) (before : List Heard) (m : Heard) : Prop :=
  m.query.command = "screen_off" ∧ (∃ node, h.wakeupNode = some node ∧ Node.token? m.disk node = some "1")
    ∧ IsRunning before ∧ IsListening before

/-- The gate was armed, and nothing has disarmed it since. -/
def Host.IsArmed (h : Host) (log : List Heard) : Prop :=
  ∃ before m after, log = before ++ m :: after ∧ h.Arms before m ∧ ∀ x ∈ after, ¬ x.query.Disarms

theorem latest?_nil (f : Query → Option Bool) : latest? f [] = none := rfl

theorem latest?_concat (f : Query → Option Bool) (log : List Heard) (m : Heard) :
    latest? f (log ++ [m]) = (f m.query).or (latest? f log) := by
  unfold latest?
  rw [List.filterMap_append]
  cases hm : f m.query with
  | none => simp [hm]
  | some b => simp [hm]

theorem isRunning_concat (log : List Heard) (m : Heard) :
    IsRunning (log ++ [m]) ↔ m.query.turns? = some true ∨ (m.query.turns? = none ∧ IsRunning log) := by
  unfold IsRunning
  rw [latest?_concat]
  cases m.query.turns? <;> simp

/-- A history that ends in a query is cut at that query or before it. -/
theorem cut_concat {log before after : List Heard} {m x : Heard} :
    log ++ [m] = before ++ x :: after ↔
      (before = log ∧ x = m ∧ after = []) ∨ ∃ rest, after = rest ++ [m] ∧ log = before ++ x :: rest := by
  constructor
  · intro h
    rcases List.eq_nil_or_concat after with rfl | ⟨rest, y, rfl⟩
    · obtain ⟨rfl, hx⟩ := List.append_inj' h rfl
      exact .inl ⟨rfl, (List.cons.inj hx).1.symm, rfl⟩
    · rw [List.concat_eq_append, ← List.cons_append, ← List.append_assoc] at h
      obtain ⟨rfl, hy⟩ := List.append_inj' h rfl
      exact .inr ⟨rest, by rw [List.concat_eq_append, (List.cons.inj hy).1], rfl⟩
  · rintro (⟨rfl, rfl, rfl⟩ | ⟨rest, rfl, rfl⟩)
    · rfl
    · rw [List.append_assoc, List.cons_append]

theorem isPeriod_concat {log later : List Heard} {m : Heard} :
    IsPeriod (log ++ [m]) later ↔
      (later = [] ∧ ¬ IsRunning log ∧ m.query.turns? = some true)
        ∨ ∃ rest, later = rest ++ [m] ∧ IsPeriod log rest ∧ m.query.turns? ≠ some false := by
  unfold IsPeriod
  constructor
  · rintro ⟨before, start, hcut, hbefore, hstart, hlater⟩
    rcases cut_concat.mp hcut with ⟨rfl, rfl, rfl⟩ | ⟨rest, rfl, hlog⟩
    · exact .inl ⟨rfl, hbefore, hstart⟩
    · refine .inr ⟨rest, rfl, ⟨before, start, hlog, hbefore, hstart, fun x hx => ?_⟩, ?_⟩
      · exact hlater x (List.mem_append_left _ hx)
      · exact hlater m (List.mem_append_right _ (List.mem_singleton_self m))
  · rintro (⟨rfl, hlog, hm⟩ | ⟨rest, rfl, ⟨before, start, rfl, hbefore, hstart, hrest⟩, hm⟩)
    · exact ⟨log, m, rfl, hlog, hm, fun x hx => by cases hx⟩
    · refine ⟨before, start, cut_concat.mpr (.inr ⟨rest, rfl, rfl⟩), hbefore, hstart, fun x hx => ?_⟩
      rcases List.mem_append.mp hx with hx | hx
      · exact hrest x hx
      · exact List.mem_singleton.mp hx ▸ hm

/-- Pocket mode runs while there is a period in which it does. -/
theorem isRunning_iff_isPeriod (log : List Heard) : IsRunning log ↔ ∃ later, IsPeriod log later := by
  induction log using List.reverseRecOn with
  | nil =>
    refine ⟨nofun, fun ⟨later, before, start, h, _⟩ => ?_⟩
    exact absurd h.symm (List.append_ne_nil_of_right_ne_nil _ (List.cons_ne_nil _ _))
  | append_singleton log m ih =>
    rw [isRunning_concat]
    constructor
    · rintro (hm | ⟨hm, hlog⟩)
      · -- starting again what runs does not begin a period
        by_cases hlog : IsRunning log
        · obtain ⟨later, hlater⟩ := ih.mp hlog
          exact ⟨_, isPeriod_concat.mpr (.inr ⟨later, rfl, hlater, by simp [hm]⟩)⟩
        · exact ⟨[], isPeriod_concat.mpr (.inl ⟨rfl, hlog, hm⟩)⟩
      · obtain ⟨later, hlater⟩ := ih.mp hlog
        exact ⟨_, isPeriod_concat.mpr (.inr ⟨later, rfl, hlater, by simp [hm]⟩)⟩
    · rintro ⟨later, hlater⟩
      rcases isPeriod_concat.mp hlater with ⟨-, -, hm⟩ | ⟨rest, -, hrest, hm⟩
      · exact .inl hm
      · cases hturns : m.query.turns? with
        | none => exact .inr ⟨rfl, ih.mpr ⟨rest, hrest⟩⟩
        | some on =>
          cases on with
          | true => exact .inl rfl
          | false => exact absurd hturns hm

theorem IsListening.isRunning {log : List Heard} (h : IsListening log) : IsRunning log := by
  obtain ⟨later, hlater, -⟩ := h
  exact (isRunning_iff_isPeriod log).mpr ⟨later, hlater⟩

theorem isListening_concat (log : List Heard) (m : Heard) :
    IsListening (log ++ [m]) ↔
      m.query.turns? ≠ some false
        ∧ ((m.query.listens? = some true ∧ IsRunning log) ∨ (m.query.listens? = none ∧ IsListening log)) := by
  constructor
  · rintro ⟨later, hlater, hlatest⟩
    rcases isPeriod_concat.mp hlater with ⟨rfl, -, -⟩ | ⟨rest, rfl, hrest, hm⟩
    · cases hlatest
    · refine ⟨hm, ?_⟩
      rw [latest?_concat] at hlatest
      cases hlistens : m.query.listens? with
      | none =>
        rw [hlistens] at hlatest
        exact .inr ⟨rfl, rest, hrest, hlatest⟩
      | some on =>
        rw [hlistens] at hlatest
        exact .inl ⟨hlatest, (isRunning_iff_isPeriod log).mpr ⟨rest, hrest⟩⟩
  · rintro ⟨hm, ⟨hlistens, hlog⟩ | ⟨hlistens, later, hlater, hlatest⟩⟩
    · obtain ⟨later, hlater⟩ := (isRunning_iff_isPeriod log).mp hlog
      refine ⟨_, isPeriod_concat.mpr (.inr ⟨later, rfl, hlater, hm⟩), ?_⟩
      rw [latest?_concat, hlistens]
      rfl
    · refine ⟨_, isPeriod_concat.mpr (.inr ⟨later, rfl, hlater, hm⟩), ?_⟩
      rw [latest?_concat, hlistens]
      exact hlatest

theorem Host.isArmed_concat (h : Host) (log : List Heard) (m : Heard) :
    h.IsArmed (log ++ [m]) ↔ h.Arms log m ∨ (h.IsArmed log ∧ ¬ m.query.Disarms) := by
  constructor
  · rintro ⟨before, x, after, hcut, harms, hafter⟩
    rcases cut_concat.mp hcut with ⟨rfl, rfl, rfl⟩ | ⟨rest, rfl, rfl⟩
    · exact .inl harms
    · refine .inr ⟨⟨before, x, rest, rfl, harms, fun y hy => ?_⟩, ?_⟩
      · exact hafter y (List.mem_append_left _ hy)
      · exact hafter m (List.mem_append_right _ (List.mem_singleton_self m))
  · rintro (harms | ⟨⟨before, x, rest, rfl, harms, hrest⟩, hm⟩)
    · exact ⟨log, m, [], rfl, harms, fun x hx => by cases hx⟩
    · refine ⟨before, x, rest ++ [m], cut_concat.mpr (.inr ⟨rest, rfl, rfl⟩), harms, fun y hy => ?_⟩
      rcases List.mem_append.mp hy with hy | hy
      · exact hrest y hy
      · exact List.mem_singleton.mp hy ▸ hm

/-! ## the state -/

theorem PocketState.IsSound.of_not_running {s : PocketState} (h : s.IsSound) (hr : s.running = false) :
    s.listening = false ∧ s.armed = false := by
  obtain ⟨harmed, hlistening⟩ := h
  have hl : s.listening = false := by simpa [hr] using hlistening
  exact ⟨hl, by simpa [hl] using harmed⟩

theorem PocketState.IsSound.of_not_listening {s : PocketState} (h : s.IsSound) (hl : s.listening = false) :
    s.armed = false := by
  simpa [hl] using h.1

/-- The state of pocket mode is what the history says of it. -/
structure Host.Tells (h : Host) (log : List Heard) (s : PocketState) : Prop where
  running : s.running = true ↔ IsRunning log
  listening : s.listening = true ↔ IsListening log
  armed : s.armed = true ↔ h.IsArmed log
  sound : s.IsSound

theorem Host.tells_nil (h : Host) : h.Tells [] .idle := by
  refine ⟨by simp [PocketState.idle, IsRunning, latest?_nil], ⟨nofun, fun hl => ?_⟩, ⟨nofun, fun ha => ?_⟩,
    PocketState.isSound_idle⟩
  · cases hl.isRunning
  · obtain ⟨before, m, after, hnil, -⟩ := ha
    exact absurd hnil.symm (List.append_ne_nil_of_right_ne_nil _ (List.cons_ne_nil _ _))

theorem Host.wakeupOn_iff (h : Host) (disk : Disk) :
    h.wakeupOn disk = true ↔ ∃ node, h.wakeupNode = some node ∧ Node.token? disk node = some "1" := by
  rw [Host.wakeupOn]
  cases h.wakeupNode with
  | none => simp
  | some node => simp [Node.isSet_eq, Value.switchToken]

section
variable {h : Host} {log : List Heard} {s : State} {m : Heard}

theorem Host.not_arms (hm : m.query.command ≠ "screen_off") : ¬ h.Arms log m := fun harms => hm harms.1

theorem Host.Tells.start (hs : h.Tells log s.pocket) (hm : m.query.turns? = some true) :
    h.Tells (log ++ [m]) s.pocket.start := by
  obtain ⟨hlistens, hoff, hon⟩ := Query.command_of_turns? hm
  refine ⟨?_, ?_, ?_, hs.sound.start⟩
  · rw [isRunning_concat]
    exact ⟨fun _ => .inl hm, fun _ => rfl⟩
  · show s.pocket.listening = true ↔ _
    rw [isListening_concat, hm, hlistens]
    simpa using hs.listening
  · show s.pocket.armed = true ↔ _
    rw [Host.isArmed_concat]
    simpa [Host.not_arms hoff, Query.Disarms, hm, hlistens, hon] using hs.armed

theorem Host.Tells.stop (hm : m.query.turns? = some false) : h.Tells (log ++ [m]) .idle := by
  obtain ⟨-, hoff, -⟩ := Query.command_of_turns? hm
  refine ⟨?_, ?_, ?_, PocketState.isSound_idle⟩
  · simp [isRunning_concat, hm, PocketState.idle]
  · simp [isListening_concat, hm, PocketState.idle]
  · simp [Host.isArmed_concat, Host.not_arms hoff, Query.Disarms, hm, PocketState.idle]

theorem Host.Tells.listen (hs : h.Tells log s.pocket) {on : Bool} (hm : m.query.listens? = some on) :
    h.Tells (log ++ [m]) (s.pocket.listen on) := by
  obtain ⟨hturns, hoff, hon⟩ := Query.command_of_listens? hm
  have hrunning : IsRunning (log ++ [m]) ↔ IsRunning log := by simp [isRunning_concat, hturns]
  have hlistening : IsListening (log ++ [m]) ↔ on = true ∧ IsRunning log := by
    simp [isListening_concat, hturns, hm]
  have harmed : h.IsArmed (log ++ [m]) ↔ h.IsArmed log ∧ on = true := by
    simp [Host.isArmed_concat, Host.not_arms hoff, Query.Disarms, hturns, hm, hon]
  cases hr : s.pocket.running with
  | true =>
    have heq : s.pocket.listen on = { s.pocket with listening := on, armed := s.pocket.armed && on } := by
      rw [PocketState.listen, if_pos hr]
    refine ⟨?_, ?_, ?_, hs.sound.listen on⟩ <;> rw [heq]
    · rw [hrunning, ← hs.running]
    · rw [hlistening, ← hs.running, hr, and_iff_left rfl]
    · rw [harmed, ← hs.armed, Bool.and_eq_true]
  | false =>
    -- a service that does not run takes no listener, so it has none
    obtain ⟨hlistener, hgate⟩ := hs.sound.of_not_running hr
    have heq : s.pocket.listen on = s.pocket := by rw [PocketState.listen, hr, if_neg Bool.false_ne_true]
    refine ⟨?_, ?_, ?_, hs.sound.listen on⟩ <;> rw [heq]
    · rw [hrunning, hs.running]
    · rw [hlistening, ← hs.running, hr, hlistener]
      simp
    · rw [harmed, ← hs.armed, hgate]
      simp

/-- Queries that neither turn pocket mode nor its listener on or off concern its gate at most. -/
theorem Host.Tells.gate (hs : h.Tells log s.pocket) (hturns : m.query.turns? = none)
    (hlistens : m.query.listens? = none) (armed : Bool)
    (harmed : armed = true ↔ h.Arms log m ∨ (s.pocket.armed = true ∧ m.query.command ≠ "screen_on"))
    (hsound : { s.pocket with armed }.IsSound) : h.Tells (log ++ [m]) { s.pocket with armed } := by
  refine ⟨?_, ?_, ?_, hsound⟩
  · simpa [isRunning_concat, hturns] using hs.running
  · simpa [isListening_concat, hturns, hlistens] using hs.listening
  · simpa [Host.isArmed_concat, ← hs.armed, Query.Disarms, hturns, hlistens] using harmed

theorem Host.Tells.screenOff (hs : h.Tells log s.pocket) (hm : m.query.command = "screen_off") :
    h.Tells (log ++ [m]) (s.pocket.screenOff (h.wakeupOn m.disk)) := by
  have hturns : m.query.turns? = none := Query.turns?_eq_none (by simp [hm])
  have hlistens : m.query.listens? = none := Query.listens?_eq_none (by simp [hm])
  have harms : h.Arms log m ↔
      h.wakeupOn m.disk = true ∧ s.pocket.running = true ∧ s.pocket.listening = true := by
    rw [Host.Arms, ← Host.wakeupOn_iff, ← hs.running, ← hs.listening, and_iff_right hm]
  have hsound := hs.sound.screenOff (h.wakeupOn m.disk)
  by_cases hready : (s.pocket.running && s.pocket.listening && h.wakeupOn m.disk) = true
  · have heq : s.pocket.screenOff (h.wakeupOn m.disk) = { s.pocket with armed := true } := if_pos hready
    rw [heq] at hsound ⊢
    refine hs.gate hturns hlistens true (iff_of_true rfl (.inl (harms.mpr ?_))) hsound
    simpa [and_assoc, and_comm, and_left_comm] using hready
  · have heq : s.pocket.screenOff (h.wakeupOn m.disk) = s.pocket := if_neg hready
    have hnot : ¬ h.Arms log m := fun ha => hready (by simp [harms.mp ha])
    rw [heq]
    exact hs.gate hturns hlistens s.pocket.armed (by simp [hnot, hm]) hs.sound

theorem Host.Tells.screenOn (hs : h.Tells log s.pocket) (hm : m.query.command = "screen_on") :
    h.Tells (log ++ [m]) s.pocket.screenOn := by
  have hturns : m.query.turns? = none := Query.turns?_eq_none (by simp [hm])
  have hlistens : m.query.listens? = none := Query.listens?_eq_none (by simp [hm])
  have hnot : ¬ h.Arms log m := Host.not_arms (by simp [hm])
  have hsound := hs.sound.screenOn
  by_cases hl : s.pocket.listening = true
  · have heq : s.pocket.screenOn = { s.pocket with armed := false } := if_pos hl
    rw [heq] at hsound ⊢
    exact hs.gate hturns hlistens false (by simp [hnot, hm]) hsound
  · have heq : s.pocket.screenOn = s.pocket := if_neg hl
    have hgate := hs.sound.of_not_listening (Bool.eq_false_iff.mpr hl)
    rw [heq]
    exact hs.gate hturns hlistens s.pocket.armed (by simp [hnot, hm, hgate]) hs.sound

theorem Host.Tells.hear (hs : h.Tells log s.pocket) (m : Heard) :
    h.Tells (log ++ [m]) (h.hear s m).pocket := by
  unfold Host.hear
  rw [pocket_answer]
  cases hturns : m.query.turns? with
  | some on =>
    cases on with
    | true => exact hs.start hturns
    | false => exact .stop hturns
  | none =>
    cases hlistens : m.query.listens? with
    | some on => exact hs.listen hlistens
    | none =>
      dsimp only
      by_cases hoff : m.query.command = "screen_off"
      · rw [if_pos hoff]
        exact hs.screenOff hoff
      · rw [if_neg hoff]
        by_cases hon : m.query.command = "screen_on"
        · rw [if_pos hon]
          exact hs.screenOn hon
        · rw [if_neg hon]
          exact hs.gate hturns hlistens s.pocket.armed (by simp [Host.not_arms hoff, hon]) hs.sound

end

theorem Host.tells_after (h : Host) (log : List Heard) : h.Tells log (h.after log).pocket := by
  induction log using List.reverseRecOn with
  | nil => exact h.tells_nil
  | append_singleton log m ih =>
    have hafter : h.after (log ++ [m]) = h.hear (h.after log) m := by
      rw [Host.after, List.foldl_append]
      rfl
    rw [hafter]
    exact ih.hear m

/-- **The proximity gate is armed exactly when it should be.**  Whatever a daemon has been asked, its gate is armed
if and only if the screen went off while the wakeup node read as on, pocket mode was running and its listener was
there, and since then the screen has not come on and neither pocket mode nor its listener has been stopped.  An
armed gate has a listener, a listener belongs to a service that runs, and what does not concern pocket mode leaves
it as it is. -/
theorem Host.pocket_after (h : Host) (log : List Heard) :
    ((h.after log).pocket.armed = true ↔
      ∃ before m after, log = before ++ m :: after ∧ h.Arms before m ∧ ∀ x ∈ after, ¬ x.query.Disarms)
    ∧ ((h.after log).pocket.running = true ↔ IsRunning log)
    ∧ ((h.after log).pocket.listening = true ↔ IsListening log)
    ∧ (h.after log).pocket.IsSound
    ∧ ∀ m : Heard, m.query.IsForeign → (h.after (log ++ [m])).pocket = (h.after log).pocket := by
  have htells := h.tells_after log
  refine ⟨htells.armed, htells.running, htells.listening, htells.sound, fun m hm => ?_⟩
  rw [Host.after, List.foldl_append]
  exact pocket_answer_of_isForeign hm h m.now (h.wakeupOn m.disk) _

/-- Waking by fingerprint is on. -/
def wakeable : Disk := ⟨.ofList [(["w"], .file "1".toUTF8 Disk.fileMode)], []⟩

/-- Pocket mode is started and given its listener. -/
def prepared : List Heard := [⟨.named "start", wakeable, 1⟩, ⟨⟨"proximity", none, some true⟩, wakeable, 2⟩]

/-- The screen goes off, and the gate is armed; that the other service is started then leaves it so. -/
theorem armed_prepared :
    let h : Host := ⟨some ⟨"w"⟩, 7, 0⟩
    let log := prepared ++ [⟨.named "screen_off", wakeable, 3⟩]
    (h.after log).pocket.armed = true
      ∧ (h.after (log ++ [⟨.ofRequest ⟨.doze, true⟩, wakeable, 4⟩])).pocket = (h.after log).pocket := by
  intro h log
  obtain ⟨harmed, -, -, -, hforeign⟩ := h.pocket_after log
  have hperiod : IsPeriod prepared (prepared.drop 1) :=
    ⟨[], _, rfl, nofun, rfl, by decide⟩
  have harms : h.Arms prepared ⟨.named "screen_off", wakeable, 3⟩ :=
    ⟨rfl, ⟨⟨"w"⟩, rfl, by decide +kernel⟩, rfl, ⟨_, hperiod, rfl⟩⟩
  exact ⟨harmed.mpr ⟨prepared, _, [], rfl, harms, nofun⟩, hforeign _ (.inr (.inr ⟨.inl rfl, rfl⟩))⟩

end DeviceSettings.Daemon

import DeviceSettings.Proofs.Arming

/-!
# Many clients at once

Any number of clients have connections to one daemon.  A query is answered in one step, under the lock of the
state; only when the screen goes off is the wakeup node read before, in a step of its own, and by the time the lock
is taken others may have changed the state and the node.  Whatever the order of the steps, pocket mode stays sound
and the transitions that are reported alternate (`Crowd.transitions_alternate`).
-/

namespace DeviceSettings.Daemon

/-! ## connections side by side -/

/-- A connection: the lines that have yet to be taken, and the query that waits for the lock with what the wakeup
node was when it was read. -/
structure Call where
  lines : List Line
  held : Option (Query × Bool)

/-- A line that has been answered, and whose it was. -/
structure Answered where
  client : Nat
  line : Line
  reply : Reply

/-- A daemon and all connections that it has had.  The log is in the order in which the lock was taken. -/
structure Crowd where
  state : State
  calls : List Call
  log : List Answered
  disk : Disk
  now : Nat

/-- What happens next. -/
inductive Turn
  /-- a client connects; these are the bytes that it is going to write -/
  | connect (b : ByteArray)
  /-- the daemon goes on with a connection -/
  | goOn (client : Nat)
  /-- the disk and the clock change -/
  | outside (disk : Disk) (now : Nat)

namespace Crowd

def start (disk : Disk) (now : Nat) : Crowd := ⟨.idle, [], [], disk, now⟩

/-- The connection of a client becomes another one. -/
def setCall (client : Nat) (call : Call) (c : Crowd) : Crowd :=
  { c with calls := c.calls.set client call }

/-- Answers a query while the lock is held. -/
def answer (h : Host) (client : Nat) (q : Query) (wakeupOn : Bool) (c : Crowd) : Crowd :=
  let (reply, state) := Daemon.answer h c.now wakeupOn q c.state
  { c with state, log := c.log ++ [⟨client, .query q, reply⟩] }

/-- Goes on with a connection: it takes its next line, or the lock that it waits for. -/
def advance (h : Host) (client : Nat) (call : Call) (c : Crowd) : Crowd :=
  match call with
  | ⟨rest, some (q, wakeupOn)⟩ => (c.setCall client ⟨rest, none⟩).answer h client q wakeupOn
  | ⟨[], none⟩ => c
  | ⟨.blank :: rest, none⟩ => c.setCall client ⟨rest, none⟩
  | ⟨.malformed why :: rest, none⟩ =>
    { c.setCall client ⟨rest, none⟩ with
      log := c.log ++ [⟨client, .malformed why, .failure (malformedMessage why)⟩] }
  | ⟨.query q :: rest, none⟩ =>
    if q.command = "screen_off" then c.setCall client ⟨rest, some (q, h.wakeupOn c.disk)⟩
    else
      let rest := if q.command = shutdown then [] else rest
      (c.setCall client ⟨rest, none⟩).answer h client q (h.wakeupOn c.disk)

def turn (h : Host) (c : Crowd) : Turn → Crowd
  | .connect b => { c with calls := c.calls ++ [⟨Line.ofBytes b, none⟩] }
  | .goOn client =>
    match c.calls[client]? with
    | some call => c.advance h client call
    | none => c
  | .outside disk now => { c with disk, now }

def run (h : Host) (c : Crowd) (turns : List Turn) : Crowd := turns.foldl (turn h) c

theorem run_cons (h : Host) (c : Crowd) (t : Turn) (turns : List Turn) :
    c.run h (t :: turns) = (c.turn h t).run h turns := rfl

theorem calls_setCall {client : Nat} {call : Call} {c : Crowd} (hc : c.calls[client]? = some call)
    (next : Call) : (c.setCall client next).calls[client]? = some next := by
  obtain ⟨hlt, -⟩ := List.getElem?_eq_some_iff.mp hc
  exact List.getElem?_set_self hlt

theorem turn_goOn {client : Nat} {call : Call} {c : Crowd} (hc : c.calls[client]? = some call) (h : Host) :
    c.turn h (.goOn client) = c.advance h client call := by
  rw [turn, hc]

/-! ## one client alone -/

/-- Turns of one client lead to a state and to more replies. -/
def Leads (h : Host) (client : Nat) (c : Crowd) (state : State) (replies : List Reply) : Prop :=
  ∃ n, (c.run h (List.replicate n (.goOn client))).state = state
    ∧ (c.run h (List.replicate n (.goOn client))).log.map Answered.reply = c.log.map Answered.reply ++ replies

theorem Leads.turn {h : Host} {client : Nat} {c c' : Crowd} {state : State} {first replies : List Reply}
    (hturn : c.turn h (.goOn client) = c') (hlog : c'.log.map Answered.reply = c.log.map Answered.reply ++ first)
    (hrest : Leads h client c' state replies) : Leads h client c state (first ++ replies) := by
  obtain ⟨n, hstate, hreplies⟩ := hrest
  refine ⟨n + 1, ?_⟩
  rw [List.replicate_succ, run_cons, hturn, hreplies, hlog, List.append_assoc]
  exact ⟨hstate, rfl⟩

/-- On a connection that nobody disturbs the lines are answered as they are when it is the only one. -/
theorem leads_serve (h : Host) (client : Nat) (lines : List Line) (c : Crowd)
    (hc : c.calls[client]? = some ⟨lines, none⟩) :
    Leads h client c (serve h c.now c.disk lines c.state).state (serve h c.now c.disk lines c.state).replies := by
  induction lines generalizing c with
  | nil => exact ⟨0, rfl, (List.append_nil _).symm⟩
  | cons line rest ih =>
    have hnext := calls_setCall hc ⟨rest, none⟩
    have hturn := turn_goOn hc h
    cases line with
    | blank => exact .turn hturn (List.append_nil _).symm (ih _ hnext)
    | malformed why => exact .turn hturn List.map_append (ih _ hnext)
    | query q =>
      rw [serve]
      dsimp only
      by_cases hoff : q.command = "screen_off"
      · -- the node is read in the first turn, and the lock is taken in the second
        rw [advance, if_pos hoff] at hturn
        have hheld := calls_setCall hc ⟨rest, some (q, h.wakeupOn c.disk)⟩
        have hlock := turn_goOn hheld h
        have hnot : q.command ≠ shutdown := by rw [hoff]; decide
        rw [if_neg hnot]
        refine .turn hturn (List.append_nil _).symm ?_
        show Leads h client _ _ ([_] ++ _)
        exact .turn hlock List.map_append (ih _ (calls_setCall hheld ⟨rest, none⟩))
      · rw [advance, if_neg hoff] at hturn
        by_cases hend : q.command = shutdown
        · rw [if_pos hend] at hturn ⊢
          show Leads h client c _ ([_] ++ [])
          exact .turn hturn List.map_append ⟨0, rfl, (List.append_nil _).symm⟩
        · rw [if_neg hend] at hturn ⊢
          show Leads h client c _ ([_] ++ _)
          exact .turn hturn List.map_append (ih _ hnext)

/-! ## what one turn does -/

/-- A turn answers a query with whatever its wakeup node was when it was read, or it leaves the state as it is. -/
theorem turn_cases (h : Host) (c : Crowd) (t : Turn) :
    (∃ client q wakeupOn, (c.turn h t).state = (Daemon.answer h c.now wakeupOn q c.state).2
        ∧ (c.turn h t).log = c.log ++ [⟨client, .query q, (Daemon.answer h c.now wakeupOn q c.state).1⟩])
      ∨ (c.turn h t).state = c.state
        ∧ ((c.turn h t).log = c.log
          ∨ ∃ client why, (c.turn h t).log = c.log ++ [⟨client, .malformed why, .failure (malformedMessage why)⟩]) := by
  cases t with
  | connect b => exact .inr ⟨rfl, .inl rfl⟩
  | outside disk now => exact .inr ⟨rfl, .inl rfl⟩
  | goOn client =>
    cases hcall : c.calls[client]? with
    | none =>
      have hturn : c.turn h (.goOn client) = c := by rw [turn, hcall]
      exact .inr ⟨congrArg state hturn, .inl (congrArg log hturn)⟩
    | some call =>
      rw [turn_goOn hcall]
      obtain ⟨lines, _ | ⟨q, wakeupOn⟩⟩ := call
      · match lines with
        | [] => exact .inr ⟨rfl, .inl rfl⟩
        | .blank :: rest => exact .inr ⟨rfl, .inl rfl⟩
        | .malformed why :: rest => exact .inr ⟨rfl, .inr ⟨client, why, rfl⟩⟩
        | .query q :: rest =>
          rw [advance]
          split
          · exact .inr ⟨rfl, .inl rfl⟩
          · exact .inl ⟨client, q, _, rfl, rfl⟩
      · exact .inl ⟨client, q, wakeupOn, rfl, rfl⟩

end Crowd

theorem PocketState.IsSound.answer {s : State} (hs : s.pocket.IsSound) (h : Host) (now : Nat) (wakeupOn : Bool)
    (q : Query) : (Daemon.answer h now wakeupOn q s).2.pocket.IsSound := by
  rw [pocket_answer]
  split
  · split
    · exact hs.start
    · exact PocketState.isSound_idle
  · exact hs.listen _
  · split_ifs
    · exact hs.screenOff wakeupOn
    · exact hs.screenOn
    · exact hs

/-! ## transitions -/

theorem State.runs_set (s : State) (r : Request) (service : Service) :
    (s.set r).runs service = if service = r.service then r.start else s.runs service := by
  obtain ⟨_ | _, _ | _⟩ := r <;> cases service <;> rfl

namespace PocketState

theorem running_listen (s : PocketState) (on : Bool) : (s.listen on).running = s.running := by
  unfold listen
  split <;> rfl

theorem running_screenOff (s : PocketState) (wakeupOn : Bool) : (s.screenOff wakeupOn).running = s.running := by
  unfold screenOff
  split <;> rfl

theorem running_screenOn (s : PocketState) : s.screenOn.running = s.running := by
  unfold screenOn
  split <;> rfl

end PocketState

/-- Does the query ask for a service to be started or stopped? -/
def Query.IsTurn (q : Query) : Prop := q.command = "start" ∨ q.command = "stop"

instance (q : Query) : Decidable q.IsTurn := inferInstanceAs (Decidable (_ ∨ _))

/-- What a query asks for, if it asks for a service to be started or stopped. -/
def Query.request (q : Query) : Request := ⟨q.service.getD .pocketMode, q.command = "start"⟩

theorem answer_of_isTurn {q : Query} (hq : q.IsTurn) (h : Host) (now : Nat) (wakeupOn : Bool) (s : State) :
    answer h now wakeupOn q s = (.success (sorted [("service", .text q.request.service.name),
      ("running", .boolean q.request.start), ("changed", .boolean (s.changes q.request))]), s.set q.request) := by
  rw [answer, if_pos (by simpa [Query.IsTurn] using hq)]
  rfl

theorem running_answer {q : Query} (hq : ¬ q.IsTurn) (h : Host) (now : Nat) (wakeupOn : Bool) (s : State) :
    (answer h now wakeupOn q s).2.pocket.running = s.pocket.running := by
  rw [pocket_answer, Query.turns?_eq_none hq]
  cases q.listens? with
  | some on => exact s.pocket.running_listen on
  | none =>
    dsimp only
    split_ifs
    · exact s.pocket.running_screenOff wakeupOn
    · exact s.pocket.running_screenOn
    · rfl

theorem doze_answer {q : Query} (hq : ¬ q.IsTurn) (h : Host) (now : Nat) (wakeupOn : Bool) (s : State) :
    (answer h now wakeupOn q s).2.doze = s.doze := by
  rw [answer, if_neg (by simpa [Query.IsTurn] using hq)]
  split_ifs
  · cases q.enabled <;> rfl
  all_goals rfl

/-- Only queries that ask for it start or stop a service. -/
theorem runs_answer {q : Query} (hq : ¬ q.IsTurn) (h : Host) (now : Nat) (wakeupOn : Bool) (s : State)
    (service : Service) : (answer h now wakeupOn q s).2.runs service = s.runs service := by
  cases service with
  | pocketMode => exact running_answer hq h now wakeupOn s
  | doze => exact doze_answer hq h now wakeupOn s

namespace Reply

/-- What the reply's data has under a name. -/
def field? (r : Reply) (name : String) : Option Json.Value :=
  match r.data with
  | some (.object fields) => Table.find name fields
  | _ => none

/-- The reply is about a service and says that it changed. -/
def reports (r : Reply) (service : Service) : Bool :=
  match r.field? "service", r.field? "changed" with
  | some (.text name), some (.boolean changed) => name == service.name && changed
  | _, _ => false

theorem field?_sorted (fields : List (String × Json.Value)) (name : String) :
    (success (sorted fields)).field? name = (Table.ofList fields).get? name := rfl

end Reply

theorem Service.name_inj {a b : Service} : a.name = b.name ↔ a = b := by
  cases a <;> cases b <;> decide

theorem reports_answer {q : Query} (hq : q.IsTurn) (h : Host) (now : Nat) (wakeupOn : Bool) (s : State)
    (service : Service) : (answer h now wakeupOn q s).1.reports service
      = (decide (service = q.request.service) && s.changes q.request) := by
  rw [answer_of_isTurn hq, Reply.reports, Reply.field?_sorted, Reply.field?_sorted]
  simp [Table.ofList, Bool.beq_eq_decide_eq, Service.name_inj, eq_comm]

/-- The command of an answered query that started or stopped a service. -/
def Answered.transition? (service : Service) (a : Answered) : Option String :=
  match a.line with
  | .query q => if q.IsTurn ∧ a.reply.reports service then some q.command else none
  | .blank | .malformed _ => none

theorem transition?_answer (h : Host) (now : Nat) (wakeupOn : Bool) (q : Query) (s : State) (client : Nat)
    (service : Service) : Answered.transition? service ⟨client, .query q, (answer h now wakeupOn q s).1⟩
      = if q.IsTurn ∧ service = q.request.service ∧ s.runs service ≠ q.request.start then some q.command
        else none := by
  refine if_congr (and_congr_right fun hq => ?_) rfl rfl
  show (answer h now wakeupOn q s).1.reports service = true ↔ _
  rw [reports_answer hq, Bool.and_eq_true, decide_eq_true_iff]
  refine and_congr_right fun hservice => ?_
  rw [State.changes, bne_iff_ne, hservice]

/-- The commands that started or stopped a service, in the order of the lock. -/
def Crowd.transitions (service : Service) (c : Crowd) : List String :=
  c.log.filterMap (Answered.transition? service)

theorem Crowd.transitions_concat {c c' : Crowd} {a : Answered} (hlog : c'.log = c.log ++ [a])
    (service : Service) : c'.transitions service = c.transitions service ++ (a.transition? service).toList := by
  rw [transitions, hlog, List.filterMap_append, List.filterMap_cons, List.filterMap_nil]
  cases a.transition? service <;> rfl

/-- Start, stop, start and so on, `n` in all. -/
def alternation (n : Nat) : List String := (List.range n).map fun i => if i % 2 = 0 then "start" else "stop"

theorem alternation_succ (n : Nat) :
    alternation (n + 1) = alternation n ++ [if n % 2 = 0 then "start" else "stop"] := by
  rw [alternation, List.range_succ, List.map_append]
  rfl

theorem count_alternation (n : Nat) :
    ((alternation n).count "start" : Int) - (alternation n).count "stop" = (n % 2 : Nat) := by
  induction n with
  | zero => rfl
  | succ n ih =>
    rw [alternation_succ, List.count_append, List.count_append]
    rcases Nat.mod_two_eq_zero_or_one n with hn | hn <;> simp [hn] at ih ⊢ <;> omega

/-- The transitions of a service so far alternate, and the last one says whether it runs. -/
structure Tally (service : Service) (s : State) (transitions : List String) : Prop where
  alternate : transitions = alternation transitions.length
  parity : transitions.length % 2 = (s.runs service).toNat

namespace Tally
variable {service : Service} {s t : State} {transitions : List String}

theorem stay (ht : Tally service s transitions) (hruns : t.runs service = s.runs service) :
    Tally service t transitions :=
  ⟨ht.alternate, hruns ▸ ht.parity⟩

theorem flip (ht : Tally service s transitions) {q : Query} (hq : q.IsTurn)
    (hs : s.runs service ≠ q.request.start) (hruns : t.runs service = q.request.start) :
    Tally service t (transitions ++ [q.command]) := by
  have hparity := ht.parity
  have hcommand : (if transitions.length % 2 = 0 then "start" else "stop") = q.command := by
    rcases hq with hq | hq <;> simp_all [Query.request]
  refine ⟨?_, ?_⟩
  · rw [List.length_append, List.length_singleton, alternation_succ, hcommand, ← ht.alternate]
  · rw [List.length_append, List.length_singleton, hruns]
    cases hstart : q.request.start <;> simp_all <;> omega

theorem answer (ht : Tally service s transitions) (h : Host) (now : Nat) (wakeupOn : Bool) (client : Nat)
    (q : Query) : Tally service (Daemon.answer h now wakeupOn q s).2 (transitions ++
      (Answered.transition? service ⟨client, .query q, (Daemon.answer h now wakeupOn q s).1⟩).toList) := by
  rw [transition?_answer]
  by_cases hq : q.IsTurn
  · have hruns : (Daemon.answer h now wakeupOn q s).2.runs service
        = if service = q.request.service then q.request.start else s.runs service := by
      rw [answer_of_isTurn hq, State.runs_set]
    split_ifs with hflip
    · obtain ⟨-, hservice, hs⟩ := hflip
      exact ht.flip hq hs (hruns.trans (if_pos hservice))
    · refine (List.append_nil transitions).symm ▸ ht.stay (hruns.trans ?_)
      split_ifs with hservice
      · by_contra hs
        exact hflip ⟨hq, hservice, Ne.symm hs⟩
      · rfl
  · rw [if_neg fun hflip => hq hflip.1, Option.toList_none, List.append_nil]
    exact ht.stay (runs_answer hq h now wakeupOn s service)

end Tally

namespace Crowd

/-- What holds of a daemon whatever its clients do. -/
structure IsSound (c : Crowd) : Prop where
  pocket : c.state.pocket.IsSound
  tally : ∀ service, Tally service c.state (c.transitions service)

theorem isSound_start (disk : Disk) (now : Nat) : (start disk now).IsSound :=
  ⟨PocketState.isSound_idle, fun service => by cases service <;> exact ⟨rfl, rfl⟩⟩

theorem IsSound.turn {c : Crowd} (hc : c.IsSound) (h : Host) (t : Turn) : (c.turn h t).IsSound := by
  rcases turn_cases h c t with ⟨client, q, wakeupOn, hstate, hlog⟩ | ⟨hstate, hlog⟩
  · refine ⟨hstate ▸ hc.pocket.answer h c.now wakeupOn q, fun service => ?_⟩
    rw [transitions_concat hlog, hstate]
    exact (hc.tally service).answer h c.now wakeupOn client q
  · refine ⟨hstate ▸ hc.pocket, fun service => ?_⟩
    have hsame : (c.turn h t).transitions service = c.transitions service := by
      rcases hlog with hlog | ⟨client, why, hlog⟩
      · rw [transitions, hlog, transitions]
      · rw [transitions_concat hlog]
        exact List.append_nil _
    rw [hsame]
    exact (hc.tally service).stay (congrArg (State.runs · service) hstate)

theorem isSound_run (h : Host) {c : Crowd} (hc : c.IsSound) (turns : List Turn) : (c.run h turns).IsSound := by
  induction turns generalizing c with
  | nil => exact hc
  | cons t turns ih => exact ih (hc.turn h t)

/-- **Clients at once see every transition of a service exactly once.**  However the steps of any number of
connections follow one another, and whatever happens to the wakeup node between its being read and the lock being
taken, an armed gate has a listener and a listener belongs to a service that runs.  Of the replies that report a
change of a service, those to a start are one more than those to a stop if it runs and as many if it does not, and
in the order of the lock they alternate, a start being the first. -/
theorem transitions_alternate (h : Host) (disk : Disk) (now : Nat) (turns : List Turn) :
    let c := (start disk now).run h turns
    (c.state.pocket.armed = true → c.state.pocket.listening = true)
      ∧ (c.state.pocket.listening = true → c.state.pocket.running = true)
      ∧ ∀ service, ((c.transitions service).count "start" : Int) - (c.transitions service).count "stop"
          = (if c.state.runs service then 1 else 0)
        ∧ c.transitions service = alternation (c.transitions service).length := by
  intro c
  have hc : c.IsSound := isSound_run h (isSound_start disk now) turns
  refine ⟨hc.pocket.1, hc.pocket.2, fun service => ?_⟩
  have htally := hc.tally service
  refine ⟨?_, htally.alternate⟩
  rw [htally.alternate, count_alternation, htally.parity]
  cases c.state.runs service <;> rfl

end Crowd

end DeviceSettings.Daemon

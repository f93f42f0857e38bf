import DeviceSettings.Daemon.Client
import DeviceSettings.Proofs.Framing

/-!
# Client and daemon understand each other

A query is the only line of its connection, and so is its reply.  So a client that alone talks to a daemon gets the
answer to each of its queries (`Machine.ask_eq`), and the services end up as if the requests had been made of the
state itself (`wire_faithful`).
-/

namespace DeviceSettings.Daemon

/-! ## asking -/

theorem exists_print (fields : List (String × Json.Value)) :
    ∃ cs, (Json.Value.object fields).compact.toList = '\x7b' :: cs ++ ['\x7d'] := by
  have hclose (first : Bool) (fields : List (String × Json.Value)) :
      ∃ cs, Json.Value.compactFields first fields = cs ++ ['\x7d'] := by
    induction fields generalizing first with
    | nil => exact ⟨[], by rw [Json.Value.compactFields, List.nil_append]⟩
    | cons f rest ih =>
      obtain ⟨cs, hcs⟩ := ih false
      exact ⟨_, by rw [Json.Value.compactFields, hcs, ← List.append_assoc]⟩
  obtain ⟨cs, hcs⟩ := hclose true fields
  exact ⟨cs, by rw [Json.Value.compact, String.toList_ofList, Json.Value.compactChars, hcs, List.cons_append]⟩

theorem not_isAllBlank_print (q : Query) : Text.isAllBlank q.print = false := by
  obtain ⟨cs, hcs⟩ := exists_print (("cmd", .text q.command) :: sparse "service" (q.service.map fun s => .text s.name)
    ++ sparse "enabled" (q.enabled.map .boolean))
  have hbrace : Text.isBlank '\x7b' = false := by decide
  rw [Text.isAllBlank, Query.print, Query.json, hcs, List.cons_append, List.all_cons, hbrace, Bool.false_and]

theorem trimEnd_print (r : Reply) : Text.trimEnd r.print.toList = r.print.toList := by
  obtain ⟨cs, hcs⟩ := exists_print (("ok", .boolean r.ok) :: sparse "data" r.data
    ++ sparse "error" (r.error.map .text))
  have hbrace : Text.isBlank '\x7d' = false := by decide
  rw [Text.trimEnd, Reply.print, Reply.json, hcs, List.reverse_append, List.reverse_singleton, List.singleton_append,
    List.dropWhile_cons_of_neg (by simp [hbrace]), ← List.singleton_append, List.reverse_append, List.reverse_reverse,
    List.reverse_singleton]

/-- A client's query is the only line of its connection. -/
theorem ofBytes_print (q : Query) : Line.ofBytes (q.print ++ "\n").toUTF8 = [.query q] := by
  have hline : Text.byteLines (q.print ++ "\n").toUTF8 = [q.print.toUTF8] :=
    Text.byteLines_line q.json.newLine_not_mem_compact
  rw [Line.ofBytes, hline, Line.ofBytes.go, Text.fromUTF8?_toUTF8]
  dsimp only
  rw [Line.ofBytes.go, Line.ofText, not_isAllBlank_print, if_neg Bool.false_ne_true, q.parse_print]

/-- The reply that is the only line of a connection. -/
theorem Reply.ofBytes_print {r : Reply} (h : Reply.parse r.print = .ok r) (socket : Path) :
    Reply.ofBytes socket (r.print ++ "\n").toUTF8 = .ok r := by
  have hline : Text.byteLines (r.print ++ "\n").toUTF8 = [r.print.toUTF8] :=
    Text.byteLines_line r.json.newLine_not_mem_compact
  rw [Reply.ofBytes, hline]
  dsimp only
  rw [Text.fromUTF8?_toUTF8]
  dsimp only
  rw [trimEnd_print, String.ofList_toList, h]
  rfl

namespace Machine

variable {home : Path} {m : Machine} {d : Running}

/-- The machine with its daemon in another state. -/
def withState (m : Machine) (d : Running) (s : State) : Machine := { m with daemon := some { d with state := s } }

theorem reach_withState (hd : m.daemon = some d) (s : State) (socket : Path) :
    (m.withState d s).reach socket = m.reach socket := by
  have hlistens : (m.withState d s).listensAt socket = m.listensAt socket := by
    have hdisk : (m.withState d s).disk = m.disk := rfl
    rw [listensAt, listensAt, hd, hdisk]
    cases m.disk.resolve socket <;> rfl
  rw [reach, reach, hlistens]
  rfl

/-- A query to a daemon that goes on gets the answer that the daemon's state gives. -/
theorem ask_eq (hd : m.daemon = some d) (hreach : m.reach (Home.socket home) = .ok ()) {q : Query}
    (hq : q.command ≠ shutdown) (hw : q.command = "status" → d.host.InWords m.now) {r : Reply} {s : State}
    (hanswer : answer d.host m.now (d.host.wakeupOn m.disk) q d.state = (r, s)) :
    m.ask home q = (.ok r, m.withState d s) := by
  have hparse : Reply.parse r.print = .ok r := by
    have hread := parse_print_answer hw (d.host.wakeupOn m.disk) d.state
    rwa [hanswer] at hread
  have hserve : serveBytes d.host m.now m.disk (q.print ++ "\n").toUTF8 d.state = ⟨[r], s, false⟩ := by
    rw [serveBytes, ofBytes_print, serve, hanswer]
    dsimp only
    rw [if_neg hq]
    rfl
  have hconnect : m.connect (q.print ++ "\n").toUTF8 = some (⟨[r], s, false⟩, m.withState d s) := by
    rw [connect, hd, Option.map_some, hserve]
    rfl
  have htext : (⟨[r], s, false⟩ : Served).text = r.print ++ "\n" := by
    rw [← String.toList_inj, Served.text, String.toList_join, List.map_singleton, List.flatMap_singleton]
  unfold ask
  dsimp only
  rw [hreach, hconnect]
  dsimp only
  rw [htext, Reply.ofBytes_print hparse]

/-- A request is granted, and the daemon's state is changed as it says. -/
theorem control_eq (hd : m.daemon = some d) (hreach : m.reach (Home.socket home) = .ok ()) (r : Request) :
    m.control home r = (.ok (), m.withState d (d.state.set r)) := by
  have hcommand : (Query.ofRequest r).command ∈ ["start", "stop"] := by
    obtain ⟨service, start⟩ := r
    cases service <;> cases start <;> decide
  have hgoes : (Query.ofRequest r).command ≠ shutdown := fun h => absurd (h ▸ hcommand) (by decide)
  have hasks : (Query.ofRequest r).command ≠ "status" := fun h => absurd (h ▸ hcommand) (by decide)
  have hanswer : answer d.host m.now (d.host.wakeupOn m.disk) (.ofRequest r) d.state
      = (.success (sorted [("service", .text r.service.name), ("running", .boolean r.start),
        ("changed", .boolean (d.state.changes r))]), d.state.set r) := by
    obtain ⟨service, start⟩ := r
    cases start <;> rfl
  have hrequest : m.request home r = (.ok (sorted [("service", .text r.service.name), ("running", .boolean r.start),
      ("changed", .boolean (d.state.changes r))]), m.withState d (d.state.set r)) := by
    unfold request query
    rw [ask_eq hd hreach hgoes (absurd · hasks) hanswer]
    rfl
  unfold control
  rw [hrequest]

/-- Requests that one client makes after another. -/
theorem deliver_eq (hd : m.daemon = some d) (hreach : m.reach (Home.socket home) = .ok ()) (rs : List Request) :
    m.deliver home rs = m.withState d (rs.foldl State.set d.state) := by
  induction rs generalizing m d with
  | nil =>
    rw [deliver, List.foldl_nil, List.foldl_nil, withState, ← hd]
  | cons r rs ih =>
    have hnext : (m.withState d (d.state.set r)).daemon = some { d with state := d.state.set r } := rfl
    rw [deliver, List.foldl_cons, control_eq hd hreach]
    exact ih hnext ((reach_withState hd _ _).trans hreach)

end Machine

/-- **Client and daemon speak one protocol.**  A query is read back as it was; so is what a reply says, if its data has
no floats and does not nest too deep; and none of them has a line feed in its text.  A client that alone talks to a
daemon has each of its requests granted, and they leave the state that they leave when they are made of it directly,
with all else as it was. -/
theorem wire_faithful :
    (∀ q : Query, Query.parse q.print = .ok q ∧ Text.lineFeed ∉ q.print.toUTF8.toList)
      ∧ (∀ r : Reply, Text.lineFeed ∉ r.print.toUTF8.toList
        ∧ ((∀ v, r.data = some v → v.Fits dataLevels) →
          ∃ read, Reply.parse r.print = .ok read ∧ read.outcome = r.outcome))
      ∧ ∀ (home : Path) (m : Machine) (d : Running), m.daemon = some d → m.reach (Home.socket home) = .ok () →
        ∀ rs : List Request,
          m.deliver home rs = { m with daemon := some { d with state := rs.foldl State.set d.state } }
            ∧ ∀ r, ((m.deliver home rs).control home r).1 = .ok () := by
  refine ⟨fun q => ⟨q.parse_print, ?_⟩, fun r => ⟨?_, fun h => ?_⟩, fun home m d hd hreach rs => ?_⟩
  · exact fun h => q.json.newLine_not_mem_compact (Text.lineFeed_mem_toUTF8.mp h)
  · exact fun h => r.json.newLine_not_mem_compact (Text.lineFeed_mem_toUTF8.mp h)
  · exact ⟨r.received, Reply.parse_print h, r.outcome_received⟩
  · have hdeliver := Machine.deliver_eq hd hreach rs
    refine ⟨hdeliver, fun r => ?_⟩
    have hlive : (m.withState d (rs.foldl State.set d.state)).daemon
        = some { d with state := rs.foldl State.set d.state } := rfl
    rw [hdeliver, Machine.control_eq hlive ((Machine.reach_withState hd _ _).trans hreach)]

/-- The daemon of a home directory that is alone on its disk. -/
def listener : Running :=
  ⟨Home.socket ⟨"/h"⟩, ["h", ".parts", "run", "parts.sock"], ⟨none, 7, 0⟩, .idle⟩

def lonely : Machine :=
  ⟨⟨⟨.ofList [(["h"], .directory Disk.directoryMode), (["h", ".parts"], .directory Disk.directoryMode),
    (["h", ".parts", "run"], .directory Disk.directoryMode), (listener.place, .sealed .noDevice Machine.socketMode)], []⟩,
    default, []⟩, some listener, 1, 7⟩

/-- A reply with more than one line of text in it is read back, and requests are granted. -/
theorem wire_faithful_lonely :
    let r : Reply := .success (.list [.null, .number (.integer (-5)), .text "a\nb"])
    let rs : List Request := [⟨.doze, true⟩, ⟨.pocketMode, true⟩, ⟨.doze, false⟩]
    (∃ read, Reply.parse r.print = .ok read ∧ read.outcome = r.outcome)
      ∧ lonely.reach (Home.socket ⟨"/h"⟩) = .ok ()
      ∧ (lonely.deliver ⟨"/h"⟩ rs).daemon = some { listener with state := ⟨⟨true, false, false⟩, false⟩ }
      ∧ ((lonely.deliver ⟨"/h"⟩ rs).control ⟨"/h"⟩ ⟨.pocketMode, false⟩).1 = .ok () := by
  intro r rs
  obtain ⟨-, hreplies, hrequests⟩ := wire_faithful
  have hfits : ∀ v, r.data = some v → v.Fits dataLevels := by
    rintro _ ⟨⟩
    refine .list fun v hv => ?_
    simp only [List.mem_cons, List.not_mem_nil, or_false] at hv
    rcases hv with rfl | rfl | rfl
    · exact .null
    · exact .integer (by decide) (by decide)
    · exact .text _
  have hreach : lonely.reach (Home.socket ⟨"/h"⟩) = .ok () := by decide +kernel
  obtain ⟨hdeliver, hcontrol⟩ := hrequests ⟨"/h"⟩ lonely listener rfl hreach rs
  exact ⟨(hreplies r).2 hfits, hreach, congrArg Machine.daemon hdeliver, hcontrol _⟩

end DeviceSettings.Daemon

import DeviceSettings.Daemon.Answer
import DeviceSettings.Text.Blank
import DeviceSettings.Text.Line

/-!
# Connections

All that a client writes on one connection, and what the daemon answers.  Each line is one query and gets one
reply.  A blank line is passed over; a line that is no query gets a reply that says so.  The connection ends
at a line that is not UTF-8 or after the query that ends the daemon.
-/

namespace DeviceSettings.Daemon

/-- What a line of a connection is. -/
inductive Line
  | blank
  | malformed (why : Document.Problem)
  | query (q : Query)

namespace Line

def ofText (s : String) : Line :=
  if Text.isAllBlank s then blank
  else match Query.parse s with
  | .ok q => query q
  | .error why => malformed why

/-- The lines of a byte stream, up to the first that is not UTF-8. -/
def ofBytes (b : ByteArray) : List Line :=
  go (Text.byteLines b)
where
  go : List ByteArray → List Line
    | [] => []
    | line :: rest =>
      match String.fromUTF8? line with
      | some s => ofText s :: go rest
      | none => []

end Line

/-- The outcome of a connection. -/
structure Served where
  replies : List Reply
  state : State
  /-- was the daemon told to end? -/
  ended : Bool

def malformedMessage (why : Document.Problem) : String := "invalid request JSON: " ++ why.message

/-- Serves lines in order. -/
def serve (h : Host) (now : Nat) (disk : Disk) : List Line → State → Served
  | [], s => ⟨[], s, false⟩
  | .blank :: rest, s => serve h now disk rest s
  | .malformed why :: rest, s =>
    let served := serve h now disk rest s
    { served with replies := .failure (malformedMessage why) :: served.replies }
  | .query q :: rest, s =>
    let (reply, s) := answer h now (h.wakeupOn disk) q s
    if q.command = shutdown then ⟨[reply], s, true⟩
    else
      let served := serve h now disk rest s
      { served with replies := reply :: served.replies }

/-- Lines that come later are served in the state that the earlier ones leave, unless those ended the
daemon. -/
theorem serve_append (h : Host) (now : Nat) (disk : Disk) (xs ys : List Line) (s : State) :
    serve h now disk (xs ++ ys) s =
      let first := serve h now disk xs s
      if first.ended then first
      else
        let second := serve h now disk ys first.state
        { second with replies := first.replies ++ second.replies } := by
  induction xs generalizing s with
  | nil => rfl
  | cons x xs ih =>
    cases x with
    | blank => exact ih s
    | malformed why =>
      rw [List.cons_append, serve, serve, ih]
      cases h : (serve h now disk xs s).ended <;> simp [h]
    | query q =>
      rw [List.cons_append, serve, serve]
      by_cases hq : q.command = shutdown
      · simp [hq]
      · simp only [if_neg hq]
        rw [ih]
        cases h : (serve h now disk xs (answer h now (h.wakeupOn disk) q s).2).ended <;> simp [h]

/-- Serves a connection on which a client has written some bytes. -/
def serveBytes (h : Host) (now : Nat) (disk : Disk) (b : ByteArray) (s : State) : Served :=
  serve h now disk (Line.ofBytes b) s

/-- What is written back: each reply on a line of its own. -/
def Served.text (s : Served) : String := String.join (s.replies.map fun r => r.print ++ "\n")

end DeviceSettings.Daemon

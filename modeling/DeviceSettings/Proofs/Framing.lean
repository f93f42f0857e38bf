import DeviceSettings.Daemon.Connection
import DeviceSettings.Proofs.Messages
import DeviceSettings.Proofs.Text.Line
import DeviceSettings.Proofs.Timestamp

/-!
# Lines and replies

What a client writes on a connection is cut into lines, and of these the daemon answers all that are not blank, up
to the first that is not UTF-8 or up to the one that ends it.  What it writes back has one line for each of them,
from which its reply is read back, and whatever comes later is as if it had not been written (`serveBytes_lines`).
-/

namespace DeviceSettings

/-! ## blank lines -/

namespace Json

theorem lexeme?_blank {c : Char} (hc : Text.isBlank c = true) (rest : List Char) : lexeme? (c :: rest) = none := by
  have hne (d : Char) (hd : Text.isBlank d = false) : c ≠ d := fun h => by simp [h, hd] at hc
  have hother : ∀ d ∈ "[]\x7b\x7d,:\x22ntf".toList, Text.isBlank d = false := by simp; decide
  have hdigit : Text.isDigit c = false := by
    cases h : Text.isDigit c with
    | false => rfl
    | true => simp [Timestamp.isBlank_of_isDigit h] at hc
  have hnumber : number? (c :: rest) = none := by
    have hwhole : wholePart (c :: rest) = none := by simp [wholePart, someDigits, hdigit]
    unfold number?
    split
    next negative cs heq =>
      split at heq
      next r hcons => exact absurd (List.cons.inj hcons).1 (hne '-' (by decide))
      next =>
        obtain ⟨-, rfl⟩ := Prod.mk.inj heq
        rw [hwhole]
        rfl
  rw [lexeme?_eq_number? (fun hmem => hne c (hother c hmem) rfl), hnumber, Option.map_none]

theorem lexemesWithin_blank (fuel : Nat) {cs : List Char} (h : ∀ c ∈ cs, Text.isBlank c = true) :
    (lexemesWithin fuel cs).1 = [] := by
  cases fuel with
  | zero => rfl
  | succ fuel =>
    rw [lexemesWithin]
    cases hd : cs.dropWhile isSpace with
    | nil => rfl
    | cons c rest =>
      have hc : c ∈ cs := (List.dropWhile_suffix isSpace).mem (hd ▸ List.mem_cons_self)
      simp only [lexeme?_blank (h c hc)]

/-- A blank text is no document. -/
theorem source_blank {s : String} (h : Text.isAllBlank s = true) :
    ∃ ends follows, source s = ⟨.cut, [], ends, follows⟩ := by
  have hnone : (lexemes s).1 = [] := lexemesWithin_blank _ (by simpa [Text.isAllBlank] using h)
  have heq : lexemes s = ([], (lexemes s).2) := by rw [← hnone]
  refine ⟨false, 0, ?_⟩
  rw [source, heq]
  rfl

end Json

namespace Daemon

theorem parse_blank {s : String} (h : Text.isAllBlank s = true) : ∃ why, Query.parse s = .error why := by
  obtain ⟨ends, follows, hsource⟩ := Json.source_blank h
  rw [Query.parse, Json.read, hsource]
  exact ⟨_, rfl⟩

/-! ## the lines that count -/

/-- The texts of lines up to the first that is not UTF-8. -/
def texts (pieces : List ByteArray) : List String :=
  ((pieces.map String.fromUTF8?).takeWhile Option.isSome).filterMap id

/-- A list up to the first element that passes a test, that one included. -/
def upTo {α : Type} (p : α → Bool) : List α → List α
  | [] => []
  | x :: xs => x :: if p x then [] else upTo p xs

/-- Is the line the query that ends the daemon? -/
def endsDaemon (line : String) : Bool :=
  match Query.parse line with
  | .ok q => q.command == shutdown
  | .error _ => false

/-- The lines of a connection that are read: nothing after them is. -/
def linesRead (b : ByteArray) : List String := upTo endsDaemon (texts (Text.byteLines b))

/-- The lines of a connection that are answered. -/
def linesAnswered (b : ByteArray) : List String := (linesRead b).filter fun line => !Text.isAllBlank line

theorem go_eq_texts (pieces : List ByteArray) : Line.ofBytes.go pieces = (texts pieces).map Line.ofText := by
  induction pieces with
  | nil => rfl
  | cons piece rest ih =>
    rw [Line.ofBytes.go, texts, List.map_cons]
    cases hs : String.fromUTF8? piece with
    | none => rw [List.takeWhile_cons_of_neg (by simp)]; rfl
    | some s =>
      rw [List.takeWhile_cons_of_pos rfl]
      exact congrArg (Line.ofText s :: ·) ih

theorem any_upTo {α : Type} (p : α → Bool) (xs : List α) : (upTo p xs).any p = xs.any p := by
  induction xs with
  | nil => rfl
  | cons x xs ih =>
    rw [upTo, List.any_cons, List.any_cons]
    cases hx : p x with
    | true => rfl
    | false => rw [if_neg Bool.false_ne_true, ih]

/-! ## answers to lines -/

section
variable (h : Host) (now : Nat) (disk : Disk)

/-- What a line is answered with, and the state afterwards. -/
def Host.respond (s : State) (line : String) : Reply × State :=
  match Query.parse line with
  | .ok q => answer h now (h.wakeupOn disk) q s
  | .error why => (.failure (malformedMessage why), s)

/-- The state after some lines. -/
def Host.afterLines (s : State) (lines : List String) : State :=
  lines.foldl (fun s line => (h.respond now disk s line).2) s

/-- The replies to lines, each in the state that the ones before it leave. -/
def Host.repliesTo (s : State) : List String → List Reply
  | [] => []
  | line :: rest => (h.respond now disk s line).1 :: repliesTo (h.respond now disk s line).2 rest

theorem getElem?_repliesTo (s : State) (lines : List String) (i : Nat) :
    (h.repliesTo now disk s lines)[i]?
      = lines[i]?.map fun line => (h.respond now disk (h.afterLines now disk s (lines.take i)) line).1 := by
  induction lines generalizing s i with
  | nil => rfl
  | cons line rest ih =>
    cases i with
    | zero => rfl
    | succ i => exact ih _ i

theorem length_repliesTo (s : State) (lines : List String) :
    (h.repliesTo now disk s lines).length = lines.length := by
  induction lines generalizing s with
  | nil => rfl
  | cons line rest ih => exact congrArg (· + 1) (ih _)

theorem serve_texts (lines : List String) (s : State) :
    serve h now disk (lines.map Line.ofText) s =
      let answered := (upTo endsDaemon lines).filter fun line => !Text.isAllBlank line
      ⟨h.repliesTo now disk s answered, h.afterLines now disk s answered, lines.any endsDaemon⟩ := by
  induction lines generalizing s with
  | nil => rfl
  | cons line rest ih =>
    rw [List.map_cons, Line.ofText, upTo, List.any_cons]
    by_cases hblank : Text.isAllBlank line
    · obtain ⟨why, hparse⟩ := parse_blank hblank
      have hends : endsDaemon line = false := by rw [endsDaemon, hparse]
      rw [if_pos hblank, serve, ih, hends, if_neg Bool.false_ne_true, List.filter_cons_of_neg (by simp [hblank])]
      rfl
    · rw [if_neg hblank, List.filter_cons_of_pos (by simp [hblank])]
      cases hparse : Query.parse line with
      | error why =>
        have hends : endsDaemon line = false := by rw [endsDaemon, hparse]
        have hrespond : h.respond now disk s line = (.failure (malformedMessage why), s) := by
          rw [Host.respond, hparse]
        dsimp only
        rw [serve, ih, hends, if_neg Bool.false_ne_true, Host.repliesTo, Host.afterLines, List.foldl_cons, hrespond]
        rfl
      | ok q =>
        have hends : endsDaemon line = (q.command == shutdown) := by rw [endsDaemon, hparse]
        have hrespond : h.respond now disk s line = answer h now (h.wakeupOn disk) q s := by
          rw [Host.respond, hparse]
        dsimp only
        rw [serve, hends, Host.afterLines, List.foldl_cons, Host.repliesTo, hrespond]
        dsimp only
        by_cases hq : q.command = shutdown
        · rw [if_pos hq, if_pos (beq_iff_eq.mpr hq), hq]
          rfl
        · rw [if_neg hq, if_neg (by simpa using hq), ih, beq_false_of_ne hq, Bool.false_or]
          rfl

end

theorem serveBytes_eq (h : Host) (now : Nat) (disk : Disk) (b : ByteArray) (s : State) :
    serveBytes h now disk b s = ⟨h.repliesTo now disk s (linesAnswered b),
      h.afterLines now disk s (linesAnswered b), (linesRead b).any endsDaemon⟩ := by
  rw [serveBytes, Line.ofBytes, go_eq_texts, serve_texts, linesRead, any_upTo]
  rfl

theorem Host.afterLines_take_succ (h : Host) (now : Nat) (disk : Disk) (s : State) {lines : List String} {i : Nat}
    {line : String} (hline : lines[i]? = some line) : h.afterLines now disk s (lines.take (i + 1))
      = (h.respond now disk (h.afterLines now disk s (lines.take i)) line).2 := by
  rw [List.take_add_one, hline, Host.afterLines, List.foldl_append]
  rfl

/-- What is written back has a line for each reply. -/
theorem byteLines_text (served : Served) :
    Text.byteLines served.text.toUTF8 = served.replies.map fun r => r.print.toUTF8 := by
  have hlines : ∀ text ∈ served.replies.map Reply.print, '\n' ∉ text.toList := by
    intro text htext
    obtain ⟨r, -, rfl⟩ := List.mem_map.mp htext
    exact r.json.newLine_not_mem_compact
  have hwritten := Text.byteLines_written hlines
  rw [List.map_map, List.map_map] at hwritten
  exact hwritten

/-- **A connection is its lines.**  Cut at its line feeds, before the first line that is not UTF-8 and after the one
that ends the daemon, and without its blank lines, what a client writes gets one reply for each line, in order and on
a line of its own.  A line that is a query is answered in the state that those before it leave; any other line is
answered with a failure and changes nothing.  What is written for a reply is read as that reply; only a status with
numbers that are no words may be read otherwise.  What a client writes after the cut has no effect. -/
theorem serveBytes_lines (h : Host) (now : Nat) (disk : Disk) (b : ByteArray) (s : State) :
    let served := serveBytes h now disk b s
    let lines := linesAnswered b
    let before (i : Nat) := h.afterLines now disk s (lines.take i)
    Text.AreLines (Text.byteLines b) b
      ∧ served.replies.length = lines.length
      ∧ before 0 = s
      ∧ (∀ i line, lines[i]? = some line →
        (∀ q, Query.parse line = .ok q →
          served.replies[i]? = some (answer h now (h.wakeupOn disk) q (before i)).1
            ∧ before (i + 1) = (answer h now (h.wakeupOn disk) q (before i)).2
            ∧ ((q.command = "status" → h.InWords now) → ∃ r, served.replies[i]? = some r
              ∧ Reply.parse r.print = .ok r))
        ∧ ∀ why, Query.parse line = .error why →
          (∃ r, served.replies[i]? = some r ∧ r.ok = false ∧ Reply.parse r.print = .ok r)
            ∧ before (i + 1) = before i)
      ∧ served.state = before lines.length
      ∧ Text.byteLines served.text.toUTF8 = served.replies.map (fun r => r.print.toUTF8)
      ∧ ∀ other, linesRead other = linesRead b → serveBytes h now disk other s = served := by
  intro served lines before
  have hserved : served = ⟨h.repliesTo now disk s lines, h.afterLines now disk s lines, _⟩ :=
    serveBytes_eq h now disk b s
  refine ⟨Text.areLines_byteLines b, ?_, rfl, fun i line hline => ?_, ?_, byteLines_text served, fun other hother => ?_⟩
  · rw [hserved, length_repliesTo]
  · have hreply : served.replies[i]? = some (h.respond now disk (before i) line).1 := by
      rw [hserved, getElem?_repliesTo, hline, Option.map_some]
    have hstate : before (i + 1) = (h.respond now disk (before i) line).2 :=
      h.afterLines_take_succ now disk s hline
    rw [hreply, hstate]
    refine ⟨fun q hparse => ?_, fun why hparse => ?_⟩
    · rw [Host.respond, hparse]
      exact ⟨rfl, rfl, fun hw => ⟨_, rfl, parse_print_answer hw _ _⟩⟩
    · rw [Host.respond, hparse]
      exact ⟨⟨_, rfl, rfl, parse_print_failure _⟩, rfl⟩
  · rw [hserved]
    show _ = h.afterLines now disk s (lines.take lines.length)
    rw [List.take_length]
  · rw [serveBytes_eq, linesAnswered, hother, ← linesAnswered, hserved]

/-- A blank line, one that is no query, a query, the query that ends the daemon, and one more that comes too late. -/
def chatter : String :=
  " \r\nhello\n" ++ (Query.named "start").print ++ "\r\n" ++ (Query.named shutdown).print ++ "\n"
    ++ (Query.named "stop").print

/-- Three lines are answered, the first of them with a failure, which changes nothing; it and the answer to the
query after it are read back. -/
theorem serveBytes_chatter :
    let h : Host := ⟨none, 7, 0⟩
    let served := serveBytes h 1 default chatter.toUTF8 .idle
    served.replies.length = 3 ∧ (∃ r, served.replies[0]? = some r ∧ r.ok = false ∧ Reply.parse r.print = .ok r)
      ∧ (∃ r, served.replies[1]? = some r ∧ Reply.parse r.print = .ok r)
      ∧ h.afterLines 1 default .idle ((linesAnswered chatter.toUTF8).take 1) = .idle := by
  intro h served
  obtain ⟨-, hlength, hstart, hlines, -⟩ := serveBytes_lines h 1 default chatter.toUTF8 .idle
  have hanswered : linesAnswered chatter.toUTF8
      = ["hello", (Query.named "start").print ++ "\r", (Query.named shutdown).print] := by
    decide +kernel
  have hhello : Query.parse "hello" = .error ⟨none, .malformed⟩ := by decide +kernel
  obtain ⟨hreply, hstate⟩ := (hlines 0 "hello" (by rw [hanswered]; rfl)).2 _ hhello
  have hstarts : Query.parse ((Query.named "start").print ++ "\r") = .ok (.named "start") := by decide +kernel
  obtain ⟨-, -, hread⟩ := (hlines 1 _ (by rw [hanswered]; rfl)).1 _ hstarts
  exact ⟨hlength.trans (by rw [hanswered]; rfl), hreply, hread (absurd · (by decide)), hstate.trans hstart⟩

end Daemon

end DeviceSettings

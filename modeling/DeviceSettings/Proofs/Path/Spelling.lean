import DeviceSettings.Node
import DeviceSettings.Proofs.Path.Names
import Mathlib.Logic.Relation

/-!
# Spellings of a path

A slash of a path may be written twice, and a `.` may stand between two slashes.  Each puts one more trivial piece into
the middle of the path (`Respelling.pieces`).  Such a piece is no component, so the spellings are the `Same` path; and a
walk passes it exactly where it passes the piece after it, so the system finds the same file, or fails in the same way
(`Respelled.resolve_eq`).  A `.` at the end is another matter: it is no component either, but asks for a directory.
-/

namespace DeviceSettings.Path

/-- A slash written twice, or a `.` put between two slashes. -/
inductive Respelling : Path → Path → Prop
  | slash (a b : String) : Respelling ⟨a ++ "/" ++ b⟩ ⟨a ++ "//" ++ b⟩
  | dot (a b : String) : Respelling ⟨a ++ "/" ++ b⟩ ⟨a ++ "/./" ++ b⟩

/-- Two spellings of a path, of which the system takes both or neither: it refuses what is too long. -/
structure Respelled (p q : Path) : Prop where
  spelling : Relation.EqvGen Respelling p q
  taken : p.text.utf8ByteSize ≤ Disk.longestPath ↔ q.text.utf8ByteSize ≤ Disk.longestPath

variable {p q : Path}

theorem Respelled.refl (p : Path) : p.Respelled p := ⟨.refl p, .rfl⟩

/-- What writing a slash twice and putting a `.` in leave alone is the same in all spellings. -/
theorem Respelled.eq_of {α : Type} {f : Path → α} (hf : ∀ p q, Respelling p q → f p = f q) (h : p.Respelled q) :
    f p = f q :=
  congrArg (Quot.lift f hf) (Quot.eqvGen_sound h.spelling)

/-! ## one more piece -/

/-- A trivial piece more, neither the first nor the last. -/
theorem Respelling.pieces (h : Respelling p q) : ∃ front back s, front ≠ [] ∧ back ≠ [] ∧ isTrivial s = true
    ∧ p.pieces = front ++ back ∧ q.pieces = front ++ s :: back := by
  have hinsert (a b s : String) (hs : '/' ∉ s.toList) :
      Path.pieces ⟨a ++ "/" ++ s ++ "/" ++ b⟩ = Path.pieces ⟨a⟩ ++ s :: Path.pieces ⟨b⟩ := by
    rw [pieces_append_slash, pieces_append_slash, pieces_of_not_mem hs, List.append_assoc, List.singleton_append]
  cases h with
  | slash a b =>
    have htext : a ++ "//" ++ b = a ++ "/" ++ "" ++ "/" ++ b := by
      rw [String.append_empty, @String.append_assoc a "/" "/"]
      rfl
    refine ⟨Path.pieces ⟨a⟩, Path.pieces ⟨b⟩, "", pieces_ne_nil _, pieces_ne_nil _, rfl, pieces_append_slash a b, ?_⟩
    rw [htext, hinsert a b "" (by decide)]
  | dot a b =>
    have htext : a ++ "/./" ++ b = a ++ "/" ++ "." ++ "/" ++ b := by
      rw [@String.append_assoc a "/" ".", @String.append_assoc a ("/" ++ ".") "/"]
      rfl
    refine ⟨Path.pieces ⟨a⟩, Path.pieces ⟨b⟩, ".", pieces_ne_nil _, pieces_ne_nil _, rfl, pieces_append_slash a b, ?_⟩
    rw [htext, hinsert a b "." (by decide)]

theorem Respelling.isAbsolute_eq (h : Respelling p q) : p.isAbsolute = q.isAbsolute := by
  obtain ⟨front, back, s, hfront, hback, -, hp, hq⟩ := h.pieces
  obtain ⟨f, fs, rfl⟩ := List.exists_cons_of_ne_nil hfront
  obtain ⟨b, bs, rfl⟩ := List.exists_cons_of_ne_nil hback
  have hlong : 1 < (f :: fs ++ b :: bs).length ∧ 1 < (f :: fs ++ s :: b :: bs).length := by
    simp only [List.length_append, List.length_cons]
    omega
  rw [Path.isAbsolute_eq, Path.isAbsolute_eq, hp, hq, decide_eq_true hlong.1, decide_eq_true hlong.2]
  rfl

theorem Respelling.names_eq (h : Respelling p q) : p.names = q.names := by
  obtain ⟨front, back, s, -, -, hs, hp, hq⟩ := h.pieces
  rw [names, names, hp, hq, List.filter_append, List.filter_append, List.filter_cons_of_neg (by simp [hs])]

/-- The components of a path are its names, and what its beginning says. -/
theorem same_of {p q : Path} (hhead : p.pieces.head? = q.pieces.head?) (habsolute : p.isAbsolute = q.isAbsolute)
    (hnames : p.names = q.names) : p.Same q := by
  rw [names, names] at hnames
  rw [Same, components, components, habsolute]
  cases hp : p.pieces with
  | nil => exact absurd hp p.pieces_ne_nil
  | cons s ss =>
    cases hq : q.pieces with
    | nil => exact absurd hq q.pieces_ne_nil
    | cons t ts =>
      rw [hp, hq] at hhead hnames
      obtain rfl : s = t := Option.some.inj hhead
      have hrest : (ss.filter fun s => !isTrivial s) = ts.filter fun s => !isTrivial s := by
        cases hs : isTrivial s <;> simpa [hs] using hnames
      split <;> split <;> simp_all

theorem Respelling.same (h : Respelling p q) : p.Same q := by
  obtain ⟨front, back, s, hfront, -, -, hp, hq⟩ := h.pieces
  obtain ⟨f, fs, rfl⟩ := List.exists_cons_of_ne_nil hfront
  have hhead : p.pieces.head? = q.pieces.head? := by rw [hp, hq]; rfl
  exact same_of hhead h.isAbsolute_eq h.names_eq

theorem Respelled.same (h : p.Respelled q) : p.Same q := h.eq_of fun _ _ hpq => hpq.same

/-! ## what the system finds -/

/-- Where a walk does not pass a trivial piece it does not pass the next one either. -/
theorem foldlM_walk_trivial (d : Disk) (place : Place) {s : String} (hs : isTrivial s = true) {back : List String}
    (hback : back ≠ []) : (s :: back).foldlM d.walk place = back.foldlM d.walk place := by
  obtain ⟨t, rest, rfl⟩ := List.exists_cons_of_ne_nil hback
  rw [List.foldlM_cons]
  cases hdir : d.isDirectoryAt place with
  | true =>
    have hpass : d.walk place s = .ok place := by rw [Disk.walk, hdir, hs]; rfl
    rw [hpass]
    rfl
  | false =>
    have hstop (piece : String) : d.walk place piece = .error .notDirectory := by rw [Disk.walk, hdir]; rfl
    rw [List.foldlM_cons, hstop, hstop]
    rfl

theorem Respelling.walk_eq (h : Respelling p q) (d : Disk) (place : Place) :
    p.pieces.foldlM d.walk place = q.pieces.foldlM d.walk place := by
  obtain ⟨front, back, s, -, hback, hs, hp, hq⟩ := h.pieces
  rw [hp, hq, List.foldlM_append, List.foldlM_append]
  exact bind_congr fun _ => (foldlM_walk_trivial d _ hs hback).symm

theorem Respelling.text (h : Respelling p q) : ('\x00' ∈ p.text.toList ↔ '\x00' ∈ q.text.toList)
    ∧ p.text ≠ "" ∧ q.text ≠ "" := by
  have hslashed (a s b : String) (hs : s ≠ "") : a ++ s ++ b ≠ "" := by
    rw [Ne, ← String.toList_inj, String.toList_append, String.toList_append]
    simp [hs]
  have hclear (a s b : String) (hs : '\x00' ∉ s.toList) :
      '\x00' ∈ (a ++ s ++ b).toList ↔ '\x00' ∈ a.toList ∨ '\x00' ∈ b.toList := by
    rw [String.toList_append, String.toList_append, List.mem_append, List.mem_append, or_iff_left hs]
  cases h with
  | slash a b =>
    exact ⟨(hclear a "/" b (by decide)).trans (hclear a "//" b (by decide)).symm, hslashed a "/" b (by decide),
      hslashed a "//" b (by decide)⟩
  | dot a b =>
    exact ⟨(hclear a "/" b (by decide)).trans (hclear a "/./" b (by decide)).symm, hslashed a "/" b (by decide),
      hslashed a "/./" b (by decide)⟩

theorem Respelled.start_eq (h : p.Respelled q) (d : Disk) : d.start p = d.start q := by
  have hnul : ('\x00' ∈ p.text.toList) = ('\x00' ∈ q.text.toList) :=
    @Respelled.eq_of _ _ _ (fun p => '\x00' ∈ p.text.toList) (fun p q hpq => propext hpq.text.1) h
  have hempty : (p.text = "") = (q.text = "") :=
    @Respelled.eq_of _ _ _ (fun p => p.text = "")
      (fun p q hpq => propext (iff_of_false hpq.text.2.1 hpq.text.2.2)) h
  have habsolute : p.isAbsolute = q.isAbsolute := h.eq_of fun p q hpq => hpq.isAbsolute_eq
  have hlong : (Disk.longestPath < p.text.utf8ByteSize) = (Disk.longestPath < q.text.utf8ByteSize) :=
    propext (by rw [← Nat.not_le, ← Nat.not_le, h.taken])
  simp only [Disk.start, List.contains_iff_mem, hnul, hempty, habsolute, hlong]

/-- **Every spelling of a path leads to the same file**, or fails in the same way. -/
theorem Respelled.resolve_eq (h : p.Respelled q) (d : Disk) : d.resolve p = d.resolve q := by
  rw [Disk.resolve, Disk.resolve, h.start_eq]
  exact bind_congr fun place =>
    @Respelled.eq_of _ _ _ (fun p => p.pieces.foldlM d.walk place) (fun p q hpq => hpq.walk_eq d place) h

theorem Respelled.entry_eq (h : p.Respelled q) (d : Disk) : d.entry p = d.entry q := by
  rw [Disk.entry, Disk.entry, h.resolve_eq]

theorem Respelled.exists_eq (h : p.Respelled q) (d : Disk) : d.exists_ p = d.exists_ q := by
  rw [Disk.exists_, Disk.exists_, h.entry_eq]

theorem Respelled.read_eq (h : p.Respelled q) (d : Disk) : d.read p = d.read q := by
  rw [Disk.read, Disk.read, Disk.openToRead, Disk.openToRead, h.entry_eq]

theorem Respelled.overwrite_eq (h : p.Respelled q) (d : Disk) (content : ByteArray) :
    d.overwrite p content = d.overwrite q content := by
  rw [Disk.overwrite, Disk.overwrite, h.resolve_eq]

theorem Respelled.token?_eq (h : p.Respelled q) (disk : Disk) : Node.token? disk p = Node.token? disk q := by
  rw [Node.token?_eq_read, Node.token?_eq_read, h.read_eq]

end DeviceSettings.Path

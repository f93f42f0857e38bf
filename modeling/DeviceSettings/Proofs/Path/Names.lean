import DeviceSettings.Path

/-!
# The names of a path

Only the pieces of a path that are not trivial lead anywhere: its `names`.  What `join` and `parent?` do
to them is what one expects (`names_join`, `names_of_parent?`), and a path under a temporary extension ends in
another piece than the path (`getLast?_pieces_withExtension`).
-/

namespace DeviceSettings

theorem Text.splitOn_eq (sep : Char) (cs : List Char) : splitOn sep cs = cs.splitOn sep := by
  induction cs with
  | nil => rfl
  | cons c cs ih =>
    rw [splitOn, List.splitOn_cons_eq_if_modifyHead, ih]
    by_cases hc : c = sep
    · simp [hc]
    · rw [if_neg hc, if_neg (by simpa using hc)]
      cases hs : cs.splitOn sep with
      | nil => exact absurd hs (List.splitOn_ne_nil _ _)
      | cons p ps => rfl

theorem Text.not_mem_of_mem_splitOn {sep : Char} {cs p : List Char} (h : p ∈ splitOn sep cs) :
    sep ∉ p := by
  induction cs generalizing p with
  | nil =>
    obtain rfl : p = [] := by simpa [splitOn] using h
    exact List.not_mem_nil
  | cons c cs ih =>
    rw [splitOn] at h
    split at h
    · rcases List.mem_cons.1 h with rfl | h
      · exact List.not_mem_nil
      · exact ih h
    · rename_i hc
      split at h
      · rename_i hnil
        exact absurd hnil (splitOn_ne_nil sep cs)
      · rename_i q qs hs
        rcases List.mem_cons.1 h with rfl | h
        · have hq : sep ∉ q := ih (hs ▸ List.mem_cons_self)
          simp [hq, Ne.symm hc]
        · exact ih (hs ▸ List.mem_cons_of_mem q h)

namespace Path

theorem slash : "/".toList = ['/'] := rfl

theorem pieces_ne_nil (p : Path) : p.pieces ≠ [] := by
  rw [pieces, Ne, List.map_eq_nil_iff]
  exact Text.splitOn_ne_nil '/' p.text.toList

theorem not_mem_slash {p : Path} {s : String} (h : s ∈ p.pieces) : '/' ∉ s.toList := by
  obtain ⟨cs, hcs, rfl⟩ := List.mem_map.1 h
  rw [String.toList_ofList]
  exact Text.not_mem_of_mem_splitOn hcs

theorem pieces_intercalate {ps : List String} (h : ∀ s ∈ ps, '/' ∉ s.toList) (hne : ps ≠ []) :
    pieces ⟨String.intercalate "/" ps⟩ = ps := by
  rw [pieces, String.toList_intercalate, Text.splitOn_eq, slash, List.splitOn_intercalate,
    List.map_map]
  · exact List.map_id'' (fun s => String.ofList_toList) ps
  · intro cs hcs
    obtain ⟨s, hs, rfl⟩ := List.mem_map.1 hcs
    exact h s hs
  · simpa using hne

theorem pieces_append_slash (a b : String) : pieces ⟨a ++ "/" ++ b⟩ = pieces ⟨a⟩ ++ pieces ⟨b⟩ := by
  simp only [pieces, String.toList_append, slash, List.append_assoc, List.singleton_append,
    Text.splitOn_eq, List.splitOn_append_cons_self, List.map_append]

theorem pieces_of_not_mem {s : String} (h : '/' ∉ s.toList) : pieces ⟨s⟩ = [s] := by
  rw [pieces, Text.splitOn_eq, List.splitOn_eq_singleton h, List.map_singleton, String.ofList_toList]

/-! ## names -/

/-- The pieces that lead somewhere. -/
def names (p : Path) : List String := p.pieces.filter fun s => !isTrivial s

/-- A name that a path may end in: one piece that stands for itself. -/
structure IsName (s : String) : Prop where
  notTrivial : isTrivial s = false
  notParent : s ≠ ".."
  noSlash : '/' ∉ s.toList

/-- Slashes at the end of a path leave blank pieces there. -/
theorem exists_blanks (p : Path) : ∃ blanks, p.pieces = (p.pieces.reverse.dropWhile (· == "")).reverse ++ blanks
    ∧ (∀ b ∈ blanks, b = "") ∧ (p.pieces.reverse.head? == some "") = !blanks.isEmpty := by
  refine ⟨(p.pieces.reverse.takeWhile (· == "")).reverse, ?_, fun b hb => ?_, ?_⟩
  · rw [← List.reverse_append, List.takeWhile_append_dropWhile, List.reverse_reverse]
  · exact eq_of_beq (List.all_eq_true.1 List.all_takeWhile b (List.mem_reverse.1 hb))
  · rw [List.isEmpty_reverse]
    cases p.pieces.reverse with
    | nil => rfl
    | cons s ss =>
      rw [List.head?_cons, List.takeWhile_cons]
      cases hs : s == "" with
      | true => simp [eq_of_beq hs]
      | false => simpa using hs

/-- A path that ends in a slash does not end in a name. -/
theorem not_isName_of_blanks {p : Path} {front blanks : List String} (hp : p.pieces = front ++ blanks)
    (hblank : ∀ b ∈ blanks, b = "") (hfront : ∀ s, front.getLast? = some s → ¬IsName s) {name : String}
    (h : p.pieces.getLast? = some name) : ¬IsName name := by
  rw [hp] at h
  rcases List.eq_nil_or_concat blanks with rfl | ⟨bs, b, rfl⟩
  · rw [List.append_nil] at h
    exact hfront name h
  · rw [List.concat_eq_append, ← List.append_assoc, List.getLast?_concat] at h
    intro hname
    rw [← Option.some.inj h, hblank b (by simp)] at hname
    cases hname.notTrivial

theorem head?_ne_slash {s : String} (h : '/' ∉ s.toList) : s.toList.head? ≠ some '/' := by
  intro heq
  exact h (List.mem_of_mem_head? heq)

/-- Joining a name adds it as the last piece; the pieces before it lead where the path did. -/
theorem pieces_join (p : Path) {name : String} (h : IsName name) :
    ∃ front, (p.join name).pieces = front ++ [name]
      ∧ (front.filter fun s => !isTrivial s) = p.names := by
  rw [join, if_neg (head?_ne_slash h.noSlash)]
  by_cases hempty : p.text = ""
  · refine ⟨[], ?_, ?_⟩
    · rw [if_pos (by simp [hempty]), hempty, String.empty_append, pieces_of_not_mem h.noSlash,
        List.nil_append]
    · rw [names, show p = ⟨""⟩ from congrArg Path.mk hempty]
      rfl
  · by_cases hslash : p.text.toList.getLast? = some '/'
    · obtain ⟨cs, hcs⟩ := List.getLast?_eq_some_iff.1 hslash
      have htext : p.text = .ofList cs ++ "/" := by
        rw [← String.toList_inj, hcs, String.toList_append, String.toList_ofList, slash]
      refine ⟨pieces ⟨.ofList cs⟩, ?_, ?_⟩
      · rw [if_pos (by simp [hslash]), htext, pieces_append_slash, pieces_of_not_mem h.noSlash]
      · have hp : p = ⟨.ofList cs ++ "/" ++ ""⟩ := by
          rw [String.append_empty]
          exact congrArg Path.mk htext
        rw [names, hp, pieces_append_slash, List.filter_append]
        exact (List.append_nil _).symm
    · refine ⟨p.pieces, ?_, rfl⟩
      rw [if_neg (by simp [hempty, hslash]), pieces_append_slash, pieces_of_not_mem h.noSlash]

theorem names_join (p : Path) {name : String} (h : IsName name) :
    (p.join name).names = p.names ++ [name] := by
  obtain ⟨front, hpieces, hfront⟩ := pieces_join p h
  rw [names, hpieces, List.filter_append, hfront]
  simp [h.notTrivial]

theorem getLast?_pieces_join (p : Path) {name : String} (h : IsName name) :
    (p.join name).pieces.getLast? = some name := by
  obtain ⟨front, hpieces, -⟩ := pieces_join p h
  rw [hpieces, List.getLast?_append, List.getLast?_singleton]
  rfl

theorem isAbsolute_append {a b : String} (h : a ≠ "") :
    isAbsolute ⟨a ++ b⟩ = isAbsolute ⟨a⟩ := by
  have hne : a.toList ≠ [] := by simpa using h
  obtain ⟨c, cs, hcs⟩ := List.exists_cons_of_ne_nil hne
  rw [isAbsolute, isAbsolute, String.toList_append, hcs, List.cons_append, List.head?_cons,
    List.head?_cons]

theorem isAbsolute_join (p : Path) {name : String} (h : IsName name) :
    (p.join name).isAbsolute = p.isAbsolute := by
  rw [join, if_neg (head?_ne_slash h.noSlash)]
  by_cases hempty : p.text = ""
  · rw [if_pos (by simp [hempty]), hempty, String.empty_append,
      show p = ⟨""⟩ from congrArg Path.mk hempty]
    exact Bool.eq_false_iff.2 fun heq => head?_ne_slash h.noSlash (by simpa [isAbsolute] using heq)
  · split
    · exact isAbsolute_append hempty
    · rw [String.append_assoc]
      exact isAbsolute_append hempty

/-! ## parents -/

theorem filter_dropTrivial (ps : List String) :
    ((dropTrivial ps).filter fun s => !isTrivial s) = ps.filter fun s => !isTrivial s := by
  induction ps with
  | nil => rfl
  | cons s ps ih =>
    cases ps with
    | nil => rfl
    | cons t rest =>
      rw [dropTrivial]
      split
      · rename_i hs
        rw [ih, @List.filter_cons_of_neg _ _ _ (t :: rest) (by simp [hs])]
      · rfl

theorem getLast?_dropTrivial (ps : List String) : (dropTrivial ps).getLast? = ps.getLast? := by
  induction ps with
  | nil => rfl
  | cons s ps ih =>
    cases ps with
    | nil => rfl
    | cons t rest =>
      rw [dropTrivial]
      split
      · rw [ih, List.getLast?_cons_cons]
      · rfl

theorem mem_of_mem_dropTrivial {ps : List String} {s : String} (h : s ∈ dropTrivial ps) : s ∈ ps := by
  induction ps with
  | nil => exact h
  | cons t ps ih =>
    cases ps with
    | nil => exact h
    | cons u rest =>
      rw [dropTrivial] at h
      split at h
      · exact List.mem_cons_of_mem _ (ih h)
      · exact h

theorem length_dropTrivial_le (ps : List String) : (dropTrivial ps).length ≤ ps.length := by
  induction ps with
  | nil => exact Nat.le_refl 0
  | cons s ps ih =>
    cases ps with
    | nil => exact Nat.le_refl 1
    | cons t rest =>
      rw [dropTrivial]
      split
      · exact Nat.le_trans ih (Nat.le_succ _)
      · exact Nat.le_refl _

theorem not_isTrivial_of_dropTrivial {ps rest : List String} {s t : String}
    (h : dropTrivial ps = s :: t :: rest) : isTrivial s = false := by
  induction ps with
  | nil => cases h
  | cons u ps ih =>
    cases ps with
    | nil => cases h
    | cons v vs =>
      rw [dropTrivial] at h
      split at h
      · exact ih h
      · rename_i hu
        obtain ⟨rfl, -⟩ := List.cons.inj h
        simpa using hu

/-- A path is absolute if its first piece is empty and not its only one. -/
theorem isAbsolute_eq (p : Path) :
    p.isAbsolute = (p.pieces.head? == some "" && 1 < p.pieces.length) := by
  have htext : String.intercalate "/" p.pieces = p.text := by
    have hid : String.toList ∘ String.ofList = id := funext fun cs => String.toList_ofList
    rw [← String.toList_inj, String.toList_intercalate, slash, pieces, List.map_map, hid, List.map_id,
      Text.splitOn_eq, List.intercalate_splitOn]
  have hslash (s : String) (hs : s ∈ p.pieces) : s.toList.head? ≠ some '/' :=
    head?_ne_slash (not_mem_slash hs)
  rw [isAbsolute, ← htext]
  cases hp : p.pieces with
  | nil => exact absurd hp p.pieces_ne_nil
  | cons s ps =>
    have hs := hslash s (hp ▸ List.mem_cons_self)
    cases ps with
    | nil => simpa using hs
    | cons t rest =>
      by_cases hempty : s = ""
      · subst hempty
        simp [slash]
      · have hne : s.toList ≠ [] := by simpa using hempty
        obtain ⟨c, cs, hcs⟩ := List.exists_cons_of_ne_nil hne
        rw [hcs] at hs
        have hc : c ≠ '/' := by simpa using hs
        have hempty' : (s == "") = false := by simpa using hempty
        simp [hcs, hc, hempty']

theorem pieces_ofReversed {absolute : Bool} {ps : List String} (h : ∀ s ∈ ps, '/' ∉ s.toList)
    (hne : ps ≠ []) :
    (ofReversed absolute ps).pieces = if absolute && ps == [""] then ["", ""] else ps.reverse := by
  rw [ofReversed]
  split
  · rfl
  · exact pieces_intercalate (fun s hs => h s (List.mem_reverse.1 hs)) (by simpa using hne)

theorem names_ofReversed {absolute : Bool} {ps : List String} (h : ∀ s ∈ ps, '/' ∉ s.toList) (hne : ps ≠ []) :
    (ofReversed absolute ps).names = (ps.filter fun s => !isTrivial s).reverse := by
  rw [names, pieces_ofReversed h hne, ← List.filter_reverse]
  split
  · rename_i hroot
    obtain ⟨-, rfl⟩ : absolute = true ∧ ps = [""] := by simpa using hroot
    rfl
  · rfl

/-- Pieces of which the first is empty, if the path is to be absolute. -/
theorem isAbsolute_ofReversed {absolute : Bool} {ps : List String} (h : ∀ s ∈ ps, '/' ∉ s.toList) (hne : ps ≠ [])
    (habs : absolute = (ps.getLast? == some "")) : (ofReversed absolute ps).isAbsolute = absolute := by
  rw [isAbsolute_eq, pieces_ofReversed h hne]
  split
  · rename_i hroot
    rw [(Bool.and_eq_true_iff.1 hroot).1]
    rfl
  · rename_i hroot
    rw [List.head?_reverse, ← habs, List.length_reverse]
    cases absolute with
    | false => rfl
    | true =>
      rw [Bool.true_and, decide_eq_true_eq]
      -- one empty piece alone is the root
      refine Nat.lt_of_not_le fun hle => hroot ?_
      obtain ⟨s, rfl⟩ := List.length_eq_one_iff.1 (Nat.le_antisymm hle (List.length_pos_iff.2 hne))
      simpa using habs.symm

theorem dropTrivial_ne_nil {ps : List String} (h : ps ≠ []) : dropTrivial ps ≠ [] := by
  intro hnil
  have hlast := getLast?_dropTrivial ps
  rw [hnil, List.getLast?_nil] at hlast
  exact h (List.getLast?_eq_none_iff.1 hlast.symm)

/-- The parent of a path has all its names but the last. -/
theorem names_of_parent? {p q : Path} (h : p.parent? = some q) :
    q.names = p.names.dropLast ∧ q.isAbsolute = p.isAbsolute ∧ (q.text ≠ "" → p.names ≠ []) := by
  have hnames : p.names = ((dropTrivial p.pieces.reverse).filter fun s => !isTrivial s).reverse := by
    rw [filter_dropTrivial, List.filter_reverse, List.reverse_reverse, names]
  have hhead : p.pieces.head? = (dropTrivial p.pieces.reverse).getLast? := by
    rw [getLast?_dropTrivial, List.getLast?_reverse]
  have hmem (s : String) (hs : s ∈ dropTrivial p.pieces.reverse) : '/' ∉ s.toList :=
    not_mem_slash (List.mem_reverse.1 (mem_of_mem_dropTrivial hs))
  rw [parent?] at h
  cases hd : dropTrivial p.pieces.reverse with
  | nil => rw [hd] at h; cases h
  | cons s rest =>
    rw [hd] at h hnames hhead hmem
    cases rest with
    | nil =>
      have hs : s ≠ "" := fun hs => by simp [hs] at h
      obtain rfl : ⟨""⟩ = q := by simpa [hs] using h
      refine ⟨?_, ?_, fun htext => absurd rfl htext⟩
      · rw [hnames]
        cases hs' : isTrivial s <;> simp [hs'] <;> rfl
      · have hs' : (some s == some "") = false := by simpa using hs
        rw [isAbsolute_eq p, hhead, List.getLast?_singleton, hs', Bool.false_and]
        rfl
    | cons t rest =>
      obtain rfl := Option.some.inj h
      have hs := not_isTrivial_of_dropTrivial hd
      have hne : dropTrivial (t :: rest) ≠ [] := dropTrivial_ne_nil (List.cons_ne_nil t rest)
      have hslash (u : String) (hu : u ∈ dropTrivial (t :: rest)) : '/' ∉ u.toList :=
        hmem u (List.mem_cons_of_mem s (mem_of_mem_dropTrivial hu))
      have hlong : 1 < p.pieces.length := by
        have hle := length_dropTrivial_le p.pieces.reverse
        rw [hd, List.length_reverse, List.length_cons, List.length_cons] at hle
        omega
      have habs : p.isAbsolute = ((dropTrivial (t :: rest)).getLast? == some "") := by
        rw [isAbsolute_eq p, decide_eq_true hlong, Bool.and_true, hhead, List.getLast?_cons_cons,
          getLast?_dropTrivial]
      have hdrop : p.names.dropLast = ((t :: rest).filter fun s => !isTrivial s).reverse := by
        rw [hnames, List.filter_cons_of_pos (by simp [hs]), List.reverse_cons, List.dropLast_concat]
      refine ⟨?_, isAbsolute_ofReversed hslash hne habs, fun _ => by simp [hnames, hs]⟩
      rw [names_ofReversed hslash hne, filter_dropTrivial, hdrop]

/-! ## spellings -/

/-- The piece that a component stands for, if it leads somewhere. -/
def Component.piece? : Component → Option String
  | .root | .current => none
  | .parent => some ".."
  | .name s => some s

theorem Component.piece?_ofPiece (s : String) : (ofPiece s).piece? = some s := by
  rw [ofPiece]
  split
  · rename_i h
    rw [h]
    rfl
  · rfl

theorem Component.ofPiece_ne_root (s : String) : ofPiece s ≠ .root := by
  rw [ofPiece]
  split <;> exact nofun

theorem filterMap_ofPiece (ps : List String) : (ps.map Component.ofPiece).filterMap Component.piece? = ps := by
  induction ps with
  | nil => rfl
  | cons s ps ih =>
    rw [List.map_cons, List.filterMap_cons_some (Component.piece?_ofPiece s), ih]

theorem names_eq_components (p : Path) : p.names = p.components.filterMap Component.piece? := by
  have hempty : isTrivial "" = true := rfl
  have hdot : isTrivial "." = true := rfl
  rw [names, components]
  split
  · rename_i rest hp
    rw [hp, List.filterMap_append, filterMap_ofPiece, List.filter_cons_of_neg (by simp [hempty])]
    split <;> rfl
  · rename_i rest hp
    rw [hp, List.filterMap_cons_none rfl, filterMap_ofPiece,
      List.filter_cons_of_neg (by simp [hdot])]
  · rw [filterMap_ofPiece]

theorem isAbsolute_eq_components (p : Path) :
    p.isAbsolute = (p.components.head? == some .root) := by
  have hnamed (ps : List String) :
      ((((ps.filter fun s => !isTrivial s).map Component.ofPiece).head?) == some .root) = false := by
    cases ps.filter fun s => !isTrivial s with
    | nil => rfl
    | cons s ss => simpa using Component.ofPiece_ne_root s
  rw [components]
  split
  · rename_i rest hp
    cases p.isAbsolute with
    | true => rfl
    | false => exact (hnamed rest).symm
  · rename_i rest hp
    rw [isAbsolute_eq, hp]
    rfl
  · rename_i ps hroot hdot
    rw [hnamed, isAbsolute_eq]
    cases hp : p.pieces with
    | nil => rfl
    | cons s ss =>
      have hs : s ≠ "" := fun hs => hroot ss (hs ▸ hp)
      have hs' : (some s == some "") = false := by simpa using hs
      rw [List.head?_cons, hs', Bool.false_and]

theorem Same.names_eq {p q : Path} (h : Same p q) : p.names = q.names := by
  rw [names_eq_components, names_eq_components, show p.components = q.components from h]

theorem Same.isAbsolute_eq {p q : Path} (h : Same p q) : p.isAbsolute = q.isAbsolute := by
  rw [isAbsolute_eq_components, isAbsolute_eq_components, show p.components = q.components from h]

/-! ## extensions -/

theorem splitName_some {name stem ext : String} (h : splitName name = (stem, some ext)) :
    name = stem ++ "." ++ ext ∧ '.' ∉ ext.toList ∧ stem ≠ "" := by
  have hdot : ".".toList = ['.'] := rfl
  unfold splitName at h
  split at h
  · rename_i ext' before hrev
    dsimp only at h
    split at h
    · cases h
    · rename_i hcond
      obtain ⟨rfl, rfl⟩ : String.intercalate "." before.reverse = stem ∧ ext' = ext := by simpa using h
      have hsplit : (Text.splitOn '.' name.toList).map String.ofList = before.reverse ++ [ext'] := by
        rw [← List.reverse_inj, ← List.map_reverse, hrev]
        simp
      have hbefore : before.reverse ≠ [] := by
        intro hnil
        simp_all
      refine ⟨?_, ?_, fun hstem => hcond (by simp [hstem])⟩
      · have hname : name = String.intercalate "." ((Text.splitOn '.' name.toList).map String.ofList) := by
          have hid : String.toList ∘ String.ofList = id := funext fun cs => String.toList_ofList
          rw [← String.toList_inj, String.toList_intercalate, hdot, List.map_map, hid, List.map_id,
            Text.splitOn_eq, List.intercalate_splitOn]
        rw [hname, hsplit, String.intercalate_append_of_ne_nil hbefore (List.cons_ne_nil _ _),
          String.intercalate_singleton]
      · have hmem : ext' ∈ (Text.splitOn '.' name.toList).map String.ofList := by
          rw [hsplit]
          exact List.mem_append_right _ List.mem_cons_self
        obtain ⟨cs, hcs, rfl⟩ := List.mem_map.1 hmem
        rw [String.toList_ofList]
        exact Text.not_mem_of_mem_splitOn hcs
  · cases h

theorem splitName_none {name stem : String} (h : splitName name = (stem, none)) : stem = name := by
  unfold splitName at h
  split at h
  · dsimp only at h
    split at h <;> cases h
    rfl
  · cases h
    rfl

theorem splitName_dot {stem : String} (h : stem ≠ "") : splitName (stem ++ ".") = (stem, some "") := by
  have hdot : ".".toList = ['.'] := rfl
  have hsplit : (Text.splitOn '.' (stem ++ ".").toList).reverse.map String.ofList
      = "" :: ((Text.splitOn '.' stem.toList).reverse.map String.ofList) := by
    rw [String.toList_append, hdot, Text.splitOn_eq, Text.splitOn_eq, List.splitOn_append_cons_self,
      List.splitOn_nil, List.reverse_append]
    rfl
  have hstem : String.intercalate "." ((Text.splitOn '.' stem.toList).reverse.map String.ofList).reverse
      = stem := by
    have hid : String.toList ∘ String.ofList = id := funext fun cs => String.toList_ofList
    rw [← String.toList_inj, String.toList_intercalate, hdot, ← List.map_reverse, List.reverse_reverse,
      List.map_map, hid, List.map_id, Text.splitOn_eq, List.intercalate_splitOn]
  have hne : ((Text.splitOn '.' stem.toList).reverse.map String.ofList).isEmpty = false := by
    simp [Text.splitOn_ne_nil]
  rw [splitName, hsplit]
  dsimp only
  rw [hstem, hne]
  simp [h]

theorem dropTrivial_of_getLast? {p : Path} {name : String} (h : p.pieces.getLast? = some name)
    (hname : isTrivial name = false) :
    ∃ rest, p.pieces = rest.reverse ++ [name] ∧ dropTrivial p.pieces.reverse = name :: rest := by
  obtain ⟨front, hfront⟩ := List.getLast?_eq_some_iff.1 h
  refine ⟨front.reverse, by rw [List.reverse_reverse, hfront], ?_⟩
  rw [hfront, List.reverse_append, List.reverse_singleton, List.singleton_append]
  cases front.reverse with
  | nil => rfl
  | cons t rest => rw [dropTrivial, if_neg (by simp [hname])]

theorem fileName?_of_getLast? {p : Path} {name : String} (h : p.pieces.getLast? = some name)
    (hname : isTrivial name = false) : p.fileName? = if name = ".." then none else some name := by
  obtain ⟨rest, -, hdrop⟩ := dropTrivial_of_getLast? h hname
  rw [fileName?, hdrop]
  simp [hname]

theorem not_mem_splitName {name : String} {c : Char} (h : c ∉ name.toList) :
    c ∉ (splitName name).1.toList := by
  cases hs : splitName name with
  | mk stem ext? =>
    cases ext? with
    | none => rwa [splitName_none hs]
    | some ext =>
      intro hmem
      obtain ⟨hname, -, -⟩ := splitName_some hs
      refine h ?_
      rw [hname, String.toList_append, String.toList_append]
      exact List.mem_append_left _ (List.mem_append_left _ hmem)

/-- A new extension stands where the old one did. -/
theorem getLast?_pieces_setExtension {p : Path} {name ext : String}
    (h : p.pieces.getLast? = some name) (hname : IsName name) (hext : '/' ∉ ext.toList) :
    (p.setExtension ext).pieces.getLast? = some ((splitName name).1 ++ "." ++ ext) := by
  obtain ⟨rest, hpieces, hdrop⟩ := dropTrivial_of_getLast? h hname.notTrivial
  have hdot : ".".toList = ['.'] := rfl
  have hslash : ∀ s ∈ ((splitName name).1 ++ "." ++ ext) :: rest, '/' ∉ s.toList := by
    intro s hs
    rcases List.mem_cons.1 hs with rfl | hs
    · simp [hdot, hext, not_mem_splitName hname.noSlash]
    · exact not_mem_slash (hpieces ▸ List.mem_append_left [name] (List.mem_reverse.2 hs))
  have hne : (splitName name).1 ++ "." ++ ext ≠ "" := by
    rw [Ne, ← String.toList_inj, String.toList_append, String.toList_append, hdot]
    simp
  rw [setExtension, fileName?_of_getLast? h hname.notTrivial, if_neg hname.notParent, hdrop]
  dsimp only
  rw [List.drop_succ_cons, List.drop_zero, pieces_ofReversed hslash (List.cons_ne_nil _ _), if_neg]
  · rw [List.reverse_cons, List.getLast?_append, List.getLast?_singleton]
    rfl
  · intro hroot
    obtain ⟨-, hroot⟩ := Bool.and_eq_true_iff.1 hroot
    exact hne (List.cons.inj (eq_of_beq hroot)).1

/-- The path whose last piece loses its end. -/
theorem pieces_take {p : Path} {stem old : String} (h : p.pieces.getLast? = some (stem ++ old)) :
    (pieces ⟨.ofList (p.text.toList.take (p.text.length - old.length))⟩).getLast? = some stem := by
  obtain ⟨front, hfront⟩ := List.getLast?_eq_some_iff.1 h
  have hstem : '/' ∉ stem.toList := by
    have hmem := not_mem_slash (hfront ▸ List.mem_append_right front List.mem_cons_self)
    rw [String.toList_append, List.mem_append, not_or] at hmem
    exact hmem.1
  have htext : String.intercalate "/" p.pieces = p.text := by
    have hid : String.toList ∘ String.ofList = id := funext fun cs => String.toList_ofList
    rw [← String.toList_inj, String.toList_intercalate, slash, pieces, List.map_map, hid, List.map_id,
      Text.splitOn_eq, List.intercalate_splitOn]
  have hcut (a : String) (ha : p.text = a ++ old) :
      String.ofList (p.text.toList.take (p.text.length - old.length)) = a := by
    rw [← String.toList_inj, String.toList_ofList, ha, String.toList_append, String.length_append,
      Nat.add_sub_cancel, ← String.length_toList, List.take_left]
  cases hf : front with
  | nil =>
    rw [hfront, hf, List.nil_append, String.intercalate_singleton] at htext
    rw [hcut _ htext.symm, pieces_of_not_mem hstem, List.getLast?_singleton]
  | cons f fs =>
    have hne : f :: fs ≠ [] := List.cons_ne_nil f fs
    rw [hfront, hf, String.intercalate_append_of_ne_nil hne (List.cons_ne_nil _ _),
      String.intercalate_singleton, ← String.append_assoc] at htext
    rw [hcut _ htext.symm, pieces_append_slash, pieces_of_not_mem hstem, List.getLast?_append,
      List.getLast?_singleton]
    rfl

/-- The parent of a path with a name after it is that path, spelled with the same names. -/
theorem parent?_join (p : Path) {name : String} (h : IsName name) :
    ∃ dir, (p.join name).parent? = some dir ∧ dir.names = p.names ∧ dir.isAbsolute = p.isAbsolute := by
  obtain ⟨rest, -, hdrop⟩ := dropTrivial_of_getLast? (getLast?_pieces_join p h) h.notTrivial
  have hsome : ∃ dir, (p.join name).parent? = some dir := by
    rw [parent?, hdrop]
    cases rest with
    | nil =>
      have hne : name ≠ "" := by
        rintro rfl
        exact absurd h.notTrivial (by decide)
      dsimp only
      rw [if_neg hne]
      exact ⟨_, rfl⟩
    | cons s rest => exact ⟨_, rfl⟩
  obtain ⟨dir, hdir⟩ := hsome
  obtain ⟨hnames, habs, -⟩ := names_of_parent? hdir
  refine ⟨dir, hdir, ?_, ?_⟩
  · rw [hnames, names_join p h, List.dropLast_concat]
  · rw [habs, isAbsolute_join p h]

/-- Under a new extension a path ends in the stem of its name with that extension, unless cutting off the
old extension leaves two dots. -/
theorem getLast?_pieces_withExtension {p : Path} {name ext : String}
    (h : p.pieces.getLast? = some name) (hname : IsName name) (hext : '/' ∉ ext.toList) :
    (p.withExtension ext).pieces.getLast? = some ".."
      ∨ (p.withExtension ext).pieces.getLast? = some ((splitName name).1 ++ "." ++ ext) := by
  have hfile : p.fileName? = some name := by
    rw [fileName?_of_getLast? h hname.notTrivial, if_neg hname.notParent]
  cases hs : splitName name with
  | mk stem ext? =>
    have hsplit : p.extension? = ext? := by rw [extension?, hfile, Option.bind_some, hs]
    rw [withExtension, hsplit]
    cases ext? with
    | none =>
      right
      dsimp only
      rw [getLast?_pieces_setExtension h hname hext, hs]
    | some old =>
      obtain ⟨heq, -, hstem⟩ := splitName_some hs
      have hcut := pieces_take (heq ▸ h)
      dsimp only
      by_cases hdots : stem ++ "." = ".."
      · left
        have hnone := fileName?_of_getLast? hcut (by rw [hdots]; decide)
        rw [if_pos hdots] at hnone
        rw [setExtension, hnone, hcut, hdots]
      · right
        have htrivial : isTrivial (stem ++ ".") = false := by
          have hdot : ".".toList = ['.'] := rfl
          simp [isTrivial, ← String.toList_inj, hdot, hstem]
        have hslash : '/' ∉ (stem ++ ".").toList := by
          have hno := hname.noSlash
          rw [heq, String.toList_append, List.mem_append, not_or] at hno
          exact hno.1
        rw [getLast?_pieces_setExtension hcut ⟨htrivial, hdots, hslash⟩ hext, splitName_dot hstem]

/-- No path ends in its own name under a temporary extension. -/
theorem getLast?_pieces_temporary {p : Path} {name : String} (h : p.pieces.getLast? = some name)
    (hname : IsName name) : (p.withExtension "json.tmp").pieces.getLast? ≠ some name := by
  have hext : '/' ∉ "json.tmp".toList := by decide
  intro heq
  rcases getLast?_pieces_withExtension h hname hext with hlast | hlast
  · rw [hlast] at heq
    exact hname.notParent (Option.some.inj heq).symm
  · rw [hlast] at heq
    have heq := Option.some.inj heq
    cases hs : splitName name with
    | mk stem ext? =>
      rw [hs] at heq
      cases ext? with
      | none =>
        have hlen := congrArg String.length heq
        dsimp only at hlen
        rw [splitName_none hs, String.append_assoc] at hlen
        rw [String.length_append] at hlen
        have hpos : 0 < ("." ++ "json.tmp").length := by decide
        omega
      | some old =>
        obtain ⟨hname', hold, -⟩ := splitName_some hs
        rw [hname', ← String.toList_inj, @String.toList_append _ "json.tmp",
          @String.toList_append _ old] at heq
        have htmp := List.append_cancel_left heq
        rw [← htmp] at hold
        exact hold (by decide)

end Path

end DeviceSettings

import DeviceSettings.Disk
import DeviceSettings.Proofs.Path.Names

/-!
# The places of paths

A path spells one place (`placeOf`), whatever stands on the disk: a walk along it ends there or fails
(`resolve_eq`, `target_eq`).  On a disk that is a tree only a path that ends in a name leads to anything but
a directory (`IsTree.named_of_resolve`).

* `visits`, `exits`   the places on the way, and those that a `..` leaves;
* `Named`             the path ends in a name, and the directory before it is there.
-/

namespace DeviceSettings.Disk

theorem bind_eq_ok {ε α β : Type} {x : Except ε α} {f : α → Except ε β} {b : β} :
    x >>= f = .ok b ↔ ∃ a, x = .ok a ∧ f a = .ok b := by
  constructor
  · intro h
    cases x with
    | error e => cases h
    | ok a => exact ⟨a, rfl, h⟩
  · rintro ⟨a, rfl, h⟩
    exact h

variable {d : Disk} {p : Path} {place q : Place}

/-- Every entry stands in a directory. -/
def IsTree (d : Disk) : Prop :=
  ∀ place name, (d.at? (place ++ [name])).isSome = true → d.isDirectoryAt place = true

theorem isDirectoryAt_nil (d : Disk) : d.isDirectoryAt [] = true := rfl

theorem isSome_of_isDirectoryAt (h : d.isDirectoryAt place = true) : (d.at? place).isSome = true := by
  unfold isDirectoryAt at h
  cases hat : d.at? place with
  | none => rw [hat] at h; cases h
  | some e => rfl

theorem isTree_empty (work : Place) : IsTree ⟨.empty, work⟩ := by
  intro place name h
  rw [at?, if_neg (by simp)] at h
  cases h

/-- It is enough to look at the entries there are. -/
theorem isTree_of_entries (h : ∀ x ∈ d.entries.keys, d.isDirectoryAt x.dropLast = true) : d.IsTree := by
  intro place name hsome
  rw [at?, if_neg (by simp)] at hsome
  obtain ⟨e, he⟩ := Option.isSome_iff_exists.1 hsome
  have hkey : place ++ [name] ∈ d.entries.keys :=
    List.mem_map.2 ⟨(place ++ [name], e), Table.get?_eq_some_iff.1 he, rfl⟩
  have hdir := h _ hkey
  rwa [List.dropLast_concat] at hdir

theorem IsTree.isDirectoryAt_dropLast (ht : d.IsTree) (h : d.isDirectoryAt place = true) :
    d.isDirectoryAt place.dropLast = true := by
  rcases List.eq_nil_or_concat place with rfl | ⟨front, name, rfl⟩
  · exact h
  · rw [List.concat_eq_append] at h ⊢
    rw [List.dropLast_concat]
    exact ht front name (isSome_of_isDirectoryAt h)

/-! ## the way -/

/-- Where a piece leads. -/
def stepTo (place : Place) (piece : String) : Place :=
  if Path.isTrivial piece then place else if piece = ".." then place.dropLast else place ++ [piece]

/-- Where a path begins. -/
def base (d : Disk) (p : Path) : Place := if p.isAbsolute then [] else d.work

/-- The place that a path spells. -/
def placeOf (d : Disk) (p : Path) : Place := p.names.foldl stepTo (d.base p)

/-- The places on the way, the first and the last with them. -/
def visits (place : Place) : List String → List Place
  | [] => [place]
  | s :: ss => place :: visits (stepTo place s) ss

/-- The places that a `..` leaves. -/
def exits (place : Place) : List String → List Place
  | [] => []
  | s :: ss => (if s = ".." then [place] else []) ++ exits (stepTo place s) ss

theorem stepTo_trivial {s : String} (h : Path.isTrivial s = true) : stepTo place s = place := if_pos h

theorem stepTo_parent : stepTo place ".." = place.dropLast := rfl

theorem stepTo_name (place : Place) {s : String} (h : Path.isTrivial s = false) (hp : s ≠ "..") :
    stepTo place s = place ++ [s] := by
  rw [stepTo, h, if_neg Bool.false_ne_true, if_neg hp]

/-- Trivial pieces do not count. -/
theorem foldl_stepTo_filter (place : Place) (ps : List String) :
    (ps.filter fun s => !Path.isTrivial s).foldl stepTo place = ps.foldl stepTo place := by
  induction ps generalizing place with
  | nil => rfl
  | cons s ps ih =>
    cases hs : Path.isTrivial s with
    | true => rw [List.filter_cons_of_neg (by simp [hs]), ih, List.foldl_cons, stepTo_trivial hs]
    | false => rw [List.filter_cons_of_pos (by simp [hs]), List.foldl_cons, List.foldl_cons, ih]

theorem exits_filter (place : Place) (ps : List String) :
    exits place (ps.filter fun s => !Path.isTrivial s) = exits place ps := by
  induction ps generalizing place with
  | nil => rfl
  | cons s ps ih =>
    cases hs : Path.isTrivial s with
    | true =>
      have hne : s ≠ ".." := by
        rintro rfl
        cases hs
      rw [List.filter_cons_of_neg (by simp [hs]), ih, exits, if_neg hne, stepTo_trivial hs,
        List.nil_append]
    | false => rw [List.filter_cons_of_pos (by simp [hs]), exits, exits, ih]

theorem placeOf_eq (d : Disk) (p : Path) : d.placeOf p = p.pieces.foldl stepTo (d.base p) :=
  foldl_stepTo_filter _ _

/-- A path that ends in a name spells a place of that name. -/
theorem getLast?_placeOf {name : String} (h : p.pieces.getLast? = some name) (hname : Path.IsName name) :
    (d.placeOf p).getLast? = some name := by
  obtain ⟨front, hfront⟩ := List.getLast?_eq_some_iff.1 h
  rw [placeOf_eq, hfront, List.foldl_append]
  show (stepTo _ name).getLast? = some name
  rw [stepTo_name _ hname.notTrivial hname.notParent, List.getLast?_concat]

theorem foldl_mem_visits (place : Place) (ss : List String) : ss.foldl stepTo place ∈ visits place ss := by
  induction ss generalizing place with
  | nil => exact List.mem_cons_self
  | cons s ss ih => exact List.mem_cons_of_mem _ (ih _)

theorem visits_append (place : Place) (ss ts : List String) (hx : q ∈ visits place ss) :
    q ∈ visits place (ss ++ ts) := by
  induction ss generalizing place with
  | nil =>
    obtain rfl : q = place := by simpa [visits] using hx
    cases ts <;> exact List.mem_cons_self
  | cons s ss ih =>
    rcases List.mem_cons.1 hx with rfl | hx
    · exact List.mem_cons_self
    · exact List.mem_cons_of_mem _ (ih _ hx)

theorem exits_append (place : Place) (ss ts : List String) :
    exits place (ss ++ ts) = exits place ss ++ exits (ss.foldl stepTo place) ts := by
  induction ss generalizing place with
  | nil => rfl
  | cons s ss ih => rw [List.cons_append, exits, exits, ih, List.append_assoc, List.foldl_cons]

theorem mem_visits_append {place : Place} {ss ts : List String} (h : q ∈ visits place (ss ++ ts)) :
    q ∈ visits place ss ∨ q ∈ visits (ss.foldl stepTo place) ts := by
  induction ss generalizing place with
  | nil => exact .inr h
  | cons s ss ih =>
    rcases List.mem_cons.1 h with rfl | h
    · exact .inl List.mem_cons_self
    · exact (ih h).imp_left (List.mem_cons_of_mem _)

theorem exits_eq_nil {place : Place} {ss : List String} (h : ".." ∉ ss) : exits place ss = [] := by
  induction ss generalizing place with
  | nil => rfl
  | cons s ss ih =>
    have hs : s ≠ ".." := fun heq => h (heq ▸ List.mem_cons_self)
    rw [exits, if_neg hs, ih fun hm => h (List.mem_cons_of_mem _ hm), List.append_nil]

/-- Who comes back out from below a place leaves it. -/
theorem mem_exits_of_prefix {place : Place} {ss : List String} (h : q <+: place)
    (hout : ¬q <+: ss.foldl stepTo place) : q ∈ exits place ss := by
  induction ss generalizing place with
  | nil => exact absurd h hout
  | cons s ss ih =>
    rw [List.foldl_cons] at hout
    rw [exits]
    by_cases hstep : q <+: stepTo place s
    · exact List.mem_append_right _ (ih hstep hout)
    · -- only `..` shortens a place, and only by its last name
      have hs : s = ".." := by
        by_cases ht : Path.isTrivial s = true
        · rw [stepTo_trivial ht] at hstep
          exact absurd h hstep
        · by_cases hp : s = ".."
          · exact hp
          · rw [stepTo_name _ (by simpa using ht) hp] at hstep
            exact absurd (h.trans (List.prefix_append _ _)) hstep
      subst hs
      rw [stepTo_parent] at hstep
      have heq : q = place := by
        rcases List.eq_nil_or_concat place with rfl | ⟨front, name, rfl⟩
        · exact absurd h hstep
        · rw [List.concat_eq_append] at h hstep ⊢
          rw [List.dropLast_concat] at hstep
          rcases List.prefix_concat_iff.1 h with heq | hpre
          · exact heq
          · exact absurd hpre hstep
      rw [if_pos rfl, heq]
      exact List.mem_append_left _ List.mem_cons_self

theorem mem_exits_of_visits {place : Place} {ss : List String} (h : q ∈ visits place ss)
    (hout : ¬q <+: ss.foldl stepTo place) : q ∈ exits place ss := by
  induction ss generalizing place with
  | nil =>
    obtain rfl : q = place := by simpa [visits] using h
    exact absurd (List.prefix_refl _) hout
  | cons s ss ih =>
    rcases List.mem_cons.1 h with rfl | h
    · exact mem_exits_of_prefix (List.prefix_refl _) hout
    · rw [exits]
      exact List.mem_append_right _ (ih h hout)

/-! ## walks -/

theorem child_ok {name : String} (h : d.child place name = .ok q) :
    d.isDirectoryAt place = true ∧ name.utf8ByteSize ≤ longestName ∧ q = place ++ [name] := by
  unfold child at h
  split at h
  · cases h
  · rename_i hdir
    split at h
    · cases h
    · rename_i hlen
      cases h
      exact ⟨by simpa using hdir, Nat.le_of_not_lt hlen, rfl⟩

theorem walk_ok {piece : String} (h : d.walk place piece = .ok q) :
    d.isDirectoryAt place = true ∧ q = stepTo place piece
      ∧ (Path.isTrivial piece = false → piece ≠ ".." →
          piece.utf8ByteSize ≤ longestName ∧ (d.at? q).isSome = true) := by
  unfold walk at h
  split at h
  · cases h
  rename_i hdir
  have hdir : d.isDirectoryAt place = true := by simpa using hdir
  split at h
  · rename_i ht
    cases h
    exact ⟨hdir, (stepTo_trivial ht).symm, fun hf => absurd (ht.symm.trans hf) nofun⟩
  rename_i ht
  split at h
  · rename_i hp
    cases h
    subst hp
    exact ⟨hdir, rfl, fun _ hne => absurd rfl hne⟩
  rename_i hp
  cases hc : d.child place piece with
  | error e => rw [hc] at h; cases h
  | ok r =>
    rw [hc] at h
    replace h : (if (d.at? r).isSome then Except.ok r else .error OsError.notFound) = .ok q := h
    split at h
    · rename_i hsome
      cases h
      obtain ⟨-, hlen, heq⟩ := child_ok hc
      have hs := stepTo_name place (by simpa using ht) hp
      exact ⟨hdir, by rw [heq, hs], fun _ _ => ⟨hlen, hsome⟩⟩
    · cases h

/-- A step from a directory to where something stands. -/
theorem walk_of {piece : String} (hdir : d.isDirectoryAt place = true)
    (h : Path.isTrivial piece = false → piece ≠ ".." →
      piece.utf8ByteSize ≤ longestName ∧ (d.at? (stepTo place piece)).isSome = true) :
    d.walk place piece = .ok (stepTo place piece) := by
  rw [walk, hdir, if_neg (by simp)]
  by_cases ht : Path.isTrivial piece = true
  · rw [if_pos ht, stepTo_trivial ht]
  · have ht' : Path.isTrivial piece = false := by simpa using ht
    rw [if_neg ht]
    by_cases hp : piece = ".."
    · rw [if_pos hp, hp, stepTo_parent]
    · obtain ⟨hlen, hsome⟩ := h ht' hp
      rw [stepTo_name _ ht' hp] at hsome ⊢
      rw [if_neg hp, child, hdir, if_neg (by simp), if_neg (Nat.not_lt.2 hlen)]
      show (if (d.at? (place ++ [piece])).isSome then _ else _) = _
      rw [if_pos hsome]

theorem foldlM_walk_cons {s : String} {ss : List String} (h : (s :: ss).foldlM d.walk place = .ok q) :
    d.walk place s = .ok (stepTo place s) ∧ ss.foldlM d.walk (stepTo place s) = .ok q := by
  rw [List.foldlM_cons] at h
  cases hw : d.walk place s with
  | error e => rw [hw] at h; cases h
  | ok r =>
    rw [hw] at h
    obtain ⟨-, rfl, -⟩ := walk_ok hw
    exact ⟨rfl, h⟩

theorem foldlM_walk_of {s : String} {ss : List String} (h : d.walk place s = .ok (stepTo place s))
    (hs : ss.foldlM d.walk (stepTo place s) = .ok q) : (s :: ss).foldlM d.walk place = .ok q := by
  rw [List.foldlM_cons, h]
  exact hs

/-- A walk ends where its pieces lead. -/
theorem foldlM_walk_eq {ss : List String} (h : ss.foldlM d.walk place = .ok q) :
    q = ss.foldl stepTo place := by
  induction ss generalizing place with
  | nil => cases h; rfl
  | cons s ss ih => exact ih (foldlM_walk_cons h).2

/-- A walk that goes on begins in a directory; one that does not ends where it began. -/
theorem isDirectoryAt_of_foldlM {ss : List String} (h : ss.foldlM d.walk place = .ok q) :
    (ss = [] ∧ place = q) ∨ d.isDirectoryAt place = true := by
  cases ss with
  | nil => exact .inl ⟨rfl, by cases h; rfl⟩
  | cons s ss => exact .inr (walk_ok (foldlM_walk_cons h).1).1

theorem start_ok (h : d.start p = .ok place) : place = d.base p := by
  unfold start at h
  split at h
  · cases h
  split at h
  · cases h
  split at h
  · cases h
  · cases h
    rfl

theorem start_congr {d' : Disk} (hwork : d'.work = d.work) (p : Path) : d'.start p = d.start p := by
  rw [start, start, hwork]

theorem resolve_ok (h : d.resolve p = .ok q) :
    d.start p = .ok (d.base p) ∧ p.pieces.foldlM d.walk (d.base p) = .ok q := by
  unfold resolve at h
  cases hs : d.start p with
  | error e => rw [hs] at h; cases h
  | ok place =>
    rw [hs] at h
    obtain rfl := start_ok hs
    exact ⟨rfl, h⟩

theorem resolve_of (hs : d.start p = .ok (d.base p)) (h : p.pieces.foldlM d.walk (d.base p) = .ok q) :
    d.resolve p = .ok q := by
  rw [resolve, hs]
  exact h

theorem resolve_eq (h : d.resolve p = .ok q) : q = d.placeOf p := by
  rw [placeOf_eq]
  exact foldlM_walk_eq (resolve_ok h).2

/-! ## paths that end in a name -/

/-- A path of some pieces and a name after them; the pieces lead to a directory that is there. -/
structure NamedBy (d : Disk) (p : Path) (before : List String) (dir : Place) (name : String) : Prop where
  pieces : p.pieces = before ++ [name]
  isName : Path.IsName name
  short : name.utf8ByteSize ≤ longestName
  start : d.start p = .ok (d.base p)
  walk : before.foldlM d.walk (d.base p) = .ok dir
  isDirectory : d.isDirectoryAt dir = true

/-- The path ends in a name, `q` is the place of that name, and the directory before it is there. -/
def Named (d : Disk) (p : Path) (q : Place) : Prop :=
  ∃ before dir name, d.NamedBy p before dir name ∧ q = dir ++ [name]

theorem NamedBy.placeOf_eq {before : List String} {dir : Place} {name : String}
    (h : d.NamedBy p before dir name) : d.placeOf p = dir ++ [name] := by
  rw [Disk.placeOf_eq, h.pieces, List.foldl_append, ← foldlM_walk_eq h.walk]
  exact stepTo_name _ h.isName.notTrivial h.isName.notParent

theorem NamedBy.resolve {before : List String} {dir : Place} {name : String}
    (h : d.NamedBy p before dir name) (hsome : (d.at? (dir ++ [name])).isSome = true) :
    d.resolve p = .ok (dir ++ [name]) := by
  have hstep := stepTo_name dir h.isName.notTrivial h.isName.notParent
  have hwalk : d.walk dir name = .ok (dir ++ [name]) := by
    rw [← hstep]
    exact walk_of h.isDirectory fun _ _ => ⟨h.short, by rwa [hstep]⟩
  refine resolve_of h.start ?_
  rw [h.pieces, List.foldlM_append, h.walk]
  rw [← hstep] at hwalk ⊢
  exact @foldlM_walk_of d dir _ name [] hwalk rfl

theorem Named.placeOf_eq (h : d.Named p q) : q = d.placeOf p := by
  obtain ⟨before, dir, name, hn, rfl⟩ := h
  exact hn.placeOf_eq.symm

theorem Named.getLast?_eq (h : d.Named p q) : q.getLast? = p.pieces.getLast? := by
  obtain ⟨before, dir, name, hn, rfl⟩ := h
  rw [hn.pieces, List.getLast?_concat, List.getLast?_concat]

theorem Named.parent (h : d.Named p q) : q ≠ [] ∧ d.isDirectoryAt q.dropLast = true := by
  obtain ⟨before, dir, name, hn, rfl⟩ := h
  rw [List.dropLast_concat]
  exact ⟨by simp, hn.isDirectory⟩

theorem Named.resolve (h : d.Named p q) (hsome : (d.at? q).isSome = true) : d.resolve p = .ok q := by
  obtain ⟨before, dir, name, hn, rfl⟩ := h
  exact hn.resolve hsome

/-- A walk along pieces and one more. -/
theorem foldlM_walk_concat {ss : List String} {s : String}
    (h : (ss ++ [s]).foldlM d.walk place = .ok q) :
    ∃ dir, ss.foldlM d.walk place = .ok dir ∧ d.walk dir s = .ok q := by
  rw [List.foldlM_append] at h
  cases hf : ss.foldlM d.walk place with
  | error e => rw [hf] at h; cases h
  | ok dir =>
    rw [hf] at h
    obtain ⟨hw, hq⟩ := @foldlM_walk_cons d dir q s [] h
    cases hq
    exact ⟨dir, rfl, hw⟩

/-- On a tree a path that does not end in a name leads to directories only. -/
theorem IsTree.named_of_resolve (ht : d.IsTree) (h : d.resolve p = .ok q)
    (hq : d.isDirectoryAt q = false) : d.Named p q ∧ (d.at? q).isSome = true := by
  obtain ⟨hstart, hwalk⟩ := resolve_ok h
  rcases List.eq_nil_or_concat p.pieces with hnil | ⟨before, last, hconcat⟩
  · exact absurd hnil p.pieces_ne_nil
  rw [List.concat_eq_append] at hconcat
  rw [hconcat] at hwalk
  obtain ⟨dir, hdir, hlast⟩ := foldlM_walk_concat hwalk
  obtain ⟨hisdir, rfl, hname⟩ := walk_ok hlast
  have htrivial : Path.isTrivial last = false := by
    refine Bool.eq_false_iff.2 fun hs => ?_
    rw [stepTo_trivial hs, hisdir] at hq
    cases hq
  have hparent : last ≠ ".." := by
    rintro rfl
    rw [stepTo_parent, ht.isDirectoryAt_dropLast hisdir] at hq
    cases hq
  have hslash : '/' ∉ last.toList :=
    Path.not_mem_slash (hconcat ▸ List.mem_append_right before List.mem_cons_self)
  obtain ⟨hshort, hsome⟩ := hname htrivial hparent
  refine ⟨⟨before, dir, last, ?_, stepTo_name _ htrivial hparent⟩, hsome⟩
  exact ⟨hconcat, ⟨htrivial, hparent, hslash⟩, hshort, hstart, hdir, hisdir⟩

theorem IsTree.isDirectoryAt_of_resolve (ht : d.IsTree) (h : d.resolve p = .ok q)
    (hlast : ∀ name, p.pieces.getLast? = some name → ¬Path.IsName name) : d.isDirectoryAt q = true := by
  cases hq : d.isDirectoryAt q with
  | true => rfl
  | false =>
    obtain ⟨⟨before, dir, name, hn, -⟩, -⟩ := ht.named_of_resolve h hq
    exact absurd hn.isName (hlast name (by rw [hn.pieces, List.getLast?_concat]))

theorem IsTree.isSome_of_resolve (ht : d.IsTree) (h : d.resolve p = .ok q) :
    (d.at? q).isSome = true := by
  cases hq : d.isDirectoryAt q with
  | true => exact isSome_of_isDirectoryAt hq
  | false => exact (ht.named_of_resolve h hq).2

/-- With a slash after it a path leads to a directory or to nothing. -/
theorem slashed_ok {slashed : Bool} {x : Place × Bool}
    (h : (match d.at? q with
      | some e => if slashed && !e.isDirectory then Except.error OsError.notDirectory else pure (q, slashed)
      | none => pure (q, slashed)) = .ok x) :
    x = (q, slashed) ∧ (slashed = true → ∀ e, d.at? q = some e → e.isDirectory = true) := by
  split at h
  · rename_i e he
    split at h
    · cases h
    · rename_i hcond
      cases h
      refine ⟨rfl, fun hs e' he' => ?_⟩
      obtain rfl : e = e' := Option.some.inj (he.symm.trans he')
      rw [hs, Bool.true_and] at hcond
      simpa using hcond
  · rename_i he
    cases h
    exact ⟨rfl, fun _ e he' => by simp [he] at he'⟩

/-- How a target comes about: the path does not end in a name and leads there, or it ends in a name and
slashes after it. -/
theorem target_ok {slashed : Bool} (h : d.target p = .ok (q, slashed)) :
    (d.resolve p = .ok q ∧ ∀ name, p.pieces.getLast? = some name → ¬Path.IsName name) ∨
    ∃ before dir last blanks, p.pieces = before ++ [last] ++ blanks ∧ (∀ b ∈ blanks, b = "")
      ∧ slashed = !blanks.isEmpty ∧ Path.IsName last ∧ last.utf8ByteSize ≤ longestName
      ∧ d.start p = .ok (d.base p) ∧ before.foldlM d.walk (d.base p) = .ok dir
      ∧ d.isDirectoryAt dir = true ∧ q = dir ++ [last]
      ∧ (slashed = true → ∀ e, d.at? q = some e → e.isDirectory = true) := by
  obtain ⟨place, hstart, h⟩ := bind_eq_ok.1 h
  obtain rfl := start_ok hstart
  obtain ⟨blanks, hpieces, hblank, hslashed⟩ := p.exists_blanks
  dsimp only at h
  split at h
  · rename_i hfront
    obtain ⟨r, hr, h⟩ := bind_eq_ok.1 h
    cases h
    rw [hfront] at hpieces
    exact .inl ⟨hr, fun _ => Path.not_isName_of_blanks hpieces hblank nofun⟩
  · rename_i last before hfront
    have hlast : last ≠ "" := by
      rintro rfl
      have hne := List.head?_dropWhile_not (· == "") p.pieces.reverse
      rw [hfront] at hne
      cases hne
    rw [hfront, List.reverse_cons] at hpieces
    split at h
    · rename_i hdots
      obtain ⟨r, hr, h⟩ := bind_eq_ok.1 h
      cases h
      refine .inl ⟨hr, fun _ => Path.not_isName_of_blanks hpieces hblank fun s hs hname => ?_⟩
      obtain rfl := Option.some.inj (List.getLast?_concat.symm.trans hs)
      rcases Bool.or_eq_true_iff.1 hdots with hdot | hdot
      · rw [of_decide_eq_true hdot] at hname
        cases hname.notTrivial
      · exact hname.notParent (of_decide_eq_true hdot)
    · rename_i hdots
      obtain ⟨dir, hdir, h⟩ := bind_eq_ok.1 h
      obtain ⟨r, hr, h⟩ := bind_eq_ok.1 h
      obtain ⟨hisdir, hshort, rfl⟩ := child_ok hr
      obtain ⟨heq, hdirs⟩ := slashed_ok h
      cases heq
      have hname : Path.IsName last := by
        have hdot : last ≠ "." := fun heq => hdots (by simp [heq])
        refine ⟨by simp [Path.isTrivial, hlast, hdot], fun heq => hdots (by simp [heq]), ?_⟩
        exact Path.not_mem_slash (by rw [hpieces]; simp)
      exact .inr ⟨before.reverse, dir, last, blanks, hpieces, hblank, hslashed, hname, hshort, hstart, hdir,
        hisdir, rfl, hdirs⟩

theorem target_eq {slashed : Bool} (h : d.target p = .ok (q, slashed)) : q = d.placeOf p := by
  rcases target_ok h with ⟨hr, -⟩ | ⟨before, dir, last, blanks, hp, hblank, -, hn, -, -, hw, -, rfl, -⟩
  · exact resolve_eq hr
  · have hskip (bs : List String) (hb : ∀ b ∈ bs, b = "") (place : Place) :
        bs.foldl stepTo place = place := by
      induction bs generalizing place with
      | nil => rfl
      | cons b bs ih =>
        obtain rfl := hb b List.mem_cons_self
        exact ih (fun b h => hb b (List.mem_cons_of_mem _ h)) place
    rw [placeOf_eq, hp, List.foldl_append, List.foldl_append, hskip blanks hblank,
      ← foldlM_walk_eq hw]
    exact (stepTo_name _ hn.notTrivial hn.notParent).symm

/-- What is no directory and is aimed at without a slash is aimed at by its name. -/
theorem IsTree.named_of_target (ht : d.IsTree) (h : d.target p = .ok (q, false))
    (hq : d.isDirectoryAt q = false) : d.Named p q := by
  rcases target_ok h with ⟨hr, -⟩ | ⟨before, dir, last, blanks, hp, -, hs, hn, hl, hstart, hw, hd, rfl, -⟩
  · exact (ht.named_of_resolve hr hq).1
  · have hblanks : blanks = [] := by simpa using hs
    rw [hblanks, List.append_nil] at hp
    exact ⟨before, dir, last, ⟨hp, hn, hl, hstart, hw, hd⟩, rfl⟩

theorem IsTree.parent_of_target {slashed : Bool} (ht : d.IsTree) (h : d.target p = .ok (q, slashed))
    (hq : d.at? q = none) : q ≠ [] ∧ d.isDirectoryAt q.dropLast = true := by
  rcases target_ok h with ⟨hr, -⟩ | ⟨before, dir, last, blanks, -, -, -, -, -, -, -, hd, rfl, -⟩
  · have hsome := ht.isSome_of_resolve hr
    rw [hq] at hsome
    cases hsome
  · rw [List.dropLast_concat]
    exact ⟨by simp, hd⟩

/-- A slash at the end is for directories. -/
theorem IsTree.isDirectory_of_target (ht : d.IsTree) {e : Entry} (h : d.target p = .ok (q, true))
    (hq : d.at? q = some e) : e.isDirectory = true := by
  rcases target_ok h with ⟨hr, hlast⟩ | ⟨before, dir, last, blanks, -, -, -, -, -, -, -, -, rfl, hd⟩
  · have hdir := ht.isDirectoryAt_of_resolve hr hlast
    rwa [isDirectoryAt, hq] at hdir
  · exact hd rfl e hq

end DeviceSettings.Disk

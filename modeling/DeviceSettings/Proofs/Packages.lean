import DeviceSettings.Proofs.Path.Names
import DeviceSettings.Proofs.Rest
import DeviceSettings.Search
import Mathlib.Data.List.TakeWhile
import Mathlib.Data.Set.Basic

/-!
# Package lists

A package list names a package at the start of each of its lines.  What a line and its first word are is said here
without cutting a text up: `Text.IsLine`, `Text.IsFirstWord`.  The packages are the first words of the lines
(`Packages.isInstalled_parse`), so that two lists put one after the other, with a line feed between them, name what
either names; the order of the lines and the blanks around them, carriage returns among them, do not count.
-/

namespace DeviceSettings

namespace Text

variable {line cs w : List Char}

/-! ## the first word -/

/-- The word is the first of the line: only blanks stand before it, and it ends at a blank or where the line does. -/
structure IsFirstWord (line w : List Char) : Prop where
  cut : ∃ before after, line = before ++ (w ++ after) ∧ (∀ c ∈ before, isBlank c = true)
    ∧ ∀ c ∈ after.head?, isBlank c = true
  nonempty : w ≠ []
  solid : ∀ c ∈ w, isBlank c = false

theorem firstWord?_eq_some : firstWord? cs = some w ↔ ((trimStart cs).takeWhile fun c => !isBlank c) = w ∧ w ≠ [] := by
  rw [firstWord?]
  cases (trimStart cs).takeWhile fun c => !isBlank c with
  | nil => simp
  | cons c rest => grind

theorem takeWhile_solid {after : List Char} (hw : ∀ c ∈ w, isBlank c = false)
    (hafter : ∀ c ∈ after.head?, isBlank c = true) : ((w ++ after).takeWhile fun c => !isBlank c) = w := by
  have hall : ∀ c ∈ w, (!isBlank c) = true := fun c hc => by rw [hw c hc]; rfl
  rw [List.takeWhile_append_of_pos hall]
  cases after with
  | nil => rw [List.takeWhile_nil, List.append_nil]
  | cons c rest => rw [List.takeWhile_cons_of_neg (by simp [hafter c rfl]), List.append_nil]

theorem firstWord?_eq_some_iff : firstWord? line = some w ↔ IsFirstWord line w := by
  rw [firstWord?_eq_some]
  constructor
  · rintro ⟨rfl, hne⟩
    have hstart := List.takeWhile_append_dropWhile (p := isBlank) (l := line)
    have hend := List.takeWhile_append_dropWhile (p := fun c => !isBlank c) (l := trimStart line)
    refine ⟨⟨line.takeWhile isBlank, (trimStart line).dropWhile fun c => !isBlank c, ?_, ?_, ?_⟩, hne, ?_⟩
    · rw [hend]
      exact hstart.symm
    · exact fun c hc => List.mem_takeWhile_imp hc
    · intro c hc
      have hstop := List.head?_dropWhile_not (fun c => !isBlank c) (trimStart line)
      rw [hc] at hstop
      simpa using hstop
    · exact fun c hc => by simpa using List.mem_takeWhile_imp hc
  · rintro ⟨⟨before, after, rfl, hbefore, hafter⟩, hne, hsolid⟩
    have hskip : trimStart (before ++ (w ++ after)) = w ++ after := by
      rw [trimStart, List.dropWhile_append_of_pos hbefore]
      obtain ⟨c, rest, rfl⟩ := List.exists_cons_of_ne_nil hne
      exact List.dropWhile_cons_of_neg (by simp [hsolid c List.mem_cons_self])
    rw [hskip]
    exact ⟨takeWhile_solid hsolid hafter, hne⟩

/-- Only a blank line has no first word. -/
theorem exists_firstWord? (h : ∃ c ∈ line, isBlank c = false) : ∃ w, firstWord? line = some w := by
  obtain ⟨c, hc, hsolid⟩ := h
  have hne : trimStart line ≠ [] := fun hnil => by
    have hblank := List.dropWhile_eq_nil_iff.mp hnil c hc
    rw [hsolid] at hblank
    cases hblank
  obtain ⟨d, rest, hd⟩ := List.exists_cons_of_ne_nil hne
  have hstop : isBlank d = false := by
    have hnot := List.head?_dropWhile_not isBlank line
    rw [show line.dropWhile isBlank = d :: rest from hd] at hnot
    simpa using hnot
  refine ⟨_, firstWord?_eq_some.mpr ⟨rfl, ?_⟩⟩
  rw [hd, List.takeWhile_cons_of_pos (by simp [hstop])]
  exact List.cons_ne_nil _ _

theorem firstWord?_nil : firstWord? [] = none := rfl

theorem firstWord?_cons_blank {c : Char} (h : isBlank c = true) (cs : List Char) :
    firstWord? (c :: cs) = firstWord? cs := by
  rw [firstWord?, firstWord?, trimStart, trimStart, List.dropWhile_cons_of_pos h]

/-- A blank after a line belongs to no word. -/
theorem firstWord?_concat_blank {c : Char} (h : isBlank c = true) (cs : List Char) :
    firstWord? (cs ++ [c]) = firstWord? cs := by
  induction cs with
  | nil => exact firstWord?_cons_blank h []
  | cons d cs ih =>
    rw [List.cons_append]
    by_cases hd : isBlank d = true
    · rw [firstWord?_cons_blank hd, firstWord?_cons_blank hd, ih]
    · have hword (l : List Char) : ((l ++ [c]).takeWhile fun c => !isBlank c) = l.takeWhile fun c => !isBlank c := by
        induction l with
        | nil => simp [h]
        | cons e l ih => rw [List.cons_append, List.takeWhile_cons, List.takeWhile_cons, ih]
      rw [firstWord?, firstWord?, trimStart, trimStart, List.dropWhile_cons_of_neg hd, List.dropWhile_cons_of_neg hd,
        ← List.cons_append, hword]

theorem firstWord?_dropReturn (line : List Char) : firstWord? (dropReturn line) = firstWord? line := by
  rw [dropReturn]
  split
  · rename_i r hr
    rw [← List.reverse_reverse line, hr, List.reverse_cons, firstWord?_concat_blank (by decide)]
  · rfl

/-! ## lines -/

/-- The line is one of the text's: a line feed or an end of the text stands on either side of it, and none inside. -/
structure IsLine (line text : List Char) : Prop where
  whole : '\n' ∉ line
  cut : ∃ before after, text = before ++ (line ++ after) ∧ (∀ c ∈ before.getLast?, c = '\n')
    ∧ ∀ c ∈ after.head?, c = '\n'

theorem splitOn_feed (a b : List Char) : splitOn '\n' (a ++ '\n' :: b) = splitOn '\n' a ++ splitOn '\n' b := by
  rw [splitOn_eq, splitOn_eq, splitOn_eq, List.splitOn_append_cons_self]

theorem splitOn_of_not_mem (h : '\n' ∉ cs) : splitOn '\n' cs = [cs] := by
  rw [splitOn_eq, List.splitOn_eq_singleton h]

/-- A text is a line, or a line, a line feed and a text. -/
theorem line_induction {motive : List Char → Prop} (last : ∀ cs, '\n' ∉ cs → motive cs)
    (line : ∀ a b, '\n' ∉ a → motive b → motive (a ++ '\n' :: b)) (cs : List Char) : motive cs := by
  induction hn : cs.length using Nat.strong_induction_on generalizing cs with
  | _ n ih =>
    by_cases h : '\n' ∈ cs
    · obtain ⟨a, b, rfl, ha⟩ := List.eq_append_cons_of_mem h
      have hlt : b.length < n := by
        rw [← hn, List.length_append, List.length_cons]
        omega
      exact line a b ha (ih b.length hlt b rfl)
    · exact last cs h

theorem IsLine.after {b : List Char} (h : IsLine line b) (a : List Char) : IsLine line (a ++ '\n' :: b) := by
  obtain ⟨hwhole, before, after, rfl, hbefore, hafter⟩ := h
  refine ⟨hwhole, a ++ '\n' :: before, after, by simp, fun c hc => ?_, hafter⟩
  cases before with
  | nil => simpa [eq_comm] using hc
  | cons d rest =>
    refine hbefore c ?_
    rw [List.getLast?_append, List.getLast?_cons_cons, List.getLast?_cons, Option.some_or, ← List.getLast?_cons] at hc
    exact hc

/-- The lines are the pieces between the line feeds. -/
theorem mem_splitOn_iff : line ∈ splitOn '\n' cs ↔ IsLine line cs := by
  constructor
  · intro h
    induction cs using line_induction with
    | last cs hcs =>
      rw [splitOn_of_not_mem hcs, List.mem_singleton] at h
      subst h
      exact ⟨hcs, [], [], by simp, by simp, by simp⟩
    | line a b ha ih =>
      rw [splitOn_feed, splitOn_of_not_mem ha] at h
      rcases List.mem_cons.mp h with rfl | h
      · exact ⟨ha, [], '\n' :: b, rfl, by simp, by simp⟩
      · exact (ih h).after a
  · rintro ⟨hwhole, before, after, rfl, hbefore, hafter⟩
    -- what stands after the line adds pieces, and so does what stands before it
    have hline : line ∈ splitOn '\n' (line ++ after) := by
      cases after with
      | nil => rw [List.append_nil, splitOn_of_not_mem hwhole]; exact List.mem_cons_self
      | cons c rest =>
        obtain rfl := hafter c rfl
        rw [splitOn_feed, splitOn_of_not_mem hwhole]
        exact List.mem_cons_self
    rcases List.eq_nil_or_concat before with rfl | ⟨front, c, rfl⟩
    · exact hline
    · obtain rfl := hbefore c (by simp)
      rw [List.concat_eq_append, List.append_assoc, List.singleton_append, splitOn_feed]
      exact List.mem_append_right _ hline

/-! ## the first words of the lines -/

/-- The first words of all lines, in order. -/
def firstWords (cs : List Char) : List (List Char) := (lines cs).filterMap firstWord?

/-- How a line ended makes no difference to its first word, and an empty line has none. -/
theorem firstWords_eq (cs : List Char) : firstWords cs = (splitOn '\n' cs).filterMap firstWord? := by
  have hreturn : firstWord? ∘ dropReturn = firstWord? := funext firstWord?_dropReturn
  obtain ⟨front, last, hpieces⟩ : ∃ front last, splitOn '\n' cs = front ++ [last] := by
    rcases List.eq_nil_or_concat (splitOn '\n' cs) with hnil | ⟨front, last, hconcat⟩
    · exact absurd hnil (splitOn_ne_nil '\n' cs)
    · exact ⟨front, last, hconcat.trans (List.concat_eq_append)⟩
  rw [firstWords, lines, hpieces, List.dropLast_concat, List.getLast?_concat, List.filterMap_append,
    List.filterMap_append, List.filterMap_map, hreturn]
  cases last <;> rfl

theorem mem_firstWords : w ∈ firstWords cs ↔ ∃ line, IsLine line cs ∧ IsFirstWord line w := by
  rw [firstWords_eq, List.mem_filterMap]
  simp only [mem_splitOn_iff, firstWord?_eq_some_iff]

theorem firstWords_feed (a b : List Char) : firstWords (a ++ '\n' :: b) = firstWords a ++ firstWords b := by
  rw [firstWords_eq, firstWords_eq, firstWords_eq, splitOn_feed, List.filterMap_append]

theorem firstWords_blanks {blanks : List Char} (h : ∀ c ∈ blanks, isBlank c = true) (cs : List Char) :
    firstWords (blanks ++ cs) = firstWords cs := by
  induction blanks with
  | nil => rfl
  | cons c blanks ih =>
    rw [← ih fun d hd => h d (List.mem_cons_of_mem c hd), firstWords_eq, firstWords_eq, List.cons_append, splitOn]
    by_cases hc : c = '\n'
    · rw [if_pos hc, List.filterMap_cons_none firstWord?_nil]
    · rw [if_neg hc]
      cases hpieces : splitOn '\n' (blanks ++ cs) with
      | nil => exact absurd hpieces (splitOn_ne_nil _ _)
      | cons p ps => simp only [List.filterMap_cons, firstWord?_cons_blank (h c List.mem_cons_self)]

theorem firstWords_concat_blank {c : Char} (h : isBlank c = true) (cs : List Char) :
    firstWords (cs ++ [c]) = firstWords cs := by
  induction cs using line_induction with
  | last cs hcs =>
    by_cases hc : c = '\n'
    · subst hc
      rw [firstWords_feed]
      exact List.append_nil _
    · have hno : '\n' ∉ cs ++ [c] := by simp [hcs, Ne.symm hc]
      rw [firstWords_eq, firstWords_eq, splitOn_of_not_mem hno, splitOn_of_not_mem hcs, List.filterMap_cons,
        List.filterMap_cons, firstWord?_concat_blank h]
  | line a b _ ih => rw [List.append_assoc, List.cons_append, firstWords_feed, firstWords_feed, ih]

theorem firstWords_append_blanks {blanks : List Char} (h : ∀ c ∈ blanks, isBlank c = true) (cs : List Char) :
    firstWords (cs ++ blanks) = firstWords cs := by
  induction blanks generalizing cs with
  | nil => rw [List.append_nil]
  | cons c blanks ih =>
    rw [← List.singleton_append, ← List.append_assoc, ih (fun d hd => h d (List.mem_cons_of_mem c hd)),
      firstWords_concat_blank (h c List.mem_cons_self)]

end Text

/-! ## the packages of a list -/

theorem Table.contains_ofList {α : Type} (es : List (Key × α)) (key : Key) :
    (ofList es).contains key = true ↔ key ∈ es.map (·.1) := by
  have hfold (acc : Table Key α) : (es.foldl (fun t e => t.insert e.1 e.2) acc).contains key = true
      ↔ key ∈ es.map (·.1) ∨ acc.contains key = true := by
    induction es generalizing acc with
    | nil => simp
    | cons e es ih =>
      have hinsert : (acc.insert e.1 e.2).contains key = true ↔ key = e.1 ∨ acc.contains key = true := by
        rw [contains, contains, get?_insert]
        split <;> simp_all
      rw [List.foldl_cons, ih, hinsert, List.map_cons, List.mem_cons, or_assoc, or_left_comm]
  rw [ofList, hfold]
  exact or_iff_left Bool.false_ne_true

namespace Packages

variable {text : String} {name : String}

/-- The names of all packages. -/
def all (p : Packages) : Set String := {name | name ∈ p.names.keys}

theorem mem_all {p : Packages} : name ∈ p.all ↔ p.isInstalled name = true := Table.contains_iff.symm

theorem ext_isInstalled {p q : Packages} (h : ∀ name, p.isInstalled name = true ↔ q.isInstalled name = true) :
    p = q := by
  have hnames : p.names = q.names := by
    refine Table.ext_get? fun name => ?_
    have hname := h name
    rw [isInstalled, isInstalled, Table.contains, Table.contains] at hname
    cases hp : p.names.get? name <;> cases hq : q.names.get? name <;> simp_all
  cases p
  cases q
  exact congrArg Packages.mk hnames

theorem isInstalled_parse_iff :
    (parse text).isInstalled name = true ↔ name.toList ∈ Text.firstWords text.toList := by
  rw [parse, ofNames, isInstalled, Table.contains_ofList, List.map_map, List.mem_map, Text.firstWords]
  constructor
  · rintro ⟨n, hn, rfl⟩
    obtain ⟨line, hline, hword⟩ := List.mem_filterMap.mp hn
    obtain ⟨w, hw, rfl⟩ := Option.map_eq_some_iff.mp hword
    refine List.mem_filterMap.mpr ⟨line, hline, ?_⟩
    show Text.firstWord? line = some (String.ofList w).toList
    rw [String.toList_ofList, hw]
  · intro h
    obtain ⟨line, hline, hword⟩ := List.mem_filterMap.mp h
    refine ⟨name, List.mem_filterMap.mpr ⟨line, hline, ?_⟩, rfl⟩
    rw [hword, Option.map_some, String.ofList_toList]

theorem isInstalled_parse : (parse text).isInstalled name = true
    ↔ ∃ line, Text.IsLine line text.toList ∧ Text.IsFirstWord line name.toList := by
  rw [isInstalled_parse_iff, Text.mem_firstWords]

theorem parse_congr {s t : String} (h : ∀ w, w ∈ Text.firstWords s.toList ↔ w ∈ Text.firstWords t.toList) :
    parse s = parse t :=
  ext_isInstalled fun name => by rw [isInstalled_parse_iff, isInstalled_parse_iff, h]

theorem toList_feed (a b : String) : (a ++ "\n" ++ b).toList = a.toList ++ '\n' :: b.toList := by
  rw [String.toList_append, String.toList_append, List.append_assoc]
  rfl

theorem all_parse_feed (a b : String) : (parse (a ++ "\n" ++ b)).all = (parse a).all ∪ (parse b).all := by
  ext name
  rw [Set.mem_union, mem_all, mem_all, mem_all, isInstalled_parse_iff, isInstalled_parse_iff, isInstalled_parse_iff,
    toList_feed, Text.firstWords_feed, List.mem_append]

theorem parse_feed_comm (a b : String) : parse (a ++ "\n" ++ b) = parse (b ++ "\n" ++ a) :=
  parse_congr fun w => by
    rw [toList_feed, toList_feed, Text.firstWords_feed, Text.firstWords_feed, List.mem_append, List.mem_append, or_comm]

theorem parse_feed_self (a : String) : parse (a ++ "\n" ++ a) = parse a :=
  parse_congr fun w => by rw [toList_feed, Text.firstWords_feed, List.mem_append, or_self]

/-- Blanks before and after a list, line feeds among them, do not count. -/
theorem parse_blanks {blanks : String} (h : Text.isAllBlank blanks = true) (s : String) :
    parse (blanks ++ s) = parse s ∧ parse (s ++ blanks) = parse s := by
  have hall : ∀ c ∈ blanks.toList, Text.isBlank c = true := List.all_eq_true.mp h
  constructor
  · refine parse_congr fun w => ?_
    rw [String.toList_append, Text.firstWords_blanks hall]
  · refine parse_congr fun w => ?_
    rw [String.toList_append, Text.firstWords_append_blanks hall]

/-- Nor does it count how a line ends. -/
theorem parse_return (a b : String) : parse (a ++ "\r\n" ++ b) = parse (a ++ "\n" ++ b) := by
  have hreturn : (a ++ "\r\n" ++ b).toList = (a.toList ++ ['\r']) ++ '\n' :: b.toList := by
    rw [String.toList_append, String.toList_append, List.append_assoc, List.append_assoc]
    rfl
  refine parse_congr fun w => ?_
  rw [hreturn, toList_feed, Text.firstWords_feed, Text.firstWords_feed, Text.firstWords_concat_blank (by decide)]

/-- **The packages of a list are the first words of its lines.**  Every line that is not blank names one, and no name
is empty or has a blank in it.  A list that consists of two with a line feed between them names what either names; the
order of the lines, lines that come twice, and blanks around them make no difference.  A search hides the pocket mode
setting for want of its package exactly if no line begins with that package's name as a whole word. -/
theorem load_firstWords {path : Path} {disk : Disk} (h : disk.readText path = .ok text) :
    load path disk = .ok (parse text)
      ∧ ((parse text).all = {name | ∃ line, Text.IsLine line text.toList ∧ Text.IsFirstWord line name.toList}
        ∧ (∀ line, Text.IsLine line text.toList → (∃ c ∈ line, Text.isBlank c = false) →
          ∃ name ∈ (parse text).all, Text.IsFirstWord line name.toList)
        ∧ ∀ name ∈ (parse text).all, name ≠ "" ∧ ∀ c ∈ name.toList, Text.isBlank c = false)
      ∧ (∀ name, (parse text).isInstalled name = true
        ↔ ∃ line, Text.IsLine line text.toList ∧ Text.IsFirstWord line name.toList)
      ∧ (∀ b, (parse (text ++ "\n" ++ b)).all = (parse text).all ∪ (parse b).all
        ∧ parse (text ++ "\n" ++ b) = parse (b ++ "\n" ++ text)
        ∧ parse (text ++ "\r\n" ++ b) = parse (text ++ "\n" ++ b))
      ∧ parse (text ++ "\n" ++ text) = parse text
      ∧ (∀ blanks, Text.isAllBlank blanks = true →
        parse (blanks ++ text) = parse text ∧ parse (text ++ blanks) = parse text)
      ∧ ∀ (p : Profile) (d : Disk),
        let others := if p.hasButtons d then [] else p.search.gatedKeys
        (p.hiddenKeys (parse text) d = p.pocket.pocketMode :: others
            ↔ ¬∃ line, Text.IsLine line text.toList ∧ Text.IsFirstWord line p.pocket.package.toList)
          ∧ (p.hiddenKeys (parse text) d = others
            ↔ ∃ line, Text.IsLine line text.toList ∧ Text.IsFirstWord line p.pocket.package.toList) := by
  refine ⟨by rw [load, h], ⟨?_, ?_, ?_⟩, fun name => isInstalled_parse, ?_, parse_feed_self text,
    fun blanks hblanks => parse_blanks hblanks text, ?_⟩
  · ext name
    rw [mem_all, isInstalled_parse]
    rfl
  · intro line hline hsolid
    obtain ⟨w, hw⟩ := Text.exists_firstWord? hsolid
    have hfirst : Text.IsFirstWord line (String.ofList w).toList := by
      rw [String.toList_ofList]
      exact Text.firstWord?_eq_some_iff.mp hw
    exact ⟨.ofList w, mem_all.mpr (isInstalled_parse.mpr ⟨line, hline, hfirst⟩), hfirst⟩
  · intro name hname
    obtain ⟨line, -, hfirst⟩ := isInstalled_parse.mp (mem_all.mp hname)
    exact ⟨fun hempty => hfirst.nonempty (by rw [hempty]; rfl), hfirst.solid⟩
  · exact fun b => ⟨all_parse_feed text b, parse_feed_comm text b, parse_return text b⟩
  · intro p d others
    rw [Profile.hiddenKeys, ← isInstalled_parse]
    cases (parse text).isInstalled p.pocket.package with
    | true => simp [others]
    | false => simp [others]

/-- Two packages: the line of the first ends in a carriage return too, a blank line stands between them, and the line of
the second begins with a blank and goes on to the end of the text. -/
def twoPackages : String := "org.lineageos.pocketmode 10093 0\r\n\n\tcom.android.shell 2000"

def listDisk : Disk := ⟨.ofList [(["packages.list"], .file twoPackages.toUTF8 Disk.fileMode)], []⟩

/-- Both are found, a word later in a line is not, and pocket mode is not hidden for want of its package. -/
theorem load_firstWords_twoPackages :
    listDisk.readText ⟨"packages.list"⟩ = .ok twoPackages
      ∧ load ⟨"packages.list"⟩ listDisk = .ok (parse twoPackages)
      ∧ "com.android.shell" ∈ (parse twoPackages).all ∧ "10093" ∉ (parse twoPackages).all
      ∧ Profile.builtin.hiddenKeys (parse twoPackages) listDisk = ["fp_home", "fp_wakeup"] := by
  have hread : listDisk.readText ⟨"packages.list"⟩ = .ok twoPackages := ok_of_toOption (by decide +kernel)
  obtain ⟨hload, ⟨hall, -, -⟩, -, -, -, -, hhidden⟩ := load_firstWords hread
  have hshell : Text.IsLine "\tcom.android.shell 2000".toList twoPackages.toList :=
    Text.mem_splitOn_iff.mp (by decide +kernel)
  have hpocket : Text.IsLine "org.lineageos.pocketmode 10093 0\r".toList twoPackages.toList :=
    Text.mem_splitOn_iff.mp (by decide +kernel)
  refine ⟨hread, hload, ?_, ?_, ?_⟩
  · rw [hall]
    exact ⟨_, hshell, Text.firstWord?_eq_some_iff.mp (by decide +kernel)⟩
  · rw [mem_all]
    decide +kernel
  · exact (hhidden .builtin listDisk).2.mpr ⟨_, hpocket, Text.firstWord?_eq_some_iff.mp (by decide +kernel)⟩

end Packages

end DeviceSettings

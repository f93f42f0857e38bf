/-!
# Blank characters

The characters of Unicode's `White_Space` property, and what is cut off or split at them: `trim`,
`firstWord?` and `lines`.  Every blank of core's ASCII test is a blank here (`isBlank_of_isWhitespace`).
-/

namespace DeviceSettings.Text

/-- Unicode `White_Space`. -/
def isBlank (c : Char) : Bool :=
  let n := c.toNat
  (9 ≤ n && n ≤ 13) || n == 0x20 || n == 0x85 || n == 0xA0 || n == 0x1680
    || (0x2000 ≤ n && n ≤ 0x200A) || n == 0x2028 || n == 0x2029 || n == 0x202F || n == 0x205F
    || n == 0x3000

theorem isBlank_of_isWhitespace {c : Char} (h : c.isWhitespace = true) : isBlank c = true := by
  simp only [Char.isWhitespace, Bool.or_eq_true, decide_eq_true_eq] at h
  rcases h with ((h | h) | h) | h <;> subst h <;> decide

/-! ## cutting off -/

def trimStart (cs : List Char) : List Char := cs.dropWhile isBlank

def trimEnd (cs : List Char) : List Char := (cs.reverse.dropWhile isBlank).reverse

/-- Text without the blanks at its two ends. -/
def trim (s : String) : String := .ofList (trimEnd (trimStart s.toList))

def isAllBlank (s : String) : Bool := s.toList.all isBlank

/-- The first run of characters that are not blank. -/
def firstWord? (cs : List Char) : Option (List Char) :=
  match (trimStart cs).takeWhile fun c => !isBlank c with
  | [] => none
  | w => some w

/-! ## lines -/

/-- The pieces between occurrences of a character, at least one. -/
def splitOn (sep : Char) : List Char → List (List Char)
  | [] => [[]]
  | c :: cs =>
    if c = sep then [] :: splitOn sep cs
    else match splitOn sep cs with
      | [] => [[c]]
      | p :: ps => (c :: p) :: ps

theorem splitOn_ne_nil (sep : Char) (cs : List Char) : splitOn sep cs ≠ [] := by
  cases cs with
  | nil => simp [splitOn]
  | cons c cs =>
    rw [splitOn]
    split
    · simp
    · split <;> simp

/-- A line that ended in a line feed loses a carriage return before it. -/
def dropReturn (line : List Char) : List Char :=
  match line.reverse with
  | '\r' :: r => r.reverse
  | _ => line

/-- Lines end at a line feed; one without it at the end counts if it holds anything. -/
def lines (cs : List Char) : List (List Char) :=
  let pieces := splitOn '\n' cs
  pieces.dropLast.map dropReturn ++ pieces.getLast?.toList.filter fun l => !l.isEmpty

end DeviceSettings.Text

import DeviceSettings.Json.Number

/-!
# JSON values

Values and their two written forms: `compact` on one line, `pretty` with an entry to a line.  The fields
of an object are written in the order in which they are given.
-/

namespace DeviceSettings.Json

inductive Value
  | null
  | boolean (b : Bool)
  | number (n : Number)
  | text (s : String)
  | list (items : List Value)
  | object (fields : List (String × Value))
deriving Inhabited, Repr

namespace Value

def natural (n : Nat) : Value := .number (.integer n)

/-! ## characters -/

/-- How a character stands inside a string. -/
def escape (c : Char) : List Char :=
  if c = '\x22' then ['\\', '\x22']
  else if c = '\\' then ['\\', '\\']
  else if c = '\n' then ['\\', 'n']
  else if c = '\t' then ['\\', 't']
  else if c = '\r' then ['\\', 'r']
  else if c = '\x08' then ['\\', 'b']
  else if c = '\x0c' then ['\\', 'f']
  else if c.toNat < 32 then ['\\', 'u'] ++ Text.hex false 4 c.toNat
  else [c]

def quote (s : String) : List Char := '\x22' :: s.toList.flatMap escape ++ ['\x22']

def booleanChars (b : Bool) : List Char := (if b then "true" else "false").toList

/-! ## one line -/

mutual

def compactChars : Value → List Char
  | null => "null".toList
  | boolean b => booleanChars b
  | number n => n.text.toList
  | text s => quote s
  | list items => '[' :: compactItems true items
  | object fields => '\x7b' :: compactFields true fields

def compactItems (first : Bool) : List Value → List Char
  | [] => [']']
  | v :: rest => (if first then [] else [',']) ++ v.compactChars ++ compactItems false rest

def compactFields (first : Bool) : List (String × Value) → List Char
  | [] => ['\x7d']
  | (k, v) :: rest =>
    (if first then [] else [',']) ++ quote k ++ ':' :: v.compactChars ++ compactFields false rest

end

def compact (v : Value) : String := .ofList v.compactChars

/-! ## many lines -/

/-- The start of a line at some depth, two blanks to a level. -/
def newLine (depth : Nat) : List Char := '\n' :: List.replicate (2 * depth) ' '

mutual

def prettyChars (depth : Nat) : Value → List Char
  | null => "null".toList
  | boolean b => booleanChars b
  | number n => n.text.toList
  | text s => quote s
  | list [] => ['[', ']']
  | list items => '[' :: prettyItems (depth + 1) true items ++ newLine depth ++ [']']
  | object [] => ['\x7b', '\x7d']
  | object fields => '\x7b' :: prettyFields (depth + 1) true fields ++ newLine depth ++ ['\x7d']

def prettyItems (depth : Nat) (first : Bool) : List Value → List Char
  | [] => []
  | v :: rest =>
    (if first then [] else [',']) ++ newLine depth ++ v.prettyChars depth
      ++ prettyItems depth false rest

def prettyFields (depth : Nat) (first : Bool) : List (String × Value) → List Char
  | [] => []
  | (k, v) :: rest =>
    (if first then [] else [',']) ++ newLine depth ++ quote k ++ [':', ' '] ++ v.prettyChars depth
      ++ prettyFields depth false rest

end

def pretty (v : Value) : String := .ofList (v.prettyChars 0)

end Value

end DeviceSettings.Json

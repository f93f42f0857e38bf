import DeviceSettings.Text.Blank
import DeviceSettings.Text.Numeral

/-!
# Timestamps

Moments of the Gregorian calendar in universal time.  `Timestamp.parse?` reads the RFC 3339 form and
its usual relaxations (a space for the `T`, blanks between the fields, an offset without its colon);
`Timestamp.text` writes it with a `Z` and as few groups of three fraction digits as hold the fraction.
-/

namespace DeviceSettings

structure Date where
  year : Int
  month : Nat
  day : Nat
deriving DecidableEq, Repr, Inhabited

/-- A moment in universal time; a leap second is second 60. -/
structure Timestamp where
  date : Date
  hour : Nat
  minute : Nat
  second : Nat
  nano : Nat
deriving DecidableEq, Repr, Inhabited

namespace Date

def isLeapYear (y : Int) : Bool := y % 4 == 0 && (y % 100 != 0 || y % 400 == 0)

def daysInMonth (y : Int) : Nat → Nat
  | 2 => if isLeapYear y then 29 else 28
  | 4 | 6 | 9 | 11 => 30
  | _ => 31

/-- The calendar's years. -/
def leastYear : Int := -262143
def greatestYear : Int := 262142

def isValid (d : Date) : Bool :=
  1 ≤ d.month && d.month ≤ 12 && 1 ≤ d.day && d.day ≤ daysInMonth d.year d.month
    && leastYear ≤ d.year && d.year ≤ greatestYear

def next (d : Date) : Date :=
  if d.day < daysInMonth d.year d.month then { d with day := d.day + 1 }
  else if d.month < 12 then ⟨d.year, d.month + 1, 1⟩
  else ⟨d.year + 1, 1, 1⟩

def previous (d : Date) : Date :=
  if 1 < d.day then { d with day := d.day - 1 }
  else if 1 < d.month then ⟨d.year, d.month - 1, daysInMonth d.year (d.month - 1)⟩
  else ⟨d.year - 1, 12, 31⟩

/-- Years of one to four digits are filled up to four; all others carry their sign. -/
def yearText (y : Int) : String :=
  if 0 ≤ y && y ≤ 9999 then Text.padded 4 y.toNat
  else (if y < 0 then "-" else "+") ++ Text.padded 4 y.natAbs

def text (d : Date) : String :=
  yearText d.year ++ "-" ++ Text.padded 2 d.month ++ "-" ++ Text.padded 2 d.day

end Date

namespace Timestamp

/-! ## writing -/

/-- The fraction of a second in nothing, three, six or nine digits. -/
def fraction (nano : Nat) : String :=
  if nano = 0 then ""
  else if nano % 1000000 = 0 then "." ++ Text.padded 3 (nano / 1000000)
  else if nano % 1000 = 0 then "." ++ Text.padded 6 (nano / 1000)
  else "." ++ Text.padded 9 nano

def clock (t : Timestamp) : String :=
  Text.padded 2 t.hour ++ ":" ++ Text.padded 2 t.minute ++ ":" ++ Text.padded 2 t.second

def text (t : Timestamp) : String :=
  t.date.text ++ "T" ++ t.clock ++ fraction t.nano ++ "Z"

/-- Date and time of day to the second, for people. -/
def display (t : Timestamp) : String := t.date.text ++ " " ++ t.clock ++ " UTC"

/-! ## reading -/

open Text (trimStart isDigit digits?)

/-- At most `max` digits and at least one, with what follows them. -/
def number? (max : Nat) (cs : List Char) : Option (Nat × List Char) :=
  let ds := (cs.take max).takeWhile isDigit
  (digits? 10 ds).map fun n => (n, cs.drop ds.length)

/-- A field of two digits at most, after blanks. -/
def field? (cs : List Char) : Option (Nat × List Char) := number? 2 (trimStart cs)

/-- A year is four digits at most, or a sign and any digits. -/
def year? (cs : List Char) : Option (Int × List Char) :=
  match trimStart cs with
  | '-' :: r => (number? r.length r).map fun (n, r) => (-(n : Int), r)
  | '+' :: r => (number? r.length r).map fun (n, r) => ((n : Int), r)
  | r => (number? 4 r).map fun (n, r) => ((n : Int), r)

/-- A separator, after blanks. -/
def separator? (c : Char) (cs : List Char) : Option (List Char) :=
  match trimStart cs with
  | d :: r => if d = c then some r else none
  | [] => none

/-- Nine digits after the point count; any after those are passed over. -/
def fraction? : List Char → Option (Nat × List Char)
  | '.' :: r => do
    let (n, rest) ← number? 9 r
    let used := r.length - rest.length
    some (n * Nat.pow 10 (9 - used), rest.dropWhile isDigit)
  | cs => some (0, cs)

/-- An offset from universal time, in minutes. -/
def offset? (cs : List Char) : Option (Int × List Char) :=
  match cs with
  | 'Z' :: r | 'z' :: r => some (0, r)
  | c :: r =>
    if c = '+' || c = '-' || c = '\u2212' then
      match r with
      | h₁ :: h₂ :: r => do
        let hours ← digits? 10 [h₁, h₂]
        match r.dropWhile fun c => c == ':' || Text.isBlank c with
        | m₁ :: m₂ :: r =>
          let minutes ← digits? 10 [m₁, m₂]
          if minutes < 60 then
            let n : Int := hours * 60 + minutes
            some (if c = '+' then n else -n, r)
          else none
        | _ => none
      | _ => none
    else none
  | [] => none

/-- The zone at the end of a timestamp: `UTC` in any case, or an offset. -/
def zone? (cs : List Char) : Option (Int × List Char) :=
  if (cs.take 3).map Char.toUpper = ['U', 'T', 'C'] then some (0, cs.drop 3) else offset? cs

/-- The moment in universal time of a local time of day with its offset. -/
def toUniversal (d : Date) (hour minute second nano : Nat) (offset : Int) : Timestamp :=
  let m : Int := hour * 60 + minute - offset
  let date := if m < 0 then d.previous else if 1440 ≤ m then d.next else d
  let m := (m % 1440).toNat
  ⟨date, m / 60, m % 60, second, nano⟩

def parse? (s : String) : Option Timestamp := do
  let (year, cs) ← year? s.toList
  let cs ← separator? '-' cs
  let (month, cs) ← field? cs
  let cs ← separator? '-' cs
  let (day, cs) ← field? cs
  let cs ← match cs with
    | c :: r => if c = 'T' || c = 't' || c = ' ' then some r else none
    | [] => none
  let (hour, cs) ← field? cs
  let cs ← separator? ':' cs
  let (minute, cs) ← field? cs
  let cs ← separator? ':' cs
  let (second, cs) ← field? cs
  let (nano, cs) ← fraction? cs
  let (offset, cs) ← zone? (trimStart cs)
  let date : Date := ⟨year, month, day⟩
  let t := toUniversal date hour minute second nano offset
  if (trimStart cs).isEmpty && date.isValid && hour < 24 && minute < 60 && second ≤ 60
      && -1440 < offset && offset < 1440 && t.date.isValid then some t else none

end Timestamp

end DeviceSettings

import DeviceSettings.Text.Binary64

/-!
# JSON numbers

A number without a fraction or an exponent is an integer if it fits 64 bits; all others are doubles.  A
double is found from the first digits that fit an unsigned word and a power of ten, each step rounded on
its own, so it may differ from the nearest one in the last place.
-/

namespace DeviceSettings.Json

open Text (Binary64 digits? digit?)

inductive Number
  | integer (n : Int)
  | float (x : Binary64)
deriving DecidableEq, Repr, Inhabited

/-- A number as written: sign, digits before and after the point, and the exponent if there is one. -/
structure Literal where
  negative : Bool
  whole : List Char
  fraction : List Char
  exponent : Option (Bool × List Char)
deriving Repr

namespace Number

/-- the words that integers fit -/
def wordLimit : Nat := Nat.pow 2 64
def signedLimit : Nat := Nat.pow 2 63

/-- Takes digits into a word while it holds them; the digits that no longer fit are returned. -/
def fillWord (word : Nat) : List Char → Nat × List Char
  | [] => (word, [])
  | c :: cs =>
    let next := word * 10 + (digit? 10 c).getD 0
    if next < wordLimit then fillWord next cs else (word, c :: cs)

/-- the greatest power of ten of a double -/
def greatestPower : Nat := 308

/-- A word times a power of ten, as doubles. -/
def scaled? (fuel : Nat) (x : Binary64) (power : Int) : Option Binary64 :=
  if power.natAbs ≤ greatestPower then do
    let ten ← Binary64.ofDecimal? false 1 power.natAbs
    if 0 ≤ power then x.mul? ten else x.div? ten
  else if x.mantissa = 0 then some x
  else if 0 ≤ power then none
  else match fuel with
    | 0 => some (.zero false)
    | fuel + 1 => do
      let ten ← Binary64.ofDecimal? false 1 greatestPower
      scaled? fuel (← x.div? ten) (power + greatestPower)

/-- the exponents that are read as such -/
def exponentLimit : Nat := Nat.pow 2 31

def float? (l : Literal) : Option Number := do
  let (word, dropped) := fillWord 0 l.whole
  let (word, unread) := fillWord word l.fraction
  let power : Int := (dropped.length : Int) - (l.fraction.length - unread.length)
  let x ← match l.exponent with
    | none => do scaled? 10 (← Binary64.ofRatio? false word 1) power
    | some (minus, ds) =>
      let n := (digits? 10 ds).getD 0
      if exponentLimit ≤ n then
        if word ≠ 0 && !minus then none else some (.zero false)
      else do scaled? 10 (← Binary64.ofRatio? false word 1) (if minus then power - n else power + n)
  some (.float { x with negative := l.negative })

/-- The value of a literal, unless it is too large for a double. -/
def ofLiteral? (l : Literal) : Option Number :=
  if l.fraction.isEmpty && l.exponent.isNone then
    let n := (digits? 10 l.whole).getD 0
    if l.negative then
      if 0 < n && n ≤ signedLimit then some (.integer (-n)) else float? l
    else if n < wordLimit then some (.integer n) else float? l
  else float? l

def text : Number → String
  | integer n => toString n
  | float x => x.text

end Number

end DeviceSettings.Json

import DeviceSettings.Text.Numeral

/-!
# Double-precision numbers and their shortest decimal text

A finite double is `± mantissa · 2 ^ exponent`.  `ofRatio?` rounds a fraction to the nearest double,
a tie to the even mantissa; `shortest` finds the fewest decimal digits that round back to it.  Both
work in exact natural-number arithmetic.
-/

namespace DeviceSettings.Text

/-- A finite double: `mantissa < 2 ^ 53`, and at least `2 ^ 52` unless the exponent is the least. -/
structure Binary64 where
  negative : Bool
  mantissa : Nat
  exponent : Int
deriving DecidableEq, Repr, Inhabited

namespace Binary64

def leastExponent : Int := -1074
def greatestExponent : Int := 971

def zero (negative : Bool) : Binary64 := ⟨negative, 0, leastExponent⟩

/-- A fraction rounded to the nearest natural number, a tie to the even one. -/
def roundRatio (num den : Nat) : Nat :=
  let q := num / den
  let r := num % den
  if den < 2 * r || (den == 2 * r && q % 2 == 1) then q + 1 else q

/-- A fraction times a power of a base. -/
def scale (base : Nat) (e : Int) (num den : Nat) : Nat × Nat :=
  if 0 ≤ e then (num * base.pow e.toNat, den) else (num, den * base.pow (-e).toNat)

/-- the mantissas of 53 bits -/
def mantissaLimit : Nat := Nat.pow 2 53

/-- The double nearest to a fraction, unless it is too large. -/
def ofRatio? (negative : Bool) (num den : Nat) : Option Binary64 :=
  if num = 0 || den = 0 then some (zero negative) else
  let guess := max leastExponent ((num.log2 : Int) - den.log2 - 53)
  let (n, d) := scale 2 (-guess) num den
  let e := if mantissaLimit ≤ n / d then guess + 1 else guess
  let (n, d) := scale 2 (-e) num den
  let m := roundRatio n d
  let (m, e) := if m = mantissaLimit then (mantissaLimit / 2, e + 1) else (m, e)
  if e > greatestExponent then none else some ⟨negative, m, e⟩

/-- The size of a double as a fraction. -/
def ratio (x : Binary64) : Nat × Nat := scale 2 x.exponent x.mantissa 1

/-- The double nearest to `digits · 10 ^ power`. -/
def ofDecimal? (negative : Bool) (digits : Nat) (power : Int) : Option Binary64 :=
  let (num, den) := scale 10 power digits 1
  ofRatio? negative num den

/-! ## products and quotients -/

def mul? (x y : Binary64) : Option Binary64 :=
  let (a, b) := x.ratio
  let (c, d) := y.ratio
  ofRatio? (x.negative != y.negative) (a * c) (b * d)

def div? (x y : Binary64) : Option Binary64 :=
  let (a, b) := x.ratio
  let (c, d) := y.ratio
  ofRatio? (x.negative != y.negative) (a * d) (b * c)

/-! ## the shortest decimal -/

/-- The power of ten that is not above a positive fraction, with the next one above it. -/
def leadingPower (num den : Nat) : Int :=
  let guess : Int := ((num.log2 : Int) - den.log2) * 30103 / 100000 - 1
  let fits (p : Int) : Bool :=
    let (n, d) := scale 10 (-p) num den
    d ≤ n
  if fits (guess + 2) then guess + 2 else if fits (guess + 1) then guess + 1 else guess

/-- Digits and power of ten of the shortest decimal that rounds to the double; of two of that length
the nearer one. -/
def shortest (x : Binary64) : Nat × Int :=
  let (num, den) := x.ratio
  if num = 0 then (0, 0) else
  let lead := leadingPower num den
  let attempt (n : Nat) : Option (Nat × Int) :=
    let p := lead - n
    let (a, b) := scale 10 (-p) num den
    let low := a / b
    let near := roundRatio a b
    let far := if near = low then low + 1 else low
    let ok (k : Nat) : Bool := ofDecimal? x.negative k p == some x
    if ok near then some (near, p) else if ok far then some (far, p) else none
  ((List.range 17).findSome? attempt).getD (num / den, 0)

/-- The shortest decimal without trailing zeros in its digits. -/
def trimZeros (fuel : Nat) (d : Nat) (p : Int) : Nat × Int :=
  match fuel with
  | 0 => (d, p)
  | fuel + 1 => if d ≠ 0 && d % 10 = 0 then trimZeros fuel (d / 10) (p + 1) else (d, p)

/-- Digits and power of ten, with the last digit not zero. -/
def decimal (x : Binary64) : Nat × Int :=
  let (d, p) := x.shortest
  trimZeros 400 d p

def sign (x : Binary64) : String := if x.negative then "-" else ""

/-- Positional text with a point: `12.5`, `100.0`, `0.001`. -/
def positional (x : Binary64) : String :=
  let (d, p) := x.decimal
  let ds := toString d
  if 0 ≤ p then
    x.sign ++ ds ++ .ofList (List.replicate (if d = 0 then 0 else p.toNat) '0') ++ ".0"
  else
    let k := (-p).toNat
    let body :=
      if k < ds.length then
        .ofList (ds.toList.take (ds.length - k)) ++ "." ++ .ofList (ds.toList.drop (ds.length - k))
      else "0." ++ .ofList (List.replicate (k - ds.length) '0') ++ ds
    x.sign ++ body

/-- Positional text while the leading digit stands from `10 ^ -5` up to `10 ^ 15`, else with an
exponent: `1e16`, `1.5e-7`. -/
def text (x : Binary64) : String :=
  let (d, p) := x.decimal
  let ds := toString d
  let point : Int := ds.length + p
  if d = 0 || (-5 < point && point ≤ 16) then x.positional
  else
    let head := .ofList (ds.toList.take 1)
    let tail := .ofList (ds.toList.drop 1)
    x.sign ++ head ++ (if tail = "" then "" else "." ++ tail) ++ "e" ++ toString (point - 1)

end Binary64

end DeviceSettings.Text

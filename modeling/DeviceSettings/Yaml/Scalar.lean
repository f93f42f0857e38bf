import DeviceSettings.Document.Reader
import DeviceSettings.Text.Binary64
import DeviceSettings.Yaml.Token

/-!
# YAML scalars

What a scalar stands for.  Plain scalars are null, booleans or numbers if they are spelled like one
(`resolve`); all others are text.  A number does not begin with a zero that it does not need.
-/

namespace DeviceSettings.Yaml

open Document
open Text (digits? isDigit)

structure Scalar where
  text : String
  style : Style
  tag : Option String
deriving DecidableEq, Repr, Inhabited

/-! ## spellings -/

def isNullText (s : String) : Bool := ["null", "Null", "NULL", "~"].contains s

def boolean? (s : String) : Option Bool :=
  if ["true", "True", "TRUE"].contains s then some true
  else if ["false", "False", "FALSE"].contains s then some false
  else none

def isSign (c : Char) : Bool := c == '+' || c == '-'

def dropSign : List Char → List Char
  | c :: r => if isSign c then r else c :: r
  | [] => []

/-- Digits only, but more than one and with a zero in front. -/
def isZeroFilled (cs : List Char) : Bool :=
  match dropSign cs with
  | '0' :: r => !r.isEmpty && r.all isDigit
  | _ => false

/-- Digits after the mark of their radix. -/
def marked? : List Char → Option Nat
  | '0' :: 'x' :: r => digits? 16 r
  | '0' :: 'o' :: r => digits? 8 r
  | '0' :: 'b' :: r => digits? 2 r
  | _ => none

/-- A natural number; a plus may stand before it. -/
def natural? (cs : List Char) : Option Nat :=
  let body := match cs with
    | '+' :: r => r
    | cs => cs
  match marked? body with
  | some n => some n
  | none => if isZeroFilled cs then none else digits? 10 body

/-- A number with a minus. -/
def negative? : List Char → Option Int
  | '-' :: body =>
    match marked? body with
    | some n => some (-(n : Int))
    | none => if isZeroFilled ('-' :: body) then none else (digits? 10 body).map fun n => -(n : Int)
  | _ => none

/-- the integers of 64 bits, and of 128 -/
def wordLimit : Nat := Nat.pow 2 64
def wideLimit : Nat := Nat.pow 2 128

def integer? (cs : List Char) : Option Int :=
  match natural? cs with
  | some n => if n < wideLimit then some n else none
  | none => (negative? cs).bind fun n => if -(wideLimit / 2 : Int) ≤ n then some n else none

/-- The digits of a decimal and its power of ten: `1.5e3`, `.5`, `1.`. -/
def decimal? (cs : List Char) : Option (Nat × Int) := do
  let whole := cs.takeWhile isDigit
  let rest := cs.drop whole.length
  let (fraction, rest) := match rest with
    | '.' :: r => (r.takeWhile isDigit, r.dropWhile isDigit)
    | r => ([], r)
  let ds ← digits? 10 (whole ++ fraction)
  let power ← match rest with
    | [] => some (0 : Int)
    | c :: r =>
      if c = 'e' || c = 'E' then
        match r with
        | '-' :: r => (digits? 10 r).map fun n => -(n : Int)
        | '+' :: r => (digits? 10 r).map fun n => (n : Int)
        | r => (digits? 10 r).map fun n => (n : Int)
      else none
  some (ds, power - fraction.length)

/-- exponents outside of these give no finite number but zero -/
def widestPower : Int := 5000

/-- A finite decimal with its sign, as a double. -/
def finite? (negative : Bool) (cs : List Char) : Option Text.Binary64 := do
  let (ds, power) ← decimal? cs
  if ds = 0 || power + cs.length < -widestPower then some (.zero negative)
  else if widestPower < power then none
  else Text.Binary64.ofDecimal? negative ds power

/-- A floating point number, as it is shown. -/
def float? (cs : List Char) : Option String :=
  let (negative, body) := match cs with
    | '-' :: r => (true, r)
    | '+' :: r => (false, r)
    | cs => (false, cs)
  let word := String.ofList body
  if [".inf", ".Inf", ".INF"].contains word then some (if negative then "-inf" else "inf")
  else if [".nan", ".NaN", ".NAN"].contains word && !cs.head?.any isSign then some "NaN"
  else (finite? negative body).map (·.positional)

/-- What a plain scalar stands for. -/
def resolve (s : String) : Found :=
  let cs := s.toList
  if s = "" || isNullText s then .unit
  else match boolean? s with
  | some b => .boolean b
  | none =>
    match integer? cs with
    | some n =>
      if -(wordLimit / 2 : Int) ≤ n && n < wordLimit then .integer n else .wideInteger n
    | none =>
      if isZeroFilled cs then .text s
      else match float? cs with
      | some x => .float x
      | none => .text s

/-! ## tags -/

def standard (name : String) : String := "tag:yaml.org,2002:" ++ name

/-- Is a tag one of the document's own? -/
def isOwnTag (tag : String) : Bool := tag.toList.head? == some '!'

/-- What a tagged text stands for, if the tag is one of the standard ones. -/
def resolveTagged (tag : String) (s : String) : Except Mismatch (Option Found) :=
  let expect (what : String) (f : Option Found) : Except Mismatch (Option Found) :=
    match f with
    | some f => .ok (some f)
    | none => .error (.wrongValue (.text s) what)
  if tag = standard "bool" then expect "a boolean" ((boolean? s).map .boolean)
  else if tag = standard "int" then
    expect "an integer" ((integer? s.toList).map fun n =>
      if -(wordLimit / 2 : Int) ≤ n && n < wordLimit then .integer n else .wideInteger n)
  else if tag = standard "float" then expect "a float" ((float? s.toList).map .float)
  else if tag = standard "null" then expect "null" (if isNullText s then some .unit else none)
  else .ok none

namespace Scalar

/-- What a scalar stands for, its own tag apart. -/
def found (s : Scalar) : Except Mismatch Found :=
  match s.tag with
  | some tag =>
    match resolveTagged tag s.text with
    | .ok (some f) => .ok f
    | .ok none =>
      .ok (if isOwnTag tag && s.style = .plain then resolve s.text else .text s.text)
    | .error m => .error m
  | none => .ok (if s.style = .plain then resolve s.text else .text s.text)

/-- What a scalar stands for. -/
def any (s : Scalar) : Except Mismatch Found :=
  if s.tag.any isOwnTag then .ok .enumeration else s.found

/-- Is the scalar written as a value of a type with a standard tag is? -/
def isWrittenAs (tag : String) (s : Scalar) : Bool :=
  s.style == .plain || (s.style == .literal && s.tag == some (standard tag))

def boolean? (s : Scalar) : Option Bool :=
  if s.isWrittenAs "bool" then Yaml.boolean? s.text else none

/-- A natural number of 64 bits. -/
def integer? (s : Scalar) : Option Int :=
  if s.isWrittenAs "int" then
    (natural? s.text.toList).bind fun n => if n < wordLimit then some (n : Int) else none
  else none

def isNull (s : Scalar) : Except Mismatch Bool :=
  if s.style ≠ .plain then .ok false
  else match s.tag with
  | some tag =>
    if tag = standard "null" then
      if isNullText s.text then .ok true else .error (.wrongValue (.text s.text) "null")
    else .ok false
  | none => .ok (s.text == "" || isNullText s.text)

end Scalar

/-- How a YAML document is read. -/
def dialect : Dialect Scalar where
  levels := 128
  located := true
  textKeys := false
  text? s := .ok (some s.text)
  boolean? := Scalar.boolean?
  integer? s := .ok s.integer?
  isNull := Scalar.isNull
  isEmpty s := s.style == .plain && s.text == ""
  found := Scalar.found
  any := Scalar.any
  surplus _ total := .wrongLength total ("sequence of " ++ elements total)

end DeviceSettings.Yaml

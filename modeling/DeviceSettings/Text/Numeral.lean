/-!
# Numerals

Digits in a radix, read and written.  `digits?` refuses the empty run and every character that is
not a digit of the radix.
-/

namespace DeviceSettings.Text

/-- The value of a digit in a radix up to 36, in either case. -/
def digit? (radix : Nat) (c : Char) : Option Nat :=
  let n := c.toNat
  let v :=
    if 48 ≤ n && n ≤ 57 then n - 48
    else if 97 ≤ n && n ≤ 122 then n - 87
    else if 65 ≤ n && n ≤ 90 then n - 55
    else radix
  if v < radix then some v else none

def isDigit (c : Char) : Bool := (digit? 10 c).isSome

/-- The value of digits read from left to right, on top of `acc`. -/
def digitsFrom (radix acc : Nat) : List Char → Option Nat
  | [] => some acc
  | c :: cs => (digit? radix c).bind fun d => digitsFrom radix (acc * radix + d) cs

/-- The value of one digit or more. -/
def digits? (radix : Nat) : List Char → Option Nat
  | [] => none
  | cs => digitsFrom radix 0 cs

def hexChar (upper : Bool) (d : Nat) : Char :=
  Char.ofNat (if d < 10 then 48 + d else (if upper then 55 else 87) + d)

/-- The last `width` hexadecimal digits of a number. -/
def hex (upper : Bool) (width n : Nat) : List Char :=
  (List.range width).reverse.map fun i => hexChar upper (n / Nat.pow 16 i % 16)

/-- Decimal digits, filled up with zeros on the left to a width. -/
def padded (width n : Nat) : String :=
  let s := toString n
  .ofList (List.replicate (width - s.length) '0') ++ s

end DeviceSettings.Text

import ComponentAssembly.Text.Decimal

/-!
JSON numbers: how they are read as integers or doubles, and how doubles are written.

Digits are collected in a natural of 64 bits; those that do not fit count as zeros before the point
and are dropped after it.  A double is the significand, rounded, times a rounded power of ten, so
that it need not be the double that is nearest to the decimal.
-/

namespace ComponentAssembly.Json

open Text (Double)

/-- A number of a JSON text. -/
inductive Number where
  | integer (value : Int)
  | float (value : Double)
deriving DecidableEq, Inhabited

/-! ## Doubles -/

/-- The greatest power of ten that a step scales by. -/
def greatestPower : Nat := 308

/-- A double times a power of ten or, for a negative exponent, divided by one.  The power is a
double itself. -/
def scaleOnce (d : Double) (exponent : Int) : Double :=
  match d with
  | .finite negative .. =>
    let power := (Double.nearest false 1 exponent.natAbs).magnitude
    .ofFraction negative
      (if exponent < 0 then d.magnitude.div power else d.magnitude.mul power)
  | d => d

/-- A double times a power of ten.  What is too small for one step is scaled in several, each of
which rounds; what is too great is beyond all doubles. -/
def scale (d : Double) (exponent : Int) : Double :=
  if d.isNonzero then
    if exponent < -greatestPower then
      scale (scaleOnce d (-greatestPower)) (exponent + greatestPower)
    else if exponent ≤ greatestPower then scaleOnce d exponent
    else .infinite false
  else d
termination_by (-exponent).toNat
decreasing_by simp only [greatestPower] at *; omega

/-! ## Reading -/

/-- Appends digits to a significand as long as it fits 64 bits, and gives those that are left. -/
def append (significand : Nat) : List Char → Nat × List Char
  | [] => (significand, [])
  | c :: rest =>
    let next := significand * 10 + (c.toNat - 48)
    if next < Nat.pow 2 64 then append next rest else (significand, c :: rest)

/-- The double of the parts of a number. -/
def floatOf (negative : Bool) (whole fraction : List Char) (exponent : Int) : Double :=
  let (significand, unread) := append 0 whole
  let (significand, dropped) := append significand fraction
  let places : Int := fraction.length - dropped.length
  scale (.nearest negative significand 0) (exponent + unread.length - places)

/-- A number from its parts: an integer if it is written as one and fits 64 bits. -/
def numberOf (negative : Bool) (whole fraction : List Char) (exponent : Option Int) : Number :=
  let n : Int := Text.digitsValue whole
  if fraction.isEmpty && exponent.isNone && !(negative && n = 0)
      && (if negative then n ≤ Nat.pow 2 63 else n < Nat.pow 2 64) then
    .integer (if negative then -n else n)
  else .float (floatOf negative whole fraction (exponent.getD 0))

/-- The digits of an exponent after its letter, and what follows. -/
def readExponent (cs : List Char) : Option (Int × List Char) :=
  let (negative, cs) := match cs with
    | '-' :: rest => (true, rest)
    | '+' :: rest => (false, rest)
    | rest => (false, rest)
  match Text.spanDigits cs with
  | ([], _) => none
  | (ds, rest) =>
    let n : Int := Text.digitsValue ds
    some (if negative then -n else n, rest)

/-- The digits after a point, if there is one, and what follows. -/
def readFraction : List Char → Option (List Char × List Char)
  | '.' :: rest =>
    match Text.spanDigits rest with
    | ([], _) => none
    | (ds, rest) => some (ds, rest)
  | rest => some ([], rest)

/-- A number after its sign, and what follows.  No zero stands in front of other digits. -/
def readNumber (negative : Bool) (cs : List Char) : Option (Number × List Char) := do
  let (whole, rest) := Text.spanDigits cs
  if whole.isEmpty || (whole.length ≠ 1 && whole.head? = some '0') then none
  let (fraction, rest) ← readFraction rest
  match rest with
  | 'e' :: rest =>
    let (e, rest) ← readExponent rest
    return (numberOf negative whole fraction (some e), rest)
  | 'E' :: rest =>
    let (e, rest) ← readExponent rest
    return (numberOf negative whole fraction (some e), rest)
  | rest => return (numberOf negative whole fraction none, rest)

/-! ## Writing -/

/-- Digits with a point after the first, and a power of ten with its sign. -/
def scientific (digits : List Char) (exponent : Int) : String :=
  let mantissa := match digits with
    | first :: c :: rest => first :: '.' :: c :: rest
    | digits => digits
  String.ofList mantissa ++ "e" ++ (if exponent < 0 then "-" else "+") ++ toString exponent.natAbs

/-- The text of digits and the power of ten of the last.  It is positional if the point comes after
one of the first sixteen digits, or at most four zeros before the first. -/
def decimalText (digits : Nat) (exponent : Int) : String :=
  let ds := Nat.toDigits 10 digits
  let point := ds.length + exponent
  if -5 < point && point ≤ 16 then
    Double.positional digits exponent ++ (if 0 ≤ exponent then ".0" else "")
  else scientific ds (point - 1)

/-- The text of a double, with the fewest digits that read back; it never looks like an integer. -/
def floatText : Double → String
  | .finite negative m q =>
    let (digits, exponent) := Double.decimal m q
    (if negative then "-" else "") ++ decimalText digits exponent
  | d => d.text

end ComponentAssembly.Json

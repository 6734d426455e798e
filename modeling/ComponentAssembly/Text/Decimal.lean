/-!
Decimals and doubles: reading a decimal as the nearest double, and writing a double with the
fewest digits that read back as it.

A positive double is a significand times a power of two.  A decimal is exact: digits times a
power of ten.  All comparisons are made between fractions of naturals.
-/

namespace ComponentAssembly.Text

/-- A double, or one of the values beyond all numbers. -/
inductive Double where
  | finite (negative : Bool) (significand : Nat) (exponent : Int)
  | infinite (negative : Bool)
  | undefined
deriving DecidableEq, Inhabited

/-- A fraction of naturals. -/
structure Fraction where
  num : Nat
  den : Nat

namespace Fraction

/-- A natural times a power of a base. -/
def scaled (n base : Nat) (exponent : Int) : Fraction :=
  if 0 ≤ exponent then ⟨n * base.pow exponent.toNat, 1⟩ else ⟨n, base.pow (-exponent).toNat⟩

def le (a b : Fraction) : Bool := a.num * b.den ≤ b.num * a.den

def mul (a b : Fraction) : Fraction := ⟨a.num * b.num, a.den * b.den⟩

def div (a b : Fraction) : Fraction := ⟨a.num * b.den, a.den * b.num⟩

def shift (a : Fraction) (base : Nat) (exponent : Int) : Fraction :=
  if 0 ≤ exponent then ⟨a.num * base.pow exponent.toNat, a.den⟩
  else ⟨a.num, a.den * base.pow (-exponent).toNat⟩

/-- The nearest natural; a half goes to the even neighbour. -/
def round (a : Fraction) : Nat :=
  let q := a.num / a.den
  let r := 2 * (a.num % a.den)
  if r < a.den then q
  else if a.den < r then q + 1
  else if q % 2 = 0 then q else q + 1

/-- The exponent of the greatest power of two that is at most a positive fraction. -/
def log2 (a : Fraction) : Int :=
  let guess : Int := (a.num.log2 : Int) - a.den.log2
  if (scaled 1 2 guess).le a then guess else guess - 1

/-- The exponent of the greatest power of ten that is at most a positive fraction below one. -/
def smallLog10 (a : Fraction) : Nat → Int
  | 0 => 0
  | fuel + 1 => if a.den ≤ a.num then 0 else smallLog10 ⟨a.num * 10, a.den⟩ fuel - 1

/-- The exponent of the greatest power of ten that is at most a positive fraction. -/
def log10 (a : Fraction) : Int :=
  if a.den ≤ a.num then ((Nat.toDigits 10 (a.num / a.den)).length : Int) - 1
  else smallLog10 a 400

end Fraction

namespace Double

/-- The least exponent of a double. -/
def leastExponent : Int := -1074

/-- The double nearest to a fraction. -/
def ofFraction (negative : Bool) (v : Fraction) : Double :=
  if v.num = 0 then finite negative 0 0
  else
    let q := max leastExponent (v.log2 - 52)
    let m := (v.shift 2 (-q)).round
    if m = 0 then finite negative 0 0
    else if Fraction.le (.scaled 1 2 1024) (.scaled m 2 q) then infinite negative
    else if m = Nat.pow 2 53 then finite negative (Nat.pow 2 52) (q + 1)
    else finite negative m q

/-- The double nearest to digits times a power of ten. -/
def nearest (negative : Bool) (digits : Nat) (exponent : Int) : Double :=
  let size := ((Nat.toDigits 10 digits).length : Int) + exponent
  if digits = 0 || size < -400 then finite negative 0 0
  else if 400 < size then infinite negative
  else ofFraction negative (.scaled digits 10 exponent)

/-- The magnitude of a finite double. -/
def magnitude : Double → Fraction
  | finite _ m q => .scaled m 2 q
  | infinite _ => ⟨0, 1⟩
  | undefined => ⟨0, 1⟩

/-- Whether a decimal reads back as the double of a significand and an exponent. -/
def readsBack (m : Nat) (q : Int) (c : Fraction) : Bool :=
  let low : Fraction :=
    if m = Nat.pow 2 52 && leastExponent < q then .scaled (4 * m - 1) 2 (q - 2)
    else .scaled (2 * m - 1) 2 (q - 1)
  let high : Fraction := .scaled (2 * m + 1) 2 (q - 1)
  if m % 2 = 0 then low.le c && c.le high else !c.le low && !high.le c

/-- The decimal of so many digits that reads back and is nearest, if there is one: its digits and
the power of ten of the last. -/
def decimalOf (m : Nat) (q : Int) (places : Nat) : Option (Nat × Int) :=
  let v := Fraction.scaled m 2 q
  let k := v.log10 - places + 1
  let scaled := v.shift 10 (-k)
  let below := scaled.num / scaled.den
  let hits := [below, below + 1].filter fun c => readsBack m q (.scaled c 10 k)
  match hits with
  | [] => none
  | [c] => some (c, k)
  | _ => some (scaled.round, k)

/-- The digits of the shortest decimal that reads back, and the power of ten of the last. -/
def shortest (m : Nat) (q : Int) : Nat × Int :=
  ((List.range 17).findSome? fun i => decimalOf m q (i + 1)).getD (m, 0)

/-- Digits without zeros at the end. -/
def trimZeros (digits : Nat) (exponent : Int) : Nat → Nat × Int
  | 0 => (digits, exponent)
  | fuel + 1 =>
    if digits ≠ 0 && digits % 10 = 0 then trimZeros (digits / 10) (exponent + 1) fuel
    else (digits, exponent)

/-- Digits and a power of ten in positional notation. -/
def positional (digits : Nat) (exponent : Int) : String :=
  let ds := Nat.toDigits 10 digits
  if 0 ≤ exponent then String.ofList (ds ++ List.replicate exponent.toNat '0')
  else
    let places := (-exponent).toNat
    let padded := List.replicate (places + 1 - ds.length) '0' ++ ds
    let whole := padded.length - places
    String.ofList (padded.take whole ++ '.' :: padded.drop whole)

/-- The fewest digits that read back, without zeros at the end, and the power of ten of the last. -/
def decimal (m : Nat) (q : Int) : Nat × Int :=
  if m = 0 then (0, 0)
  else
    let (digits, exponent) := shortest m q
    trimZeros digits exponent 20

/-- A double in positional notation, with the fewest digits that read back. -/
def text : Double → String
  | finite negative m q =>
    let (digits, exponent) := decimal m q
    (if negative then "-" else "") ++ positional digits exponent
  | infinite negative => if negative then "-inf" else "inf"
  | undefined => "NaN"

def isNonzero : Double → Bool
  | finite _ m _ => m != 0
  | infinite _ => true
  | undefined => true

end Double

/-- The digits at the front of a text, and what follows. -/
def spanDigits (cs : List Char) : List Char × List Char :=
  cs.span Char.isDigit

/-- The value of decimal digits. -/
def digitsValue (ds : List Char) : Nat :=
  ds.foldl (fun n c => n * 10 + (c.toNat - 48)) 0

/-- Reads an exponent after its letter: a sign or none, and digits. -/
def readExponent (cs : List Char) : Option Int :=
  let (negative, ds) := match cs with
    | '-' :: rest => (true, rest)
    | '+' :: rest => (false, rest)
    | rest => (false, rest)
  if ds.isEmpty || !ds.all Char.isDigit then none
  else some (if negative then -(digitsValue ds : Int) else digitsValue ds)

/-- Reads a number without its sign: digits with or without a point, and an exponent or none. -/
def readUnsigned (negative : Bool) (cs : List Char) : Option Double :=
  let (whole, rest) := spanDigits cs
  let (part, rest) := match rest with
    | '.' :: rest => spanDigits rest
    | rest => ([], rest)
  if whole.isEmpty && part.isEmpty then none
  else
    let exponent := match rest with
      | [] => some 0
      | 'e' :: rest => readExponent rest
      | 'E' :: rest => readExponent rest
      | _ => none
    exponent.map fun e => Double.nearest negative (digitsValue (whole ++ part)) (e - part.length)

/-- Reads a double: a number, or a word for a value beyond all numbers, with a sign or none. -/
def readDouble (text : String) : Option Double :=
  let (negative, cs) := match text.toList with
    | '-' :: rest => (true, rest)
    | '+' :: rest => (false, rest)
    | rest => (false, rest)
  match String.ofList (cs.map Char.toLower) with
  | "inf" => some (.infinite negative)
  | "infinity" => some (.infinite negative)
  | "nan" => some .undefined
  | _ => readUnsigned negative cs

end ComponentAssembly.Text

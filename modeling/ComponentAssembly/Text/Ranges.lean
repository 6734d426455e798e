/-!
Ranges of code points, tables of them written as text, and shifts of code points.

A table is a text of items between blanks or line ends, and an item is a list of numbers between
commas.
-/

namespace ComponentAssembly.Text

/-- The items of a table of code points. -/
def parseTuples (text : String) : List (List Nat) :=
  let items := (text.splitOn "\n").flatMap (·.splitOn " ")
  (items.filter (!·.isEmpty)).map fun item => (item.splitOn ",").filterMap String.toNat?

/-- The code points from `first` to `last`. -/
structure Range where
  first : Nat
  last : Nat
deriving DecidableEq, Inhabited

namespace Range

/-- Reads a table of ranges; one number stands for a range of one. -/
def parseAll (text : String) : List Range :=
  (parseTuples text).filterMap fun
    | [first, last] => some ⟨first, last⟩
    | [only] => some ⟨only, only⟩
    | _ => none

/-- Whether a code point lies in one of the ranges. -/
def anyContains (ranges : List Range) (n : Nat) : Bool :=
  ranges.any fun r => r.first ≤ n && n ≤ r.last

end Range

/-- Every `step`-th code point from `first` to `last` goes to the one `offset` further. -/
structure Shift where
  first : Nat
  last : Nat
  step : Nat
  offset : Int
deriving DecidableEq, Inhabited

namespace Shift

/-- Whether a shift moves a code point. -/
def covers (s : Shift) (n : Nat) : Bool :=
  s.first ≤ n && n ≤ s.last && (n - s.first) % s.step == 0

/-- Moves a character by the first shift that covers it. -/
def apply (shifts : List Shift) (c : Char) : Char :=
  match shifts.find? (·.covers c.toNat) with
  | some s => Char.ofNat ((c.toNat : Int) + s.offset).toNat
  | none => c

end Shift

end ComponentAssembly.Text

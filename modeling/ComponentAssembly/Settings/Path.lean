import ComponentAssembly.Scalar

/-!
Setting paths: where in a tree of settings a key puts its value.

A key is a name, and then names after dots and positions between square brackets, as in
`servers[0].address`; a negative position counts from the end of a list.  A key that is not of this
form is one name, whatever it contains.
-/

namespace ComponentAssembly

/-- A step from a value to a part of it. -/
inductive PathStep where
  | name (name : String)
  | position (position : Int)
deriving DecidableEq, Inhabited

namespace PathStep

/-- The characters of a name in a path. -/
def isNameChar (c : Char) : Bool :=
  c.isAlphanum || c == ' ' || c == '_' || c == '-'

/-- Reads a position after its opening bracket: a decimal number of 64 bits, between blanks. -/
def readPosition (text : String) : Option PathStep := do
  let isBlank (c : Char) : Bool := c == ' ' || c == '\t'
  let ']' :: inner := text.toList.reverse | none
  let inner := ((inner.dropWhile isBlank).reverse).dropWhile isBlank
  if inner.head? == some '+' then none
  else (IntType.i64.read inner).toOption.map position

/-- Reads what stands between two dots: a name with the positions after it. -/
def readSegment (text : String) : Option (List PathStep) :=
  match text.splitOn "[" with
  | first :: positions =>
    if !first.isEmpty && first.all isNameChar then
      (positions.mapM readPosition).map (name first :: ·)
    else none
  | [] => none

end PathStep

/-- The steps of a key. -/
def pathOf (key : String) : List PathStep :=
  match (key.splitOn ".").mapM PathStep.readSegment with
  | some segments => segments.flatten
  | none => [.name key]

end ComponentAssembly

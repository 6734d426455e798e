import ComponentAssembly.Pattern.Atom

/-!
Brackets of patterns: sets of characters, such as `[a-z_]`.

A set holds characters, ranges, classes with a name and further sets, and may be combined with what
follows by an operator.  What is read of a set is how deep it nests.
-/

namespace ComponentAssembly.Pattern

/-- How deep parts nest that stand side by side: one part alone adds nothing. -/
def sideBySide : List Nat → Nat
  | [] => 0
  | [depth] => depth
  | depths => 1 + depths.foldl max 0

/-- A bracket that is not closed yet. -/
structure Bracket where
  /-- Whether only dashes were read so far. -/
  atStart : Bool := false
  /-- How deep the operand before the last operator is. -/
  operand : Option Nat := none
  /-- How deep the items after it are. -/
  items : List Nat := []
deriving DecidableEq, Inhabited

namespace Bracket

def depth (b : Bracket) : Nat :=
  match b.operand with
  | none => sideBySide b.items
  | some depth => 1 + max depth (sideBySide b.items)

def add (b : Bracket) (depth : Nat) : Bracket :=
  { b with items := depth :: b.items, atStart := false }

/-- Makes all that was read the operand of an operator. -/
def operate (b : Bracket) : Bracket :=
  { operand := some b.depth }

end Bracket

/-- Whether an atom may stand in brackets.  Sets of bytes hold ASCII only. -/
def Atom.isAllowedInBracket (m : Mode) : Atom → Bool
  | char c _ => if m.bytes then c.toNat < 128 else !m.caseless
  | shorthand negated => m.bytes && !negated
  | any | edge | wordEdge => false

/-- Reads an atom in brackets, where only a backslash has a meaning of its own. -/
def readMember (m : Mode) (cs : List Char) : Option (Atom × List Char) := do
  let (atom, rest) ← match cs with
    | [] => none
    | '\\' :: rest => readEscape m rest
    | c :: rest => some (.char c false, rest)
  if atom.isAllowedInBracket m then return (atom, rest) else none

/-- What follows a dash, of which at most one comment sign is looked through. -/
def afterDash (m : Mode) (cs : List Char) : Option Char :=
  if m.verbose then
    match cs.dropWhile Text.isSpace with
    | '#' :: rest => (rest.dropWhile Text.isSpace).head?
    | rest => rest.head?
  else cs.head?

/-- Skips a character or a range.  A dash before a dash or the end makes no range. -/
def skipItem (m : Mode) (cs : List Char) : Option (List Char) := do
  let (first, rest) ← readMember m cs
  match m.skip rest with
  | '-' :: rest =>
    if afterDash m rest == some ']' || afterDash m rest == some '-' then return '-' :: rest
    let (last, rest) ← readMember m (m.skip rest)
    match first, last with
    | .char a _, .char b _ => if a ≤ b then return rest else none
    | _, _ => none
  | rest => return rest

/-- The classes that have a name. -/
def classNames : List String :=
  ["alnum", "alpha", "ascii", "blank", "cntrl", "digit", "graph", "lower", "print", "punct",
    "space", "upper", "word", "xdigit"]

/-- Reads a class with a name after its bracket: whether it is negated, and what follows. -/
def readNamedClass : List Char → Option (Bool × List Char)
  | ':' :: cs =>
    let (negated, cs) := match cs with
      | '^' :: cs => (true, cs)
      | cs => (false, cs)
    match cs.dropWhile (· != ':') with
    | ':' :: ']' :: rest =>
      if classNames.contains (String.ofList (cs.takeWhile (· != ':'))) then some (negated, rest)
      else none
    | _ => none
  | _ => none

/-- What follows the bracket that opens a set.  A set of bytes cannot be negated. -/
def openBracket (m : Mode) (cs : List Char) : Option (List Char) :=
  match m.skip cs with
  | '^' :: rest => if m.bytes then none else some rest
  | rest => some rest

/-- Reads a set to its end; `outer` are the sets around it, the nearest first. -/
def readBracketFrom (m : Mode) :
    Nat → Bracket → List Bracket → List Char → Option (Nat × List Char)
  | 0, _, _, _ => none
  | fuel + 1, b, outer, cs =>
    match m.skip cs with
    | [] => none
    | c :: rest =>
      if b.atStart && (c == '-' || c == ']' && b.items.isEmpty) then
        if (Atom.char c false).isAllowedInBracket m then
          readBracketFrom m fuel { b.add 0 with atStart := c == '-' } outer rest
        else none
      else match c, rest with
        | ']', rest =>
          match outer with
          | [] => some (1 + b.depth, rest)
          | next :: outer => readBracketFrom m fuel (next.add (1 + b.depth)) outer rest
        | '&', '&' :: rest | '-', '-' :: rest | '~', '~' :: rest =>
          readBracketFrom m fuel b.operate outer rest
        | '[', rest =>
          match readNamedClass rest with
          | some (negated, rest) =>
            if if m.bytes then negated else m.caseless then none
            else readBracketFrom m fuel (b.add 0) outer rest
          | none => do
            readBracketFrom m fuel { atStart := true } (b :: outer) (← openBracket m rest)
        | c, rest => do readBracketFrom m fuel (b.add 0) outer (← skipItem m (c :: rest))

/-- Reads a set after its bracket: how deep it is, and what follows. -/
def readBracket (m : Mode) (cs : List Char) : Option (Nat × List Char) := do
  let rest ← openBracket m cs
  readBracketFrom m (rest.length + 1) { atStart := true } [] rest

end ComponentAssembly.Pattern

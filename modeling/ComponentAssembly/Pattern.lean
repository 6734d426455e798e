import ComponentAssembly.Pattern.Bracket

/-!
Patterns: which texts are regular expressions.

A pattern is a sequence of alternatives, each a sequence of atoms, brackets and groups that may be
repeated.  Flags change the mode from their place to the end of the group around them.  Nothing may
nest too deep.
-/

namespace ComponentAssembly.Pattern

/-! ## Groups -/

/-- A part of an alternative, as far as it counts for what follows. -/
inductive Part where
  /-- A setting of flags, which cannot be repeated. -/
  | flags
  /-- What matches something, by how deep it is. -/
  | item (depth : Nat)
deriving DecidableEq, Inhabited

def Part.depth : Part → Nat
  | flags => 0
  | item depth => depth

/-- A group that is not closed yet; so is the whole pattern. -/
structure Group where
  mode : Mode := {}
  /-- How deep the alternatives before the last bar are. -/
  alternatives : List Nat := []
  /-- The parts after it, the latest first. -/
  parts : List Part := []
deriving DecidableEq, Inhabited

namespace Group

def add (g : Group) (depth : Nat) : Group :=
  { g with parts := .item depth :: g.parts }

def setFlags (g : Group) (mode : Mode) : Group :=
  { g with mode, parts := .flags :: g.parts }

def branch (g : Group) : Group :=
  { g with alternatives := sideBySide (g.parts.map Part.depth) :: g.alternatives, parts := [] }

/-- Repeats the latest part, which must match something. -/
def repeated? (g : Group) : Option Group :=
  match g.parts with
  | .item depth :: parts => some { g with parts := .item (1 + depth) :: parts }
  | _ => none

def depth (g : Group) : Nat :=
  sideBySide g.branch.alternatives

end Group

/-- Reads flags up to the sign that ends them: the mode they make of a mode, the flags with the
latest first, and what follows.  No flag may stand twice, and one must follow the dash that turns
flags off. -/
def readFlags (m : Mode) (seen : List Char) : List Char → Option (Mode × List Char × List Char)
  | [] => none
  | c :: rest =>
    if c == ':' || c == ')' then
      if seen.head? == some '-' then none else some (m, seen, c :: rest)
    else if ['i', 'm', 's', 'U', 'u', 'R', 'x', '-'].contains c && !seen.contains c then
      readFlags (m.set c (!seen.contains '-')) (c :: seen) rest
    else none

/-- Reads the name of a group up to the sign that ends it. -/
def readName (cs : List Char) : Option (String × List Char) :=
  let isInner (c : Char) : Bool :=
    c == '_' || c == '.' || c == '[' || c == ']' || Text.isAlphanumeric c
  match cs with
  | [] => none
  | c :: rest =>
    match rest.dropWhile isInner with
    | '>' :: left =>
      if c == '_' || Text.isAlphabetic c then
        some (String.ofList (c :: rest.takeWhile isInner), left)
      else none
    | _ => none

/-! ## Reading -/

/-- A pattern of which a part was read. -/
structure Progress where
  /-- The names of groups. -/
  names : List String := []
  group : Group := {}
  /-- The groups around the current one, the nearest first. -/
  outer : List Group := []
deriving DecidableEq, Inhabited

namespace Progress

def withGroup (p : Progress) (group : Group) : Progress := { p with group }

def enter (p : Progress) (mode : Mode) : Progress :=
  { p with group := { mode }, outer := p.group :: p.outer }

/-- Closes a group; the mode around it counts again. -/
def leave? (p : Progress) : Option Progress :=
  match p.outer with
  | [] => none
  | group :: outer => some { p with group := group.add (1 + p.group.depth), outer }

/-- Opens a group with a name, which no other group has. -/
def enterNamed? (p : Progress) (cs : List Char) : Option (Progress × List Char) := do
  let (name, rest) ← readName cs
  if p.names.contains name then none
  return ({ p with names := name :: p.names }.enter p.group.mode, rest)

/-- Reads what follows an opening parenthesis: a name, flags for a group or from here on, or
nothing. -/
def openGroup? (p : Progress) (cs : List Char) : Option (Progress × List Char) :=
  match cs with
  | '?' :: 'P' :: '<' :: rest => p.enterNamed? rest
  | '?' :: '<' :: rest => p.enterNamed? rest
  | '?' :: rest =>
    match readFlags p.group.mode [] rest with
    | some (mode, _, ':' :: rest) => some (p.enter mode, rest)
    | some (mode, _ :: _, ')' :: rest) => some (p.withGroup (p.group.setFlags mode), rest)
    | _ => none
  | rest => some (p.enter p.group.mode, rest)

/-- Reads an atom. -/
def readAtom? (p : Progress) (c : Char) (rest : List Char) : Option (Progress × List Char) := do
  let (atom, rest) ← match c with
    | '\\' => readEscape p.group.mode rest
    | '.' => some (.any, rest)
    | '^' | '$' => some (.edge, rest)
    | c => some (.char c false, rest)
  if atom.isAllowed p.group.mode then return (p.withGroup (p.group.add 0), rest) else none

/-- Reads what a character starts.  An opening brace would count repetitions. -/
def step? (p : Progress) (c : Char) (rest : List Char) : Option (Progress × List Char) :=
  match c with
  | '(' => p.openGroup? (p.group.mode.skip rest)
  | ')' => p.leave?.map (·, rest)
  | '|' => some (p.withGroup p.group.branch, rest)
  | '[' => (readBracket p.group.mode rest).map fun (depth, rest) =>
    (p.withGroup (p.group.add depth), rest)
  | '?' | '*' | '+' =>
    p.group.repeated?.map fun group =>
      (p.withGroup group, match rest with
        | '?' :: rest => rest
        | rest => rest)
  | '\x7b' => none
  | c => p.readAtom? c rest

/-- Reads a pattern to its end. -/
def readFrom? : Nat → Progress → List Char → Option Progress
  | 0, _, _ => none
  | fuel + 1, p, cs =>
    match p.group.mode.skip cs with
    | [] => some p
    | c :: rest => do
      let (p, rest) ← p.step? c rest
      readFrom? fuel p rest

end Progress

/-- How deep a pattern may nest. -/
def maxDepth : Nat := 250

end ComponentAssembly.Pattern

namespace ComponentAssembly

/-- Whether a text without closing braces is a pattern.  What an opening brace starts needs a
closing one, so that only an escaped brace is part of one. -/
def isPattern (cs : List Char) : Bool :=
  match Pattern.Progress.readFrom? (cs.length + 1) {} cs with
  | some p => p.outer.isEmpty && p.group.depth ≤ Pattern.maxDepth
  | none => false

end ComponentAssembly

import ComponentAssembly.Factory

/-!
Arguments: what the points of a step were resolved to, in a queue for the step to take from.
-/

namespace ComponentAssembly

/-- What a point was resolved to. -/
inductive Argument where
  | object (value : Instance)
  /-- A raw text and what it was read as. -/
  | scalar (raw : String) (value : Instance)
  | objects (values : List Instance)
  | deferred (lookup : Lookup)
  | absent
deriving Inhabited

namespace Argument

def isAbsent : Argument → Bool
  | .absent => true
  | _ => false

/-- Whether an argument counts as missing where one is required. -/
def isEmpty : Argument → Bool
  | .absent => true
  | .scalar raw _ => raw.isEmpty
  | .objects values => values.isEmpty
  | .object value => value.isEmptyText
  | .deferred _ => false

end Argument

/-- An argument, with the name and the key of its point. -/
structure ArgumentEntry where
  point : String
  key : Key
  argument : Argument
deriving Inhabited

/-- The arguments of one step, in the order of its points. -/
structure Arguments where
  owner : String
  entries : List ArgumentEntry := []
deriving Inhabited

namespace Arguments

def push (a : Arguments) (point : String) (key : Key) (argument : Argument) : Arguments :=
  { a with entries := a.entries ++ [{ point, key, argument }] }

def remaining (a : Arguments) : Nat := a.entries.length

/-- Whether the next argument is absent; so it is when none is left. -/
def nextIsAbsent (a : Arguments) : Bool :=
  match a.entries with
  | [] => true
  | entry :: _ => entry.argument.isAbsent

/-- The arguments after the next one. -/
def rest (a : Arguments) : Arguments :=
  { a with entries := a.entries.tail }

/-- The queue of the arguments of points. -/
def ofPoints (owner : String) (points : List InjectionPoint) (values : List Argument) : Arguments :=
  { owner
    entries := (points.zip values).map fun (p, argument) =>
      { point := p.name, key := p.key, argument } }

/-- The complaint that no argument is left. -/
def exhausted (a : Arguments) : AssemblyError :=
  .missingValue (a.owner ++ "#<参数已耗尽>")

/-- Where an argument belongs, as complaints name it. -/
def pathOf (a : Arguments) (entry : ArgumentEntry) : String :=
  a.owner ++ "." ++ entry.point

end Arguments

end ComponentAssembly

import ComponentAssembly.Point

/-!
Constructions: how the components of a type are built.

A construction asks for parameters, creates a stage from them, applies its members to the stage one
after the other, and finishes the stage into a component.  What a step does with its arguments is a
list of takes, each of which becomes one field of the component.
-/

namespace ComponentAssembly

/-- How a construction creates its stage. -/
inductive ConstructionKind where
  | constructor
  | factory
  | builder
deriving DecidableEq, Inhabited

def ConstructionKind.name : ConstructionKind → String
  | .constructor => "Constructor"
  | .factory => "Factory"
  | .builder => "Builder"

/-- The kind that a word stands for; by default it is a constructor. -/
def ConstructionKind.ofWord : String → ConstructionKind
  | "factory" => .factory
  | "builder" => .builder
  | _ => .constructor

/-- The kinds of members. -/
inductive MemberKind where
  | field
  | method
deriving DecidableEq, Inhabited

def MemberKind.name : MemberKind → String
  | field => "Field"
  | method => "Method"

/-- The ways to take a typed argument. -/
inductive TakeMode where
  | object
  | optional
  | value
  | optionalValue
  | all
  | allValues
  | supplier
deriving DecidableEq, Inhabited

def TakeMode.ofName? : String → Option TakeMode
  | "instance" => some .object
  | "optional" => some .optional
  | "value" => some .value
  | "optional_value" => some .optionalValue
  | "all" => some .all
  | "all_values" => some .allValues
  | "supplier" => some .supplier
  | _ => none

/-- What a step does with its arguments. -/
inductive Take where
  | typed (mode : TakeMode) (type : TypePath)
  | skip
  | remaining
  | nextIsAbsent
deriving DecidableEq, Inhabited

/-- A take and the name of the field that it fills. -/
structure FieldTake where
  field : String
  take : Take
deriving DecidableEq, Inhabited

/-- The take of a point whose step names none. -/
def InjectionPoint.defaultTake (p : InjectionPoint) : FieldTake :=
  let mode : TakeMode :=
    if p.deferred && p.source == .dependency then .supplier
    else if p.multiple then .all
    else .optional
  { field := p.name, take := .typed mode p.key.type }

/-- A step that fails: always, or only the first few times that it is tried. -/
structure Fault where
  message : String
  /-- Whether the step fails by validation. -/
  validation : Bool := false
  times : Option Nat := none
deriving DecidableEq, Inhabited

/-- A step that is applied to a stage after it was created. -/
structure Member where
  name : String
  kind : MemberKind
  points : List InjectionPoint
  takes : List FieldTake
  fault : Option Fault := none
  /-- The type of stage that the member is made for. -/
  stage : TypePath
deriving DecidableEq, Inhabited

/-- How the components of a type are built. -/
structure Construction where
  type : TypePath
  kind : ConstructionKind := .constructor
  scope : Option TypePath := none
  parameters : List InjectionPoint := []
  takes : List FieldTake := []
  fault : Option Fault := none
  /-- The type of stage that the construction creates. -/
  stage : TypePath
  members : List Member := []
  finishFault : Option Fault := none
  constraints : List Constraint := []
deriving DecidableEq, Inhabited

namespace Construction

/-- The construction that asks for nothing. -/
def plain (type : TypePath) : Construction := { type, stage := type }

def constrained (c : Construction) (x : Constraint) : Construction :=
  { c with constraints := c.constraints ++ [x] }

/-- All points of a construction, in the order in which they are resolved. -/
def points (c : Construction) : List InjectionPoint :=
  c.parameters ++ c.members.flatMap (·.points)

/-- The points that must be resolved before a component is built. -/
def eagerPoints (c : Construction) : List InjectionPoint :=
  c.points.filter (·.isEager)

end Construction

end ComponentAssembly

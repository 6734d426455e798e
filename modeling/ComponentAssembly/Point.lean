import ComponentAssembly.Key
import ComponentAssembly.Scalar
import ComponentAssembly.Text.Case

/-!
Injection points: what a construction asks for, and where it is looked for.
-/

namespace ComponentAssembly

/-- Where the value of a point comes from. -/
inductive PointSource where
  | dependency
  | attribute
  | element
  | value
  | node
deriving DecidableEq, Inhabited

def PointSource.label : PointSource → String
  | .dependency => "dependency"
  | .attribute => "attribute"
  | .element => "element"
  | .value => "value"
  | .node => "node"

/-- What must hold before a construction is used. -/
inductive Constraint where
  /-- The argument of a point must not be empty. -/
  | required (message : Option String)
  /-- A property must be set, and to the given value if there is one. -/
  | requiredProperty (name : String) (value : Option String)
deriving DecidableEq, Inhabited

/-- One thing that a construction asks for. -/
structure InjectionPoint where
  name : String
  key : Key
  source : PointSource
  aliases : List String := []
  deferred : Bool := false
  multiple : Bool := false
  constraints : List Constraint := []
  default? : Option String := none
  /-- The type as which raw text is read; without one it stays text. -/
  converter : ScalarType := .string
  /-- The type whose declared construction the point itself carries. -/
  construction : Option TypePath := none
deriving DecidableEq, Inhabited

namespace InjectionPoint

/-! ## Making points -/

/-- A point that asks for the instance of a type. -/
def dependency (name : String) (type : TypePath) : InjectionPoint :=
  { name, key := .of type, source := .dependency }

/-- A dependency that carries the construction that its type declares. -/
def injectable (name : String) (type : TypePath) : InjectionPoint :=
  { dependency name type with construction := some type }

/-- A point that takes text, which is read as a type if that is a scalar one. -/
def ofText (source : PointSource) (name : String) (type : TypePath) : InjectionPoint :=
  { name, key := .of type, source, converter := (ScalarType.ofPath? type).getD .string }

/-- A point that takes an attribute. -/
def fromAttribute (name : String) (type : TypePath) : InjectionPoint := ofText .attribute name type

def fromValue (name : String) (type : TypePath) : InjectionPoint := ofText .value name type

def fromElement (name : String) (type : TypePath) : InjectionPoint :=
  { name, key := .of type, source := .element }

def fromElements (name : String) (type : TypePath) : InjectionPoint :=
  { fromElement name type with multiple := true }

def fromNode (name : String) (type : TypePath) : InjectionPoint :=
  { name, key := .of type, source := .node }

/-- The kind of point that a word stands for; by default it is a dependency. -/
def ofWord : String → String → TypePath → InjectionPoint
  | "injectable" => injectable
  | "attribute" => fromAttribute
  | "value" => fromValue
  | "element" => fromElement
  | "elements" => fromElements
  | "node" => fromNode
  | _ => dependency

def constrained (p : InjectionPoint) (c : Constraint) : InjectionPoint :=
  { p with constraints := p.constraints ++ [c] }

/-! ## What a point says -/

/-- Whether a point asks for an element of the given name; the case of ASCII letters does not count.
-/
def matchesName (p : InjectionPoint) (candidate : String) : Bool :=
  Text.sameIgnoringCase p.name candidate || p.aliases.any (Text.sameIgnoringCase · candidate)

/-- Whether the argument of a point must not be empty. -/
def isRequired (p : InjectionPoint) : Bool :=
  p.constraints.any fun
    | .required _ => true
    | .requiredProperty .. => false

/-- Reads a raw text as the type of a point. -/
def convert (p : InjectionPoint) (raw : String) : Except String Scalar :=
  Scalar.convert p.converter raw

/-- The keys under which a dependency is looked for, in order. -/
def candidates (p : InjectionPoint) : List Key :=
  p.key.candidates p.aliases

/-- Whether a point must be resolved before its owner is built. -/
def isEager (p : InjectionPoint) : Bool :=
  p.source == .dependency && !p.deferred

end InjectionPoint

end ComponentAssembly

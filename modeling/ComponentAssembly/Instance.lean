import ComponentAssembly.Error
import ComponentAssembly.Journal
import ComponentAssembly.Node
import ComponentAssembly.Scalar
import ComponentAssembly.Substitutor

/-!
Instances: the objects that factories hand out.

An instance is a value with an identity.  The values are components with their fields, scalars,
views of components as another type, configuration nodes, substitutors and the plugin registry.
-/

namespace ComponentAssembly

/-- A handle on a supplier, for instances under a key that are used as a type. -/
structure Supplier where
  id : Nat
  key : Key
  type : TypePath
deriving DecidableEq, Inhabited

mutual

/-- What an instance is. -/
inductive Value where
  | component (c : Component)
  | scalar (s : Scalar)
  | view (type : TypePath) (of : Component)
  | node (n : Node Instance)
  | substitutor (s : Substitutor)
  | registry

/-- A component: its name and the fields that its construction filled, in order. -/
inductive Component where
  | mk (name : ComponentName) (fields : List (String × FieldValue))

/-- What a take leaves in a field. -/
inductive FieldValue where
  | one (i : Instance)
  | many (is : List Instance)
  | absent
  | supplier (s : Supplier)
  | text (t : String)

/-- A value with an identity. -/
inductive Instance where
  | mk (id : Nat) (value : Value)

end

namespace Component

def name : Component → ComponentName
  | mk name _ => name

def fields : Component → List (String × FieldValue)
  | mk _ fields => fields

def fresh (name : ComponentName) : Component := mk name []

def push (c : Component) (field : String) (value : FieldValue) : Component :=
  mk c.name (c.fields ++ [(field, value)])

end Component

namespace Value

instance : Inhabited Value := ⟨registry⟩

def type : Value → TypePath
  | component c => c.name.type
  | scalar s => s.type.typePath
  | view type _ => type
  | node _ => TypePath.node
  | substitutor _ => TypePath.substitutor
  | registry => TypePath.registry

end Value

namespace Instance

def id : Instance → Nat
  | mk id _ => id

def value : Instance → Value
  | mk _ value => value

instance : Inhabited Instance := ⟨mk 0 default⟩

def type (i : Instance) : TypePath := i.value.type

/-- An instance whose type is right, or the mismatch at a point. -/
def downcast (i : Instance) (type : TypePath) (point : String) : Except AssemblyError Instance :=
  if i.type = type then .ok i else .error (.typeMismatch point type.path)

/-- Whether an instance is the empty text. -/
def isEmptyText (i : Instance) : Bool :=
  match i.value with
  | .scalar (.string text) => text.isEmpty
  | _ => false

/-- The supplier in a field of a component. -/
def supplierAt (i : Instance) (index : Nat) : Option Supplier :=
  match i.value with
  | .component c =>
    match c.fields[index]? with
    | some (_, .supplier s) => some s
    | _ => none
  | _ => none

end Instance

def Journal.allocate (value : Value) : StateM Journal Instance := do
  return .mk (← freshObject) value

/-- A new component without fields. -/
def Journal.newComponent (type : TypePath) : StateM Journal Component := do
  let name : ComponentName := { type, serial := ← freshSerial }
  note (.created name)
  return .fresh name

/-- The object of a plugin seen as another type: as it is if the class is of that type, else through
the first cast to it, which applies only to components of the type that it is declared for. -/
def PluginClass.adapt (c : PluginClass) (object : Instance) (target : TypePath) :
    StateM Journal (Option Instance) := do
  if c.type = target then
    return some object
  match c.casts.find? (·.target == target) with
  | none => return none
  | some cast =>
    match object.value with
    | .component component =>
      if component.name.type = cast.source then
        return some (← Journal.allocate (.view target component))
      else return none
    | _ => return none

end ComponentAssembly

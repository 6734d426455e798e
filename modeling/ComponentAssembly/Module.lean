import ComponentAssembly.Error
import ComponentAssembly.Factory

/-!
Modules: named groups of factory methods.

A method is bound under its key and under a named key for each of its aliases.  Two methods of one
module must not share a key; a key that one method repeats is no conflict.
-/

namespace ComponentAssembly

/-- A factory method of a module. -/
structure FactoryMethod where
  method : String
  key : Key
  aliases : List String := []
  scope : Option TypePath := none
  recipe : Recipe
deriving Inhabited

namespace FactoryMethod

/-- All keys of a method, its own key first. -/
def keys (m : FactoryMethod) : List Key :=
  m.key.candidates m.aliases

def hasKey (m : FactoryMethod) (key : Key) : Bool :=
  m.keys.contains key

end FactoryMethod

/-- A named group of factory methods. -/
structure Module where
  name : String
  methods : List FactoryMethod := []
deriving Inhabited

namespace Module

/-- The first method of a list that shares a key with a given one, and the first such key in the
order of that method. -/
def firstClash (m : FactoryMethod) : List FactoryMethod → Option (FactoryMethod × Key)
  | [] => none
  | other :: rest =>
    match other.keys.find? m.hasKey with
    | some key => some (other, key)
    | none => firstClash m rest

/-- The first two methods that share a key. -/
def duplicate (name : String) : List FactoryMethod → Option AssemblyError
  | [] => none
  | m :: rest =>
    match firstClash m rest with
    | some (other, key) => some (.duplicateFactory name key m.method other.method)
    | none => duplicate name rest

/-- The complaint that two methods of a module share a key, if any do. -/
def clash (m : Module) : Option AssemblyError :=
  duplicate m.name m.methods

/-- The source under which the keys of a method are bound. -/
def sourceOf (m : Module) (method : FactoryMethod) : String :=
  m.name ++ "::" ++ method.method

end Module

end ComponentAssembly

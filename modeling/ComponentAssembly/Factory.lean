import ComponentAssembly.Construction
import ComponentAssembly.Instance

/-!
Factories: what a binding calls to get an instance.

A factory is data.  At its core is a constant, a recipe, a module method or a construction;
around it stand the layers that guard a key against cycles and that keep instances.
-/

namespace ComponentAssembly

/-- A value that is made afresh each time it is used. -/
inductive Literal where
  | scalar (s : Scalar)
  | component (type : TypePath)
  | substitutor (s : Substitutor)
deriving DecidableEq, Inhabited

/-- What a recipe makes. -/
inductive RecipeBody where
  /-- The next number of a counter, as a scalar of a type. -/
  | counter (name : String) (type : ScalarType)
  /-- A fresh value. -/
  | literal (value : Literal)
  /-- What the injector has for some keys: each of `needs` must be had, each of `tries` may fail.
  The result is the instance of `returns`, or else a fresh component with one field per key. -/
  | gather (needs tries : List Key) (returns : Option Key)
deriving DecidableEq, Inhabited

/-- How a hand-written factory makes its instances. -/
structure Recipe where
  type : TypePath
  label : Option String := none
  fault : Option Fault := none
  body : RecipeBody
deriving DecidableEq, Inhabited

/-- What a binding calls to get an instance. -/
inductive Factory where
  /-- Fails when the key is in progress already. -/
  | guarded (key : Key) (inner : Factory)
  /-- Keeps the first instance in a cell. -/
  | once (cell : Nat) (inner : Factory)
  /-- Keeps the first instance of each key in a store. -/
  | memo (store : Nat) (key : Key) (inner : Factory)
  /-- Always the same instance. -/
  | constant (value : Instance)
  /-- Follows a recipe.  With `rewrap` each call gives a new object. -/
  | recipe (recipe : Recipe) (rewrap : Bool)
  /-- Follows the recipe of a module method for a key, as long as the injector is there. -/
  | method (key : Key) (recipe : Recipe)
  /-- Builds a component for a key, as long as the injector is there. -/
  | construct (key : Key) (construction : Construction)
deriving Inhabited

/-- What keeps the instances of a factory. -/
inductive Scope where
  | unscoped
  | singleton
  | memo (store : Nat)
deriving DecidableEq, Inhabited

def Scope.name : Scope → String
  | .unscoped => "Unscoped"
  | .singleton => "Singleton"
  | .memo _ => "Memo"

/-- How a supplier comes by its factory. -/
inductive Lookup where
  /-- The factory is known. -/
  | resolved (key : Key) (factory : Factory)
  /-- The factory is that of a dependency, as long as the injector is there. -/
  | dependency (point : InjectionPoint)
  /-- Looked up under a number: the first `failures` times nothing is found. -/
  | numbered (id : Nat) (key : Key) (failures : Nat) (factory : Factory)
deriving Inhabited

def Lookup.key : Lookup → Key
  | .resolved key _ => key
  | .dependency point => point.key
  | .numbered _ key _ _ => key

/-! ## Keys that a factory can ask for -/

def Construction.keys (c : Construction) : List Key :=
  c.points.map (·.key)

def Recipe.keys (r : Recipe) : List Key :=
  match r.body with
  | .counter .. => []
  | .literal _ => []
  | .gather needs tries returns => needs ++ tries ++ returns.toList

/-- The keys that a factory guards or asks for. -/
def Factory.keys : Factory → List Key
  | .guarded key inner => key :: inner.keys
  | .once _ inner => inner.keys
  | .memo _ _ inner => inner.keys
  | .constant _ => []
  | .recipe r _ => r.keys
  | .method _ r => r.keys
  | .construct _ c => c.keys

/-- The keys that a lookup can lead to. -/
def Lookup.keys : Lookup → List Key
  | .resolved _ factory => factory.keys
  | .dependency point => [point.key]
  | .numbered _ _ _ factory => factory.keys

end ComponentAssembly

import ComponentAssembly.Injector.Resolution

/-!
Access: what an injector is asked for from outside, and how one is set up.
-/

namespace ComponentAssembly

namespace Assemble

/-- The instance of a key. -/
def getInstance (key : Key) : Assemble Instance := do
  (← getFactory key).call

/-- The instance of a key, which must be of a type. -/
def getInstanceAs (key : Key) (type : TypePath) : Assemble Instance := do
  let i ← getInstance key
  ofExcept (i.downcast type key.text)

/-- The instance of a type that declares its construction. -/
def getType (type : TypePath) : Assemble Instance := do
  registerType type
  getInstanceAs (.of type) type

/-- The factory of a type that declares its construction. -/
def factoryOfType (type : TypePath) : Assemble Factory := do
  registerType type
  getFactory (.of type)

/-- A supplier of the instances of a key, as a type. -/
def getSupplier (key : Key) (type : TypePath) : Assemble Supplier := do
  let factory ← getFactory key
  State.newSupplier (.resolved key factory) type

/-- The instance of a supplier. -/
def pullNow (s : Supplier) : Assemble Instance :=
  pull Factory.call s

/-- Applies the substitutor that is bound to a text. -/
def substitute (text : String) : Assemble String := do
  let i ← getInstanceAs Substitutor.key TypePath.substitutor
  match i.value with
  | .substitutor s => return s.apply text
  | _ => return text

/-- Lets go of the injector. -/
def release : Assemble Unit :=
  modify fun s => { s with alive := false }

/-! ## Setting up -/

/-- A scope by its name; a scope that keeps instances by key gets a store of its own. -/
inductive ScopeName where
  | unscoped
  | singleton
  | memo
deriving DecidableEq, Inhabited

/-- The scope name that a word stands for; by default nothing is kept. -/
def ScopeName.ofWord : String → ScopeName
  | "singleton" => .singleton
  | "memo" => .memo
  | _ => .unscoped

def newScope : ScopeName → Assemble Scope
  | .unscoped => return .unscoped
  | .singleton => return .singleton
  | .memo => return .memo (← State.newStore)

/-- Installs scopes and then modules, and gives the number of bindings. -/
def setUp (scopes : List (TypePath × ScopeName)) (modules : List Module) : Assemble Nat := do
  for (marker, name) in scopes do
    registerScope marker (← newScope name)
  for m in modules do
    installModule m
  let count := (← get).tables.bindings.length
  journal (Journal.info "注入器构建完成"
    [("modules", toString modules.length), ("bindings", toString count)])
  return count

end Assemble

namespace State

/-- A state with nothing registered but the scope of the singleton marker. -/
def initial (declarations : List (TypePath × Construction)) (properties : PropertySource)
    (environment : Texts) : State :=
  { declarations, properties, environment
    tables := { scopes := [(TypePath.singletonMarker, .singleton)] } }

/-- What an injector shows of itself: how much is registered with it. -/
def inspect (s : State) : Text.Form :=
  .record "DefaultInjector"
    [("bindings", .nat s.tables.bindings.length), ("scopes", .nat s.tables.scopes.length),
      ("constructions", .nat s.tables.constructions.length)] false

end State

end ComponentAssembly

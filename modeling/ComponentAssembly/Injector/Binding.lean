import ComponentAssembly.Injector.Acyclic
import ComponentAssembly.Module

/-!
Bindings: what is registered with an injector, and which factory a key gets.

A key bound on request can be bound again from the same source only; a binding made by resolution
gives way to any request.  A module is installed as a whole or not at all.
-/

namespace ComponentAssembly

namespace State

/-- The complaint that a key is bound from another source than the given one, if it is. -/
def conflict (s : State) (key : Key) (source : String) : Option AssemblyError :=
  match s.tables.binding? key with
  | some { origin := .explicit existing, .. } =>
    if existing = source then none else some (.duplicateBinding key existing source)
  | _ => none

end State

namespace Assemble

open State

def logBinding (b : Binding) (message : String) : Assemble Unit :=
  journal (Journal.debug message [("key", b.key.text), ("source", b.origin.text)])

/-- Binds a key, unless it is bound on request from another source. -/
def insertBinding (b : Binding) : Assemble Unit := do
  match (← get).tables.binding? b.key with
  | none => logBinding b "注册绑定"
  | some old =>
    if old.origin = b.origin then logBinding b "同一来源重新注册绑定"
    else if old.origin.isExplicit then
      raise (.duplicateBinding b.key old.origin.text b.origin.text)
    else logBinding b "显式绑定替换隐式绑定"
  onTables (·.put b)

/-- Binds a key to a factory, guarded by the key. -/
def registerBinding (key : Key) (factory : Factory) (source : String) : Assemble Unit :=
  insertBinding { key, factory := .guarded key factory, origin := .explicit source }

def bind (key : Key) (recipe : Recipe) : Assemble Unit :=
  registerBinding key (.recipe recipe true) "bind"

def bindInstance (key : Key) (value : Instance) : Assemble Unit :=
  registerBinding key (.constant value) "bind_instance"

def registerScope (marker : TypePath) (scope : Scope) : Assemble Unit := do
  journal (Journal.info "注册作用域" [("marker", marker.shortName), ("scope", scope.name)])
  onTables fun t => { t with scopes := assign marker scope t.scopes }

/-- Registers the type whose declared construction builds another. -/
def registerConstruction (type maker : TypePath) : Assemble Unit :=
  onTables fun t => { t with constructions := assign type maker t.constructions }

/-- Registers a type with the construction that it declares. -/
def registerType (type : TypePath) : Assemble Unit :=
  registerConstruction type type

/-! ## Scopes -/

/-- The scope of a marker; without a marker, or with one that nobody registered, nothing is kept. -/
def scopeFor (marker : Option TypePath) : Assemble Scope := do
  match marker with
  | none => return .unscoped
  | some marker =>
    match (← get).tables.scope? marker with
    | some scope => return scope
    | none =>
      journal (Journal.warn "作用域未注册, 按无作用域处理" [("scope", marker.shortName)])
      return .unscoped

/-- Wraps a factory so that a scope keeps its instances. -/
def wrapIn (scope : Scope) (key : Key) (inner : Factory) : Assemble Factory := do
  match scope with
  | .unscoped => return inner
  | .singleton => return .once (← newCell key) inner
  | .memo store =>
    journal (Journal.note (.wrapped key))
    return .memo store key inner

/-! ## Modules -/

/-- Binds a method of a module: one scoped factory under all its keys. -/
def installMethod (m : Module) (method : FactoryMethod) : Assemble Unit := do
  let scope ← scopeFor method.scope
  let kept ← wrapIn scope method.key (.method method.key method.recipe)
  let factory := Factory.guarded method.key kept
  -- a key that the method had before and has no longer keeps its old factory
  for key in method.keys do
    insertBinding { key, factory, origin := .explicit (m.sourceOf method) }

/-- The first key of a module that is bound from another source, in order of methods and keys. -/
def firstConflict (s : State) (m : Module) : Option AssemblyError :=
  m.methods.findSome? fun method =>
    method.keys.findSome? fun key => s.conflict key (m.sourceOf method)

/-- Lets a module declare its methods, and checks that no two of them share a key. -/
def declareModule (m : Module) : Assemble Unit := do
  journal (Journal.note (.configured m.name))
  match m.clash with
  | some cause => raise cause
  | none =>
    journal (Journal.debug "模块工厂方法收集完成"
      [("module", m.name), ("count", toString m.methods.length)])

/-- Installs a module.  All its keys are checked before the first one is bound. -/
def installModule (m : Module) : Assemble Unit := do
  declareModule m
  match firstConflict (← get) m with
  | some cause => raise cause
  | none =>
    for method in m.methods do
      installMethod m method
    journal (Journal.info "模块安装完成"
      [("module", m.name), ("methods", toString m.methods.length)])

/-! ## Factories of keys -/

/-- Binds an unbound key to the construction that a type declares, if no cycle can be reached from
it. -/
def implicitFactory (key : Key) (maker : TypePath) : Assemble Factory := do
  let s ← get
  let c := s.declared maker
  liftExcept (s.checkAcyclic key c)
  let scope ← scopeFor c.scope
  let kept ← wrapIn scope key (.construct key c)
  -- whoever binds the key first wins
  match (← get).tables.binding? key with
  | some b => return b.factory
  | none =>
    let factory := Factory.guarded key kept
    journal (Journal.debug "创建隐式绑定" [("key", key.text), ("kind", c.kind.name)])
    onTables (·.put { key, factory, origin := .implicit })
    return factory
where
  /-- Goes on with a result, or stops as it did. -/
  liftExcept {α : Type} : Except Stop α → Assemble α
    | .ok a => pure a
    | .error stop => throw stop

/-- The factory of a key: the one it is bound to, or else one made from the construction registered
for its type. -/
def getFactory (key : Key) : Assemble Factory := do
  let s ← get
  match s.factory? key with
  | some factory => return factory
  | none =>
    match s.tables.construction? key.type with
    | some maker => implicitFactory key maker
    | none => raise (.noConstruction key)

/-- The factory of a dependency: that of the first of its keys that is bound, or else one made from
the construction of the point or of the registered type.  A qualified dependency may be absent. -/
def dependencyFactory (p : InjectionPoint) : Assemble (Option Factory) := do
  let s ← get
  match p.candidates.findSome? s.factory? with
  | some factory => return some factory
  | none =>
    match p.construction.or (s.tables.construction? p.key.type) with
    | some maker => return some (← implicitFactory p.key maker)
    | none => if p.key.qualifier.isSome then return none else raise (.noConstruction p.key)

/-- The factory that a lookup finds. -/
def findFactory (lookup : Lookup) : Assemble Factory := do
  match lookup with
  | .resolved _ factory => return factory
  | .dependency p =>
    if !(← get).alive then
      raise (.injectorDropped p.key)
    match ← dependencyFactory p with
    | some factory => return factory
    | none => raise (.noConstruction p.key)
  | .numbered id key failures factory =>
    journal (Journal.note (.lookedUp key))
    if (← nextLookup id) < failures then
      raise (.noConstruction key)
    return factory

end Assemble

end ComponentAssembly

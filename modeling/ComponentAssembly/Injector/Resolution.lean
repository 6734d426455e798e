import ComponentAssembly.Injector.Stage
import ComponentAssembly.Validation
import ComponentAssembly.Visit

/-!
Resolution: how constructions find their arguments, and how factories run.

A construction is prepared and then built.  Preparing checks the class constraints, resolves the
points of the parameters and of the members in order, and checks the point constraints; nothing
is created before all of them hold.

A factory runs by structure.  Where it asks for an instance, the number of calls that may still be
nested goes down by one; a guarded key is entered at most once at a time, so the number of known
keys bounds the nesting (`Factory.run`, `callWithin`).
-/

namespace ComponentAssembly

/-- Where points are resolved: the node that they take from, if there is one, and the context. -/
structure Focus where
  node : Option (Node Instance)
  context : VisitContext
deriving Inhabited

namespace Assemble

section

variable (given : Provider)

/-! ## Points -/

/-- Resolves a dependency.  A deferred one becomes a lookup, any other the instance of its factory.
-/
def resolveDependency (p : InjectionPoint) (c : VisitContext) :
    Assemble (Argument × VisitContext) := do
  if p.deferred then
    return (.deferred (.dependency p), c.log p.name ("Supplier<" ++ p.key.text ++ ">"))
  match ← given.supply p with
  | none => return (.absent, c.log p.name "null")
  | some i => return (.object i, c.log p.name p.key.text)

/-- Resolves a point.  Without a node a point takes from an empty one of its own. -/
def resolvePoint (p : InjectionPoint) (f : Focus) :
    StateM State (Except Stop Argument × Focus) := do
  match Visit.visit? p with
  | none =>
    match ← (resolveDependency given p f.context).run with
    | .error stop => return (.error stop, f)
    | .ok (argument, context) => return (.ok argument, { f with context })
  | some visit =>
    let (result, v) ← State.onJournal (visit { node := f.node.getD .empty, context := f.context })
    let f := { node := f.node.map fun _ => v.node, context := v.context }
    match result with
    | .error cause => return (.error (.error cause), f)
    | .ok argument => return (.ok argument, f)

/-- Resolves points in order; the first failure ends it. -/
def resolvePoints :
    List InjectionPoint → Focus → StateM State (Except Stop (List Argument) × Focus)
  | [], f => return (.ok [], f)
  | p :: rest, f => do
    match ← resolvePoint given p f with
    | (.error stop, f) => return (.error stop, f)
    | (.ok argument, f) =>
      let (arguments, f) ← resolvePoints rest f
      return (arguments.map (argument :: ·), f)

/-- Resolves the points of members in order. -/
def resolveMembers :
    List Member → Focus → StateM State (Except Stop (List (List Argument)) × Focus)
  | [], f => return (.ok [], f)
  | m :: rest, f => do
    match ← resolvePoints given m.points f with
    | (.error stop, f) => return (.error stop, f)
    | (.ok arguments, f) =>
      let (members, f) ← resolveMembers rest f
      return (members.map (arguments :: ·), f)

/-! ## Constructions -/

/-- What a construction is built from, and the account of how it was found. -/
structure Prepared where
  parameters : List Argument
  members : List (List Argument)
  account : String

/-- The complaints of all point constraints of a construction. -/
def argumentFailures (c : Construction) (p : Prepared) (path : String) : List String :=
  pointFailures c.parameters p.parameters path
    ++ (c.members.zip p.members).flatMap fun (m, arguments) => pointFailures m.points arguments path

/-- Resolves all points of a construction. -/
def resolveAll (c : Construction) (f : Focus) : StateM State (Except Stop Prepared × Focus) := do
  match ← resolvePoints given c.parameters f with
  | (.error stop, f) => return (.error stop, f)
  | (.ok parameters, f) =>
    match ← resolveMembers given c.members f with
    | (.error stop, f) => return (.error stop, f)
    | (.ok members, f) =>
      return (.ok { parameters, members, account := f.context.account }, f)

/-- Prepares a construction at a path, with what it takes from a node. -/
def prepare (c : Construction) (node : Option (Node Instance)) (path : String) :
    StateM State (Except Stop Prepared × Option (Node Instance)) := do
  match c.classFailures (← get).property? path with
  | failure :: failures =>
    return (.error (.error (.validation path (failure :: failures))), node)
  | [] =>
    match ← given.substitutor.run with
    | .error stop => return (.error stop, node)
    | .ok substitutor =>
      let (result, f) ← resolveAll given c { node, context := { path, substitutor } }
      match result with
      | .error stop => return (.error stop, f.node)
      | .ok prepared =>
        match argumentFailures c prepared path with
        | failure :: failures =>
          return (.error (.error (.validation path (failure :: failures))), f.node)
        | [] => return (.ok prepared, f.node)

/-- Builds an instance by a construction at a path, and gives the node without what was taken. -/
def construct (c : Construction) (node : Option (Node Instance)) (path : String) :
    StateM State (Except Stop Instance × Option (Node Instance)) := do
  match ← prepare given c node path with
  | (.error stop, node) => return (.error stop, node)
  | (.ok prepared, node) =>
    State.onJournal (Journal.debug ("构建实例, 参数: " ++ prepared.account)
      [("target_type", c.type.shortName), ("kind", c.kind.name), ("path", path)])
    let result ← (build given c prepared.parameters prepared.members).run
    return (result, node)

/-! ## Factories -/

/-- A component with a field for each key: what is needed must be had, what is tried may fail. -/
def gatherFields (needs tries : List Key) : Assemble (List (String × FieldValue)) := do
  let needed ← needs.mapM fun key => do
    return (key.text, FieldValue.one (← given.ask key))
  let tried ← tries.mapM fun key => do
    match ← attempt (given.ask key) with
    | .ok i => return (key.text, FieldValue.one i)
    | .error cause => return (key.text, FieldValue.text cause.message)
  return needed ++ tried

/-- What a recipe makes of the instances that it gathers. -/
def gather (type : TypePath) (needs tries : List Key) (returns : Option Key) :
    Assemble Instance := do
  if !(← get).alive then
    raise (.constructionFailed "driver" "no injector")
  let fields ← gatherFields given needs tries
  match returns with
  | some key => given.ask key
  | none =>
    let component ← journal (Journal.newComponent type)
    allocate (.component (.mk component.name fields))

def makeLiteral (l : Literal) : Assemble Instance := do
  match l with
  | .scalar s => allocate (.scalar s)
  | .substitutor s => allocate (.substitutor s)
  | .component type => allocate (.component (← journal (Journal.newComponent type)))

/-- Follows a recipe. -/
def followRecipe (r : Recipe) : Assemble Instance := do
  journal (Journal.note (.made (r.label.getD r.type.shortName)))
  checkFault r.type.shortName r.fault
  match r.body with
  | .counter name type => allocate (.scalar (.ofNat type (← State.nextNumber name)))
  | .literal l => makeLiteral l
  | .gather needs tries returns => gather given r.type needs tries returns

/-- Fails unless somebody still holds the injector. -/
def whileAlive (key : Key) : Assemble Unit := do
  if !(← get).alive then
    raise (.injectorDropped key)

end

/-- Runs a step that fills a cell.  A cell that is being filled already is waited for, by the very
step that is to fill it: that never returns. -/
def whileFilling {α : Type} (cell : Nat) (step : Assemble α) : Assemble α :=
  ExceptT.mk fun s =>
    if cell ∈ s.filling then (.error .exhausted, s)
    else
      let (result, t) := step.run { s with filling := s.filling ++ [cell] }
      (result, { t with filling := t.filling.erase cell })

end Assemble

open Assemble in
/-- Runs a factory, which asks a provider for what it needs. -/
def Factory.run (given : Provider) : Factory → Assemble Instance
  | .guarded key inner => given.enter key (inner.run given)
  | .once cell inner => do
    match (← get).cell? cell with
    | some i => return i
    | none => whileFilling cell do
      let i ← inner.run given
      State.fillCell cell i
      return i
  | .memo store key inner => do
    match (← get).stored? store key with
    | some i => return i
    | none =>
      let i ← inner.run given
      -- the inner factory may have led to the same key, and then that instance stays
      match (← get).stored? store key with
      | some earlier => return earlier
      | none =>
        State.fillStore store key i
        return i
  | .constant i => return i
  | .recipe r rewrap => do
    let i ← followRecipe given r
    if rewrap then duplicate i else return i
  | .method key r => do
    whileAlive key
    duplicate (← followRecipe given r)
  | .construct key c => do
    whileAlive key
    let (result, _) ← Assemble.construct given c none c.type.shortName
    ExceptT.mk (pure result)

/-- Runs a factory with at most so many calls nested in each other. -/
def callWithin : Nat → Factory → Assemble Instance
  | 0, _ => throw .exhausted
  | depth + 1, f => f.run (Provider.of (callWithin depth))

/-- How deep calls can be nested: no deeper than there are keys to be in progress, and two more. -/
def State.depthFor (s : State) (f : Factory) : Nat :=
  s.knownKeys.length + f.keys.length + 2

/-- Runs a factory. -/
def Factory.call (f : Factory) : Assemble Instance := do
  callWithin ((← get).depthFor f) f

end ComponentAssembly

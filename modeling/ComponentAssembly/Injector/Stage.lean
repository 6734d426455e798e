import ComponentAssembly.Injector.Supply

/-!
Stages: how a construction creates, changes and finishes a component.

A step that fails leaves the fields that it had filled, and the arguments that it had not taken.
-/

namespace ComponentAssembly

/-- A component in the making, of a type of its own.  A foreign stage has no component in it. -/
structure Stage where
  type : TypePath
  component : Option Component
deriving Inhabited

namespace Assemble

variable (given : Provider)

/-- Runs takes one after the other; each fills a field of the component, named after a label. -/
def fill (label : String) :
    List FieldTake → Component → Arguments → StateM State (Except Stop Unit × Component × Arguments)
  | [], component, a => return (.ok (), component, a)
  | t :: rest, component, a => do
    match ← (t.take.perform given).run a with
    | (.error stop, a) => return (.error stop, component, a)
    | (.ok value, a) => fill label rest (component.push (label ++ t.field) value) a

/-- The complaint that a stage is not of the type that a step is made for. -/
def stageMismatch (type expected : TypePath) : AssemblyError :=
  .typeMismatch type.shortName expected.path

/-- Creates the stage of a construction. -/
def create (c : Construction) (a : Arguments) : StateM State (Except Stop Stage × Arguments) := do
  let component ← State.onJournal (Journal.newComponent c.type)
  match ← (checkFault c.type.shortName c.fault).run with
  | .error stop => return (.error stop, a)
  | .ok () =>
    let (result, component, a) ← fill given "" c.takes component a
    return (result.map fun () => { type := c.stage, component := some component }, a)

/-- Applies a member of a construction to a stage. -/
def apply (c : Construction) (m : Member) (stage : Stage) (a : Arguments) :
    StateM State (Except Stop Unit × Stage × Arguments) := do
  if stage.type ≠ m.stage then
    return (.error (.error (stageMismatch c.type m.stage)), stage, a)
  match stage.component with
  -- a foreign stage of the right type has nothing to assign to
  | none => return (.ok (), stage, a)
  | some component =>
    State.onJournal (Journal.note (.assigned component.name m.name))
    match ← (checkFault c.type.shortName m.fault).run with
    | .error stop => return (.error stop, stage, a)
    | .ok () =>
      let (result, component, a) ← fill given (m.name ++ ".") m.takes component a
      return (result, { stage with component := some component }, a)

/-- Finishes a stage into an instance. -/
def finish (c : Construction) (stage : Stage) : Assemble Instance := do
  if stage.type ≠ c.stage then
    raise (stageMismatch c.type c.stage)
  match stage.component with
  | none => raise (stageMismatch c.type c.stage)
  | some component =>
    if c.kind == .builder then
      journal (Journal.note (.built component.name))
      checkFault c.type.shortName c.finishFault
    allocate (.component component)

/-- Applies members in order, each to the arguments of its own points. -/
def applyMembers (c : Construction) :
    List Member → List (List Argument) → Stage → Assemble Stage
  | m :: members, values :: rest, stage => do
    let a := Arguments.ofPoints (c.type.shortName ++ "." ++ m.name) m.points values
    let (result, stage, _) ← apply given c m stage a
    match result with
    | .error stop => throw stop
    | .ok () => applyMembers c members rest stage
  | _, _, stage => return stage

/-- Builds an instance from the arguments of the parameters and of the points of each member. -/
def build (c : Construction) (parameters : List Argument) (members : List (List Argument)) :
    Assemble Instance := do
  let (result, _) ← create given c (.ofPoints c.type.shortName c.parameters parameters)
  match result with
  | .error stop => throw stop
  | .ok stage =>
    let stage ← applyMembers given c c.members members stage
    finish c stage

end Assemble

end ComponentAssembly

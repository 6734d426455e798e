import ComponentAssembly.Injector.Binding

/-!
Supply: what the steps of factories, constructions and recipes ask for, and how takes use it.

The steps ask a `Provider`.  The one of an injector (`Provider.of`) looks factories up and runs them
by `call`; any other that answers the same questions can stand in its place.
-/

namespace ComponentAssembly

/-- What the steps of factories, constructions and recipes ask for. -/
structure Provider where
  /-- The string substitutor, if one can be had. -/
  substitutor : Assemble (Option Substitutor)
  /-- The instance of a dependency that is not deferred, or none where it may be absent. -/
  supply : InjectionPoint → Assemble (Option Instance)
  /-- The instance of a key. -/
  ask : Key → Assemble Instance
  /-- The instance that a new supplier gives, as a type. -/
  draw : Lookup → TypePath → Assemble Instance
  /-- Runs a step with a key in progress. -/
  enter : Key → Assemble Instance → Assemble Instance

namespace Assemble

def allocate (value : Value) : Assemble Instance :=
  journal (Journal.allocate value)

def duplicate (i : Instance) : Assemble Instance :=
  allocate i.value

/-- Fails as a fault says.  A fault of limited duration is over after so many trials. -/
def checkFault (owner : String) (fault : Option Fault) : Assemble Unit := do
  match fault with
  | none => return
  | some f =>
    let before ← State.nextTrial owner f.message
    let holds := match f.times with
      | some times => decide (before < times)
      | none => true
    if holds then
      raise (if f.validation then .validation owner [f.message]
        else .constructionFailed owner f.message)

section

variable (call : Factory → Assemble Instance)

/-- The instance of a supplier.  Its factory is looked up until it is found, and from then on kept;
it is called each time. -/
def pull (s : Supplier) : Assemble Instance := do
  match (← get).suppliers[s.id]? with
  | none => raise (.noConstruction s.key)
  | some cell =>
    let factory ← match cell.factory with
      | some factory => pure factory
      | none => do
        let factory ← findFactory cell.lookup
        State.fillSupplier s.id factory
        pure factory
    let i ← call factory
    ofExcept (i.downcast s.type s.key.text)

/-- The string substitutor of the injector, if one is bound.  One that cannot be had is done
without. -/
def currentSubstitutor : Assemble (Option Substitutor) := do
  match (← get).factory? Substitutor.key with
  | none => return none
  | some factory =>
    let result ← attempt do
      let i ← call factory
      ofExcept (i.downcast TypePath.substitutor Substitutor.name)
    match result with
    | .ok i =>
      match i.value with
      | .substitutor s => return some s
      | _ => return none
    | .error cause =>
      journal (Journal.warn "字符串替换器不可用" [("error", cause.message)])
      return none

end

end Assemble

open Assemble in
/-- The provider of an injector, where `call` runs the factories that are looked up. -/
def Provider.of (call : Factory → Assemble Instance) : Provider where
  substitutor := currentSubstitutor call
  supply p := do
    match ← dependencyFactory p with
    | none => return none
    | some factory => return some (← call factory)
  ask key := do call (← getFactory key)
  draw lookup type := do pull call (← State.newSupplier lookup type)
  enter := withGuard

instance : Coe (Factory → Assemble Instance) Provider := ⟨Provider.of⟩

namespace Assemble

/-! ## Takes -/

variable (given : Provider)

def takeOne (path : String) (argument : Argument) (type : TypePath) : Assemble Instance := do
  match argument with
  | .object i => ofExcept (i.downcast type path)
  | .scalar _ i => ofExcept (i.downcast type path)
  | .objects [i] => ofExcept (i.downcast type path)
  | .deferred lookup => given.draw lookup type
  | _ => raise (.missingValue path)

def takeAll (path : String) (argument : Argument) (type : TypePath) : Assemble (List Instance) :=
  match argument with
  | .objects is => is.mapM fun i => ofExcept (i.downcast type path)
  | .object i => return [← ofExcept (i.downcast type path)]
  | .scalar _ i => return [← ofExcept (i.downcast type path)]
  | .absent => return []
  | .deferred _ => raise (.typeMismatch path type.listOf.path)

def takeSupplier (path : String) (entry : ArgumentEntry) (type : TypePath) : Assemble Supplier :=
  match entry.argument with
  | .deferred lookup => State.newSupplier lookup type
  | .object i => State.newSupplier (.resolved entry.key (.constant i)) type
  | _ => raise (.missingValue path)

end Assemble

/-! ## Consuming arguments -/

/-- Steps that consume arguments from their queue.  A step that fails keeps what it has consumed. -/
abbrev Consume := ExceptT Stop (StateT Arguments (StateM State))

namespace Consume

/-- A step that leaves the queue alone. -/
def lift {α : Type} (step : Assemble α) : Consume α :=
  ExceptT.mk (StateT.lift step.run)

/-- The next argument, which is removed. -/
def next : Consume ArgumentEntry := do
  let a ← getThe Arguments
  match a.entries with
  | [] => throw (.error a.exhausted)
  | entry :: _ =>
    set a.rest
    return entry

def skip : Consume Unit := do
  let _ ← next

/-- Where an argument belongs. -/
def pathOf (entry : ArgumentEntry) : Consume String :=
  return (← getThe Arguments).pathOf entry

section

variable (given : Provider) (type : TypePath)

/-- The one instance of the next argument. -/
def one : Consume Instance := do
  let entry ← next
  lift (Assemble.takeOne given (← pathOf entry) entry.argument type)

/-- The one instance of the next argument, unless that is absent. -/
def optional : Consume (Option Instance) := do
  if (← getThe Arguments).nextIsAbsent then
    -- an empty queue counts as absent too; then it is `skip` that fails
    skip
    return none
  return some (← one given type)

def value : Consume Instance := do
  lift (Assemble.duplicate (← one given type))

/-- A copy of the one instance of the next argument, unless that is absent. -/
def optionalValue : Consume (Option Instance) := do
  match ← optional given type with
  | none => return none
  | some i => return some (← lift (Assemble.duplicate i))

def all : Consume (List Instance) := do
  let entry ← next
  lift (Assemble.takeAll (← pathOf entry) entry.argument type)

/-- Copies of all instances of the next argument. -/
def allValues : Consume (List Instance) := do
  lift ((← all type).mapM Assemble.duplicate)

/-- A supplier of the instances of the next argument. -/
def supplier : Consume Supplier := do
  let entry ← next
  lift (Assemble.takeSupplier (← pathOf entry) entry type)

end

end Consume

/-- What a take that found an instance or none leaves in its field. -/
def FieldValue.ofOption : Option Instance → FieldValue
  | none => .absent
  | some i => .one i

open Consume in
/-- Makes a take from the queue, and gives what it leaves in its field. -/
def Take.perform (given : Provider) : Take → Consume FieldValue
  | .typed .object type => return .one (← one given type)
  | .typed .optional type => return .ofOption (← optional given type)
  | .typed .value type => return .one (← value given type)
  | .typed .optionalValue type => return .ofOption (← optionalValue given type)
  | .typed .all type => return .many (← all type)
  | .typed .allValues type => return .many (← allValues type)
  | .typed .supplier type => return .supplier (← supplier type)
  | .skip => do
    Consume.skip
    return .text "skipped"
  | .remaining => return .text (toString (← getThe Arguments).remaining)
  | .nextIsAbsent =>
    return .text (if (← getThe Arguments).nextIsAbsent then "true" else "false")

/-- What a take gives of a queue. -/
def Assemble.take (given : Provider) (t : Take) (a : Arguments) : Assemble FieldValue :=
  ExceptT.mk do
    let (result, _) ← (t.perform given).run a
    return result

/-- What a take leaves of a queue: one argument less if the take consumes, whether it fails or not. -/
def Take.after (t : Take) (a : Arguments) : Arguments :=
  match t with
  | .typed .. => a.rest
  | .skip => a.rest
  | .remaining => a
  | .nextIsAbsent => a

end ComponentAssembly

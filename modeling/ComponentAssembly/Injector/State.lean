import ComponentAssembly.Argument
import ComponentAssembly.Properties

/-!
The state of an injector: its tables, what its scopes and suppliers keep, the keys in progress, and
the journal.

`Assemble` runs on a state.  A step that fails keeps all that happened before it.
-/

namespace ComponentAssembly

/-- Where a binding comes from. -/
inductive Origin where
  | explicit (source : String)
  | implicit
deriving DecidableEq, Inhabited

namespace Origin

def isExplicit : Origin → Bool
  | explicit _ => true
  | implicit => false

def text : Origin → String
  | explicit source => source
  | implicit => "<implicit>"

end Origin

/-- A key, the factory that answers it, and where the binding comes from. -/
structure Binding where
  key : Key
  factory : Factory
  origin : Origin
deriving Inhabited

/-- What an injector knows. -/
structure Tables where
  /-- At most one binding per key. -/
  bindings : List Binding := []
  /-- The scope of each marker. -/
  scopes : List (TypePath × Scope) := []
  /-- For each registered type the type whose declared construction builds it. -/
  constructions : List (TypePath × TypePath) := []
deriving Inhabited

namespace Tables

/-- The binding of a key. -/
def binding? (t : Tables) (key : Key) : Option Binding :=
  t.bindings.find? (·.key == key)

/-- Puts a binding in the place of the one of its key, or at the end. -/
def put (t : Tables) (b : Binding) : Tables :=
  if t.bindings.any (·.key == b.key) then
    { t with bindings := t.bindings.map fun old => if old.key == b.key then b else old }
  else { t with bindings := t.bindings ++ [b] }

def isExplicit (t : Tables) (key : Key) : Bool :=
  match t.binding? key with
  | some b => b.origin.isExplicit
  | none => false

/-- The scope of a marker. -/
def scope? (t : Tables) (marker : TypePath) : Option Scope :=
  (t.scopes.find? fun (m, _) => m == marker).map (·.2)

/-- The type whose construction builds a registered type. -/
def construction? (t : Tables) (type : TypePath) : Option TypePath :=
  (t.constructions.find? fun (registered, _) => registered == type).map (·.2)

end Tables

/-- Sets the value of a key in a table. -/
def assign {κ ν : Type} [BEq κ] (key : κ) (value : ν) : List (κ × ν) → List (κ × ν)
  | [] => [(key, value)]
  | (k, v) :: rest => if k == key then (k, value) :: rest else (k, v) :: assign key value rest

/-- What is kept for a key: its first instance, once that is made. -/
structure Cell where
  owner : Key
  kept : Option Instance := none
deriving Inhabited

/-- What a supplier keeps: how to look its factory up, and the factory once it is found. -/
structure SupplierCell where
  lookup : Lookup
  factory : Option Factory := none
deriving Inhabited

/-- The state of an injector. -/
structure State where
  /-- The declared constructions; a type without one is built from nothing. -/
  declarations : List (TypePath × Construction) := []
  tables : Tables := {}
  properties : PropertySource := .environment
  environment : Texts := []
  /-- Whether what a configured node leaves over is reported. -/
  reportUnmatched : Bool := true
  /-- Whether somebody still holds the injector. -/
  alive : Bool := true
  /-- The keys whose factories are running, the outermost first. -/
  inProgress : List Key := []
  /-- The cells whose first instance is being made. -/
  filling : List Nat := []
  cells : List Cell := []
  stores : List (List (Key × Instance)) := []
  suppliers : List SupplierCell := []
  counters : List (String × Nat) := []
  trials : List ((String × String) × Nat) := []
  lookups : List (Nat × Nat) := []
  journal : Journal := {}
deriving Inhabited

/-- Why a step does not return. -/
inductive Stop where
  | error (cause : AssemblyError)
  /-- The step would not return: the bound on nested calls is used up, or a cell is waited for by the
  step that fills it. -/
  | exhausted
deriving DecidableEq, Inhabited

/-- Steps that read and change the state and may fail. -/
abbrev Assemble := ExceptT Stop (StateM State)

namespace State

/-- The construction that a type declares. -/
def declared (s : State) (type : TypePath) : Construction :=
  match s.declarations.find? fun (t, _) => t == type with
  | some (_, c) => c
  | none => .plain type

def property? (s : State) (name : String) : Option String :=
  s.properties.get? s.environment name

def factory? (s : State) (key : Key) : Option Factory :=
  (s.tables.binding? key).map (·.factory)

def onJournal {α : Type} (step : StateM Journal α) : StateM State α :=
  modifyGet fun s =>
    let (a, journal) := step s.journal
    (a, { s with journal })

def onTables (change : Tables → Tables) : StateM State Unit :=
  modify fun s => { s with tables := change s.tables }

/-- Counts one more use of a name in a table of counts, and gives the count before. -/
def counted {κ : Type} [BEq κ] (key : κ) (counts : List (κ × Nat)) : Nat × List (κ × Nat) :=
  let before := ((counts.find? fun (k, _) => k == key).map (·.2)).getD 0
  (before, assign key (before + 1) counts)

def nextNumber (name : String) : StateM State Nat :=
  modifyGet fun s =>
    let (before, counters) := counted name s.counters
    (before + 1, { s with counters })

/-- Counts one more trial of a fault, and gives the trials before. -/
def nextTrial (owner message : String) : StateM State Nat :=
  modifyGet fun s =>
    let (before, trials) := counted (owner, message) s.trials
    (before, { s with trials })

/-- Counts one more use of a numbered lookup, and gives the uses before. -/
def nextLookup (id : Nat) : StateM State Nat :=
  modifyGet fun s =>
    let (before, lookups) := counted id s.lookups
    (before, { s with lookups })

def newCell (owner : Key) : StateM State Nat :=
  modifyGet fun s => (s.cells.length, { s with cells := s.cells ++ [{ owner }] })

/-- A fresh store for instances by key. -/
def newStore : StateM State Nat :=
  modifyGet fun s => (s.stores.length, { s with stores := s.stores ++ [[]] })

def newSupplier (lookup : Lookup) (type : TypePath) : StateM State Supplier :=
  modifyGet fun s =>
    ({ id := s.suppliers.length, key := lookup.key, type },
      { s with suppliers := s.suppliers ++ [{ lookup }] })

def cell? (s : State) (cell : Nat) : Option Instance :=
  (s.cells[cell]?).bind (·.kept)

def owner? (s : State) (cell : Nat) : Option Key :=
  (s.cells[cell]?).map (·.owner)

def fillCell (cell : Nat) (value : Instance) : StateM State Unit :=
  modify fun s => { s with cells := s.cells.modify cell fun c => { c with kept := some value } }

/-- The instance of a key in a store. -/
def stored? (s : State) (store : Nat) (key : Key) : Option Instance :=
  match s.stores[store]? with
  | some entries => (entries.find? fun (k, _) => k == key).map (·.2)
  | none => none

def fillStore (store : Nat) (key : Key) (value : Instance) : StateM State Unit :=
  modify fun s =>
    { s with stores := s.stores.modify store fun entries => entries ++ [(key, value)] }

/-- Keeps the factory that a supplier has found. -/
def fillSupplier (id : Nat) (factory : Factory) : StateM State Unit :=
  modify fun s =>
    { s with suppliers := s.suppliers.modify id fun c => { c with factory := some factory } }

/-! ## Keys that resolution can reach -/

/-- The keys of all declared points. -/
def declaredKeys (s : State) : List Key :=
  s.declarations.flatMap fun (_, c) => c.keys

/-- The keys that a supplier can lead to. -/
def supplierKeys (c : SupplierCell) : List Key :=
  c.lookup.keys ++ (match c.factory with
    | some f => f.keys
    | none => [])

/-- All keys that a call can enter: those of declared points, of bound factories, of suppliers and
of the string substitutor. -/
def knownKeys (s : State) : List Key :=
  Substitutor.key :: s.declaredKeys
    ++ s.tables.bindings.flatMap (fun b => b.key :: b.factory.keys)
    ++ s.suppliers.flatMap supplierKeys

end State

namespace Assemble

def raise {α : Type} (cause : AssemblyError) : Assemble α :=
  throw (.error cause)

def journal {α : Type} (step : StateM Journal α) : Assemble α :=
  ExceptT.lift (State.onJournal step)

/-- Goes on with a result, or fails with its error. -/
def ofExcept {α : Type} : Except AssemblyError α → Assemble α
  | .ok a => pure a
  | .error cause => raise cause

/-- The result of a step, whether it fails or not.  Only a used up bound is passed on. -/
def attempt {α : Type} (step : Assemble α) : Assemble (Except AssemblyError α) :=
  ExceptT.mk do
    match ← step.run with
    | .ok a => return .ok (.ok a)
    | .error (.error cause) => return .ok (.error cause)
    | .error .exhausted => return .error .exhausted

end Assemble

end ComponentAssembly

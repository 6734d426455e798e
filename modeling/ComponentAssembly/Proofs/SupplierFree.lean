import ComponentAssembly.Injector.Access
import ComponentAssembly.Proofs.Acyclic

/-!
# Steps that are free of suppliers

Registrations and lookups neither look at suppliers nor change them: with any others in their place they
do the same (`SupplierFree`).
-/

namespace ComponentAssembly

open Assemble

/-- A step that neither looks at suppliers nor changes them. -/
def SupplierFree {α : Type} (m : StateM State α) : Prop :=
  ∀ s suppliers, m { s with suppliers } = ((m s).1, { (m s).2 with suppliers })

namespace SupplierFree

variable {α β : Type}

theorem pure (a : α) : SupplierFree (Pure.pure a) :=
  fun _ _ => rfl

theorem bind {m : StateM State α} {f : α → StateM State β} (h : SupplierFree m)
    (hf : ∀ a, SupplierFree (f a)) : SupplierFree (m >>= f) := by
  intro s suppliers
  show f (m { s with suppliers }).1 (m { s with suppliers }).2 = _
  rw [h s suppliers]
  exact hf _ _ _

theorem andThen {m : Assemble α} {f : α → Assemble β} (h : SupplierFree m)
    (hf : ∀ a, SupplierFree (f a)) : SupplierFree (m >>= f : Assemble β) := by
  refine bind (f := ExceptT.bindCont f) h fun r => ?_
  cases r with
  | ok a => exact hf a
  | error stop => exact pure _

/-- A first step that reads the state, but not its suppliers. -/
theorem read {f : State → Assemble β} (hsame : ∀ s suppliers, f { s with suppliers } = f s)
    (hf : ∀ s, SupplierFree (f s)) : SupplierFree (get >>= f : Assemble β) := by
  intro s suppliers
  show f { s with suppliers } { s with suppliers } = _
  rw [hsame]
  exact hf s s suppliers

theorem suppliers_eq {m : StateM State α} (h : SupplierFree m) (s : State) :
    (m s).2.suppliers = s.suppliers :=
  congrArg (·.2.suppliers) (h s s.suppliers)

theorem forIn {as : List α} {body : α → Unit → Assemble (ForInStep Unit)}
    (hbody : ∀ a u, SupplierFree (body a u)) :
    SupplierFree (ForIn.forIn as () body : Assemble Unit) := by
  induction as with
  | nil => exact pure _
  | cons a as ih =>
    rw [List.forIn_cons]
    refine andThen (hbody a ()) fun step => ?_
    cases step with
    | done _ => exact pure _
    | yield _ => exact ih

theorem journal (step : StateM Journal α) : SupplierFree (Assemble.journal step) :=
  fun _ _ => rfl

/-! ## Registrations -/

theorem insertBinding (b : Binding) : SupplierFree (Assemble.insertBinding b) := by
  have hlog : ∀ message, SupplierFree (do
      logBinding b message
      State.onTables (·.put b) : Assemble Unit) :=
    fun message => andThen (journal _) fun _ _ _ => rfl
  refine read (fun _ _ => rfl) fun s => ?_
  cases s.tables.binding? b.key with
  | none => exact hlog _
  | some old =>
    dsimp only
    split
    · exact hlog _
    · split
      · exact fun _ _ => rfl
      · exact hlog _

theorem scopeFor (marker : Option TypePath) : SupplierFree (Assemble.scopeFor marker) := by
  cases marker with
  | none => exact pure _
  | some marker =>
    refine read (fun _ _ => rfl) fun s => ?_
    cases s.tables.scope? marker with
    | some scope => exact pure _
    | none => exact andThen (journal _) fun _ => pure _

theorem wrapIn (scope : Scope) (key : Key) (inner : Factory) :
    SupplierFree (Assemble.wrapIn scope key inner) := by
  cases scope <;> exact fun _ _ => rfl

theorem installMethod (m : Module) (method : FactoryMethod) :
    SupplierFree (Assemble.installMethod m method) := by
  refine andThen (scopeFor _) fun scope => andThen (wrapIn scope _ _) fun kept => ?_
  refine andThen (forIn fun key _ => ?_) fun _ => pure _
  exact andThen (insertBinding _) fun _ => pure _

theorem declareModule (m : Module) : SupplierFree (Assemble.declareModule m) := by
  refine andThen (journal _) fun _ => ?_
  cases m.clash with
  | some cause => exact fun _ _ => rfl
  | none => exact journal _

theorem installModule (m : Module) : SupplierFree (Assemble.installModule m) := by
  refine andThen (declareModule m) fun _ => read (fun _ _ => rfl) fun s => ?_
  cases firstConflict s m with
  | some cause => exact fun _ _ => rfl
  | none =>
    refine andThen (forIn fun method _ => ?_) fun _ => journal _
    exact andThen (installMethod m method) fun _ => pure _

theorem registerScope (marker : TypePath) (name : ScopeName) :
    SupplierFree (do Assemble.registerScope marker (← newScope name) : Assemble Unit) := by
  cases name <;> exact fun _ _ => rfl

/-! ## Lookups -/

theorem checkAcyclic (s : State) (suppliers : List SupplierCell) (key : Key) (c : Construction) :
    State.checkAcyclic { s with suppliers } key c = s.checkAcyclic key c :=
  State.checkAcyclic_congr (s := s) (t := { s with suppliers }) rfl (fun _ => rfl) key c

theorem implicitFactory (key : Key) (maker : TypePath) :
    SupplierFree (Assemble.implicitFactory key maker) := by
  refine read (fun s suppliers => ?_) fun s => ?_
  · show (do Assemble.implicitFactory.liftExcept (State.checkAcyclic { s with suppliers } key _); _) = _
    rw [checkAcyclic]
    rfl
  · refine andThen (f := fun _ => _) ?_ fun _ => ?_
    · cases s.checkAcyclic key (s.declared maker) <;> exact fun _ _ => rfl
    · refine andThen (scopeFor _) fun scope => andThen (wrapIn scope key _) fun kept => ?_
      refine read (fun _ _ => rfl) fun t => ?_
      cases t.tables.binding? key with
      | some b => exact pure _
      | none => exact andThen (journal _) fun _ => andThen (fun _ _ => rfl) fun _ => pure _

theorem getFactory (key : Key) : SupplierFree (Assemble.getFactory key) := by
  refine read (fun _ _ => rfl) fun s => ?_
  cases s.factory? key with
  | some f => exact pure _
  | none =>
    dsimp only
    cases s.tables.construction? key.type with
    | some maker => exact implicitFactory key maker
    | none => exact fun _ _ => rfl

theorem dependencyFactory (p : InjectionPoint) : SupplierFree (Assemble.dependencyFactory p) := by
  refine read (fun _ _ => rfl) fun s => ?_
  cases p.candidates.findSome? s.factory? with
  | some f => exact pure _
  | none =>
    dsimp only
    cases p.construction.or (s.tables.construction? p.key.type) with
    | some maker => exact andThen (implicitFactory p.key maker) fun _ => pure _
    | none =>
      dsimp only
      split <;> exact fun _ _ => rfl

theorem findFactory (lookup : Lookup) : SupplierFree (Assemble.findFactory lookup) := by
  cases lookup with
  | resolved key f => exact pure _
  | dependency p =>
    refine read (fun _ _ => rfl) fun s => ?_
    split
    · exact fun _ _ => rfl
    · refine andThen (dependencyFactory p) fun found => ?_
      cases found <;> exact fun _ _ => rfl
  | numbered id key failures f =>
    refine andThen (journal _) fun _ => andThen (fun _ _ => rfl) fun count => ?_
    split <;> exact fun _ _ => rfl

end SupplierFree

end ComponentAssembly

import ComponentAssembly.Proofs.LazyLookups
import ComponentAssembly.Proofs.Redirection
import ComponentAssembly.Proofs.SupplierFree

/-!
# Dependencies are looked up as keys are

A dependency has more keys than one, and may bring the construction of its own key.  Its lookup is that
of a key all the same:

    a key is bound          the factory of the first one that is, as if looked up by that key
    a construction is had   getFactoryBy it, under the key of the dependency
    neither                 nothing if the key is qualified, else the error of the lookup by key

A supplier of a dependency looks it up in the same way, once somebody asks.
-/

namespace ComponentAssembly

open Assemble

/-- The factory of a key, for which a construction may be given. -/
def Assemble.getFactoryBy (maker? : Option TypePath) (key : Key) : Assemble Factory := do
  match (← get).factory? key with
  | some factory => return factory
  | none =>
    match maker? with
    | some maker => implicitFactory key maker
    | none => raise (.noConstruction key)

namespace State

variable {s : State} {key : Key} {p : InjectionPoint}

/-- A key is looked up by the construction that is registered for its type. -/
theorem getFactory_eq_by (s : State) (key : Key) :
    getFactory key s = getFactoryBy (s.tables.construction? key.type) key s := rfl

theorem getFactoryBy_unbound (maker : TypePath) (h : s.tables.binding? key = none) :
    getFactoryBy (some maker) key s = implicitFactory key maker s := by
  have hnone : s.factory? key = none := by simp [factory?, h]
  simp [getFactoryBy, hnone]

@[simp]
theorem chosen?_eq_none_iff :
    s.chosen? p = none ↔ ∀ key ∈ p.candidates, s.tables.binding? key = none :=
  List.findSome?_eq_none_iff

/-- A dependency one of whose keys is bound is looked up as the first such key. -/
theorem dependencyFactory_first {before after : List Key} {b : Binding}
    (hcandidates : p.candidates = before ++ key :: after)
    (hbefore : ∀ other ∈ before, s.tables.binding? other = none)
    (hb : s.tables.binding? key = some b) :
    dependencyFactory p s = (.ok (some b.factory), s) ∧ getFactory key s = (.ok b.factory, s) := by
  have hchosen : s.chosen? p = some b :=
    List.findSome?_eq_some_iff.mpr ⟨before, key, after, hcandidates, hb, hbefore⟩
  exact ⟨dependencyFactory_chosen hchosen, getFactory_bound hb⟩

section

variable {maker : TypePath} (hunbound : ∀ key ∈ p.candidates, s.tables.binding? key = none)
  (hmaker : p.construction.or (s.tables.construction? p.key.type) = some maker)
include hunbound hmaker

/-- Any other dependency is looked up as its own key would be by the construction that is had for it. -/
theorem dependencyFactory_by : dependencyFactory p s =
    (some <$> getFactoryBy (some maker) p.key : Assemble (Option Factory)) s := by
  have hchosen := chosen?_eq_none_iff.mpr hunbound
  rw [dependencyFactory_unbound hchosen, hmaker]
  exact map_same (getFactoryBy_unbound maker (unbound_of_chosen? hchosen)).symm _

/-- Afterwards a lookup by its own key finds the same. -/
theorem dependencyFactory_found :
    (∃ f t, dependencyFactory p s = (.ok (some f), t) ∧ getFactory p.key t = (.ok f, t)) ∨
      ∃ chain, dependencyFactory p s = (.error (.error (.circularDependency chain)), s) := by
  have hchosen := chosen?_eq_none_iff.mpr hunbound
  have hkey := unbound_of_chosen? hchosen
  have hrun := dependencyFactory_unbound hchosen
  rw [hmaker] at hrun
  rcases implicitFactory_run maker hkey with ⟨f, t, hok, hadds⟩ | ⟨chain, hfail⟩
  · exact .inl ⟨f, t, by simp [hrun, hok], getFactory_bound (hadds.binding? hkey)⟩
  · exact .inr ⟨chain, by simp [hrun, hfail]⟩

end

/-! ## Suppliers -/

/-- The last supplier keeps a factory. -/
theorem fillSupplier_last {c : SupplierCell} {suppliers : List SupplierCell} (f : Factory)
    (h : s.suppliers = suppliers ++ [c]) : (fillSupplier suppliers.length f s).2 =
      { s with suppliers := suppliers ++ [{ c with factory := some f }] } := by
  show { s with suppliers := s.suppliers.modify suppliers.length _ } = _
  rw [h, List.modify_eq_take_cons_drop (by simp)]
  simp

end State

end ComponentAssembly

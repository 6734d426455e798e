import ComponentAssembly.Proofs.Agreement
import ComponentAssembly.Proofs.Evolution

/-!
# What lookups do

A lookup gives a factory that is bound, or binds one implicitly, or fails and leaves the state as it
was.

    getFactory key          gives what key is bound to, or gains a binding of key
    dependencyFactory p     gives what the first bound key of p is bound to, or gains one of p.key
-/

namespace ComponentAssembly

open Assemble

/-- The scope that a marker stands for. -/
def Tables.scopeOf (t : Tables) (marker : Option TypePath) : Scope :=
  (marker.bind t.scope?).getD .unscoped

namespace State

variable {U : List Key} {s : State}

/-! ## Scopes -/

theorem scopeFor_spec (marker : Option TypePath) (s : State) : ∃ log, scopeFor marker s =
    (.ok (s.tables.scopeOf marker), { s with journal := { s.journal with log } }) := by
  unfold scopeFor Tables.scopeOf
  cases marker with
  | none => exact ⟨_, rfl⟩
  | some marker =>
    cases hscope : s.tables.scope? marker with
    | some scope => exact ⟨s.journal.log, by simp [hscope]⟩
    | none => exact ⟨_, by simp [hscope]; rfl⟩

theorem wrapIn_spec (h : s.Sound U) (scope : Scope) (key : Key)
    (inner : Factory) (hcore : inner.isCore) :
    ∃ kept t, wrapIn scope key inner s = (.ok kept, t) ∧ s.Leads U t ∧ t.tables = s.tables ∧
      Factory.Kept inner kept ∧ kept.Tidy t.owner? (some key) := by
  cases scope with
  | unscoped => exact ⟨_, _, rfl, .refl h, rfl, .bare, .of_isCore hcore⟩
  | singleton =>
    exact ⟨_, _, rfl, h.newCell key, rfl, .once _, ⟨key, rfl, owner?_newCell key⟩, hcore⟩
  | memo store =>
    refine ⟨_, _, rfl, h.noted _ _ _ _, rfl, .memo store key, ?_⟩
    exact Factory.Tidy.of_isCore (f := inner) hcore

/-! ## Implicit bindings -/

/-- If no cycle can be reached, a scope wraps the construction, and the key is bound unless it is
by then. -/
theorem implicitFactory_passed {key : Key} {maker : TypePath}
    (hcheck : s.checkAcyclic key (s.declared maker) = .ok ()) :
    ∃ log told : List LogRecord, ∀ kept t,
      wrapIn (s.tables.scopeOf (s.declared maker).scope) key (.construct key (s.declared maker))
        { s with journal := { s.journal with log } } = (.ok kept, t) →
      implicitFactory key maker s = match t.tables.binding? key with
        | some b => (.ok b.factory, t)
        | none => (.ok (.guarded key kept), { t with
            journal := { t.journal with log := t.journal.log ++ told }
            tables := t.tables.put { key, factory := .guarded key kept, origin := .implicit } }) := by
  obtain ⟨log, hscope⟩ := scopeFor_spec (s.declared maker).scope s
  have hpassed : implicitFactory.liftExcept (.ok ()) s = (.ok (), s) := rfl
  refine ⟨log, [{ level := .debug, message := "创建隐式绑定", fields :=
    [("key", key.text), ("kind", (s.declared maker).kind.name)] }], fun kept t hwrap => ?_⟩
  cases hb : t.tables.binding? key with
  | some b => simp [implicitFactory, hcheck, hpassed, hscope, hwrap, hb]
  | none =>
    simp [implicitFactory, hcheck, hpassed, hscope, hwrap, hb]
    rfl

/-- An unbound key gains a binding if no cycle can be reached from it. -/
theorem implicitFactory_ok (h : s.Sound U) {key : Key} {maker : TypePath}
    (hunbound : s.tables.binding? key = none) (hkey : key ∈ U)
    (hcheck : s.checkAcyclic key (s.declared maker) = .ok ()) :
    ∃ f t, implicitFactory key maker s = (.ok f, t) ∧ s.Gains U key (s.declared maker) f t := by
  obtain ⟨log, told, hrun⟩ := implicitFactory_passed hcheck
  have hnoted := h.noted { s.journal with log } s.counters s.trials s.lookups
  obtain ⟨kept, t, hwrap, hleads, htables, hkept, htidy⟩ := wrapIn_spec hnoted.sound
    (s.tables.scopeOf (s.declared maker).scope) key (.construct key (s.declared maker)) rfl
  have hrun := hrun kept t hwrap
  have hleads := hnoted.trans hleads
  have hlogged := hleads.sound.noted { t.journal with log := t.journal.log ++ told } t.counters
    t.trials t.lookups
  have hunbound' : t.tables.binding? key = none := by
    rw [htables]
    exact hunbound
  rw [hunbound'] at hrun
  rw [← hleads.evolves.declared maker] at hkept
  have hgains := hlogged.sound.gains hunbound' hkey hkept htidy
  rw [hleads.evolves.declared maker] at hkept
  refine ⟨.guarded key kept, _, hrun, (hleads.trans hlogged).trans hgains.leads, ⟨kept, rfl, hkept⟩,
    hgains.bound, fun other hother => ?_⟩
  rw [hgains.others other hother]
  show t.tables.binding? other = _
  rw [htables]

/-- If a cycle can be reached, nothing changes. -/
theorem implicitFactory_error {key : Key} {maker : TypePath} {stop : Stop}
    (hcheck : s.checkAcyclic key (s.declared maker) = .error stop) :
    implicitFactory key maker s = (.error stop, s) := by
  simp [implicitFactory, implicitFactory.liftExcept, hcheck]

/-- What becomes of a key for which a binding is to be made. -/
theorem implicitFactory_spec (h : s.Sound U) {key : Key} (maker : TypePath)
    (hunbound : s.tables.binding? key = none) (hkey : key ∈ U) :
    (∃ chain, s.checkAcyclic key (s.declared maker) = .error (.error (.circularDependency chain)) ∧
      implicitFactory key maker s = (.error (.error (.circularDependency chain)), s)) ∨
    s.checkAcyclic key (s.declared maker) = .ok () ∧
      ∃ f t, implicitFactory key maker s = (.ok f, t) ∧ s.Gains U key (s.declared maker) f t := by
  rcases s.checkAcyclic_total key (s.declared maker) with ⟨hcheck, -⟩ | ⟨cycle, hcheck, -⟩
  · exact .inr ⟨hcheck, implicitFactory_ok h hunbound hkey hcheck⟩
  · exact .inl ⟨_, hcheck, implicitFactory_error hcheck⟩

/-! ## Lookups by key -/

theorem factory?_of_binding? {key : Key} {b : Binding} (h : s.tables.binding? key = some b) :
    s.factory? key = some b.factory := by
  simp [factory?, h]

theorem getFactory_bound {key : Key} {b : Binding} (h : s.tables.binding? key = some b) :
    getFactory key s = (.ok b.factory, s) := by
  simp [getFactory, factory?_of_binding? h]

theorem Gains.found {key : Key} {c : Construction} {f : Factory} {t : State}
    (h : s.Gains U key c f t) :
    t.Admits U f ∧ f.isGuarded := by
  have hb := (mem_of_binding? h.bound).1
  exact ⟨h.leads.sound.admits hb, h.leads.sound.guarded _ hb⟩

/-- What a lookup does: it finds a factory, or fails. -/
def Finds (U : List Key) (s : State) (P : Factory → Prop) (m : Assemble Factory) : Prop :=
  (∃ f t, m s = (.ok f, t) ∧ s.Leads U t ∧ t.Admits U f ∧ P f) ∨
    ∃ cause t, m s = (.error (.error cause), t) ∧ s.Leads U t

theorem getFactory_unbound {key : Key} (h : s.tables.binding? key = none) :
    getFactory key s = match s.tables.construction? key.type with
      | some maker => implicitFactory key maker s
      | none => (.error (.error (.noConstruction key)), s) := by
  have hnone : s.factory? key = none := by simp [factory?, h]
  cases hmaker : s.tables.construction? key.type <;> simp [getFactory, hnone, hmaker]

theorem getFactory_finds (h : s.Sound U) (key : Key) (hkey : key ∈ U) :
    Finds U s (fun f => f.isGuarded) (getFactory key) := by
  cases hb : s.tables.binding? key with
  | some b =>
    have hmem := (mem_of_binding? hb).1
    exact .inl ⟨_, s, getFactory_bound hb, .refl h, h.admits hmem, h.guarded b hmem⟩
  | none =>
    have hunbound := getFactory_unbound hb
    cases hmaker : s.tables.construction? key.type with
    | none =>
      rw [hmaker] at hunbound
      exact .inr ⟨_, s, hunbound, .refl h⟩
    | some maker =>
      rw [hmaker] at hunbound
      rcases implicitFactory_spec h maker hb hkey with ⟨chain, -, hfail⟩ | ⟨-, f, t, hok, hgains⟩
      · exact .inr ⟨_, s, hunbound.trans hfail, .refl h⟩
      · exact .inl ⟨f, t, hunbound.trans hok, hgains.leads, hgains.found⟩

/-! ## Lookups of dependencies -/

/-- The binding that a dependency is looked up at: that of the first of its keys that is bound. -/
def chosen? (s : State) (p : InjectionPoint) : Option Binding :=
  p.candidates.findSome? s.tables.binding?

theorem findSome?_factory? (s : State) (keys : List Key) :
    keys.findSome? s.factory? = (keys.findSome? s.tables.binding?).map (·.factory) := by
  induction keys with
  | nil => rfl
  | cons key rest ih =>
    simp only [List.findSome?_cons, factory?]
    cases s.tables.binding? key with
    | some b => rfl
    | none => exact ih

theorem dependencyFactory_chosen {p : InjectionPoint} {b : Binding} (h : s.chosen? p = some b) :
    dependencyFactory p s = (.ok (some b.factory), s) := by
  have hfactory : p.candidates.findSome? s.factory? = some b.factory := by
    rw [findSome?_factory?]
    exact congrArg _ h
  simp [dependencyFactory, hfactory]

theorem dependencyFactory_unbound {p : InjectionPoint} (h : s.chosen? p = none) :
    dependencyFactory p s = match p.construction.or (s.tables.construction? p.key.type) with
      | some maker => (some <$> implicitFactory p.key maker : Assemble (Option Factory)) s
      | none =>
        if p.key.qualifier.isSome then (.ok none, s)
        else (.error (.error (.noConstruction p.key)), s) := by
  have hnone : p.candidates.findSome? s.factory? = none := by
    rw [findSome?_factory?]
    exact congrArg _ h
  cases hmaker : p.construction.or (s.tables.construction? p.key.type) with
  | some maker => simp [dependencyFactory, hnone, hmaker]
  | none =>
    simp only [dependencyFactory, run_bind, run_get, hnone, hmaker]
    split <;> rfl

theorem mem_of_chosen? {p : InjectionPoint} {b : Binding} (h : s.chosen? p = some b) :
    b ∈ s.tables.bindings := by
  obtain ⟨key, -, hb⟩ := List.exists_of_findSome?_eq_some h
  exact (mem_of_binding? hb).1

theorem unbound_of_chosen? {p : InjectionPoint} (h : s.chosen? p = none) :
    s.tables.binding? p.key = none :=
  List.findSome?_eq_none_iff.mp h p.key List.mem_cons_self

/-- What the lookup of a dependency does: it finds a factory, or nothing, or fails. -/
theorem dependencyFactory_spec (h : s.Sound U) {p : InjectionPoint} (hp : p.key ∈ U) :
    (∃ f t, dependencyFactory p s = (.ok (some f), t) ∧ s.Leads U t ∧ t.Admits U f ∧ f.isGuarded) ∨
      dependencyFactory p s = (.ok none, s) ∨
        ∃ cause, dependencyFactory p s = (.error (.error cause), s) := by
  cases hb : s.chosen? p with
  | some b =>
    have hmem := mem_of_chosen? hb
    exact .inl ⟨_, s, dependencyFactory_chosen hb, .refl h, h.admits hmem, h.guarded b hmem⟩
  | none =>
    have hunbound := dependencyFactory_unbound hb
    cases hmaker : p.construction.or (s.tables.construction? p.key.type) with
    | none =>
      rw [hmaker] at hunbound
      dsimp only at hunbound
      split at hunbound
      · exact .inr (.inl hunbound)
      · exact .inr (.inr ⟨_, hunbound⟩)
    | some maker =>
      rw [hmaker] at hunbound
      rcases implicitFactory_spec h maker (unbound_of_chosen? hb) hp with
        ⟨chain, -, hfail⟩ | ⟨-, f, t, hok, hgains⟩
      · exact .inr (.inr ⟨.circularDependency chain, by simp [hunbound, hfail]⟩)
      · exact .inl ⟨f, t, by simp [hunbound, hok], hgains.leads, hgains.found⟩

/-- A dependency that was put off is looked up as long as somebody holds the injector, and must be
there. -/
theorem findFactory_dependency_eq (s : State) (p : InjectionPoint) :
    findFactory (.dependency p) s =
      if s.alive then
        match dependencyFactory p s with
        | (.ok (some f), t) => (.ok f, t)
        | (.ok none, t) => (.error (.error (.noConstruction p.key)), t)
        | (.error stop, t) => (.error stop, t)
      else (.error (.error (.injectorDropped p.key)), s) := by
  cases halive : s.alive with
  | false => simp [findFactory, halive]
  | true =>
    cases hfound : dependencyFactory p s with
    | mk r t =>
      match r with
      | .ok (some f) => simp [findFactory, halive, hfound]
      | .ok none => simp [findFactory, halive, hfound]
      | .error stop => simp [findFactory, halive, hfound]

theorem findFactory_dependency (h : s.Sound U) {p : InjectionPoint} (hp : p.key ∈ U) :
    Finds U s (fun f => f.isGuarded) (findFactory (.dependency p)) := by
  by_cases halive : s.alive
  · rcases dependencyFactory_spec h hp with ⟨f, t, hok, hleads, hfound⟩ | hnone | ⟨cause, hfail⟩
    · exact .inl ⟨f, t, by simp [findFactory_dependency_eq, halive, hok], hleads, hfound⟩
    · exact .inr ⟨.noConstruction p.key, s, by simp [findFactory_dependency_eq, halive, hnone],
        .refl h⟩
    · exact .inr ⟨cause, s, by simp [findFactory_dependency_eq, halive, hfail], .refl h⟩
  · exact .inr ⟨.injectorDropped p.key, s, by simp [findFactory_dependency_eq, halive], .refl h⟩

theorem findFactory_numbered (s : State) (id : Nat) (key : Key) (failures : Nat) (f : Factory) :
    findFactory (.numbered id key failures f) s =
      (if (counted id s.lookups).1 < failures then .error (.error (.noConstruction key)) else .ok f,
        { s with
          journal := (Journal.note (.lookedUp key) s.journal).2
          lookups := (counted id s.lookups).2 }) := by
  have hlookups : ∀ t : State, nextLookup id t =
      ((counted id t.lookups).1, { t with lookups := (counted id t.lookups).2 }) := fun _ => rfl
  simp only [findFactory, run_bind, run_journal, run_lift, hlookups]
  split <;> rfl

/-- A supplier finds a factory that is in order if what it knows is. -/
theorem findFactory_finds (h : s.Sound U) {lookup : Lookup} (hkeys : lookup.keys ⊆ U)
    (hlookup : ∀ f ∈ lookup.factory?, f.Tidy s.owner? none) :
    Finds U s (fun _ => True) (findFactory lookup) := by
  cases lookup with
  | resolved key f => exact .inl ⟨f, s, rfl, .refl h, ⟨hkeys, hlookup f rfl⟩, trivial⟩
  | dependency p =>
    rcases findFactory_dependency h (hkeys List.mem_cons_self) with
      ⟨f, t, hok, hleads, hadmits, -⟩ | hfail
    · exact .inl ⟨f, t, hok, hleads, hadmits, trivial⟩
    · exact .inr hfail
  | numbered id key failures f =>
    have hnoted := fun lookups =>
      h.noted (Journal.note (.lookedUp key) s.journal).2 s.counters s.trials lookups
    have hrun := s.findFactory_numbered id key failures f
    split at hrun
    · exact .inr ⟨_, _, hrun, hnoted _⟩
    · exact .inl ⟨f, _, hrun, hnoted _, ⟨hkeys, (hlookup f rfl)⟩, trivial⟩

end State

end ComponentAssembly

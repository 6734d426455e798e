import ComponentAssembly.Proofs.Clashes
import ComponentAssembly.Proofs.Lookups

/-!
# What registrations do

A key is bound on request unless it is bound on request from another source already
(`State.insertBinding_spec`).  A module is installed as a whole or not at all
(`State.installModule_whole`):

    m.Disjoint ∧ m.FreeIn s   each method gets one scoped factory, bound under all its keys
    otherwise                 the complaint names what is in the way, and only the journal changes

No method is bound before the keys of all are checked.  The loop that then binds them meets no key
that is bound from another source: methods have no key in common, and each binds its own from a
single source.
-/

namespace ComponentAssembly

open Assemble

/-- The source from which a key is bound on request, if it is. -/
def State.source? (s : State) (key : Key) : Option String :=
  match s.tables.binding? key with
  | some { origin := .explicit source, .. } => some source
  | _ => none

/-- A loop goes on after its first step. -/
theorem Assemble.each_cons {α : Type} {m : α → Assemble Unit} {a : α} {as : List α} {s t : State}
    (h : m a s = (.ok (), t)) :
    (forIn (a :: as) PUnit.unit fun a _ => do m a; return .yield PUnit.unit : Assemble PUnit) s =
      (forIn as PUnit.unit fun a _ => do m a; return .yield PUnit.unit : Assemble PUnit) t := by
  simp only [List.forIn_cons, run_bind, h, run_pure]

namespace State

variable {s t u : State}

/-! ## Single bindings -/

theorem source?_eq_some_iff {key : Key} {source : String} : s.source? key = some source ↔
    ∃ b, s.tables.binding? key = some b ∧ b.origin = .explicit source := by
  unfold source?
  constructor
  · intro h
    split at h
    · next b hb =>
      cases h
      exact ⟨_, hb, rfl⟩
    · cases h
  · rintro ⟨⟨_, _, origin⟩, hb, rfl⟩
    rw [hb]

theorem conflict_eq (s : State) (key : Key) (source : String) :
    s.conflict key source = (s.source? key).bind fun existing =>
      if existing = source then none else some (.duplicateBinding key existing source) := by
  unfold conflict source?
  cases s.tables.binding? key with
  | none => rfl
  | some b =>
    obtain ⟨_, _, origin⟩ := b
    cases origin <;> rfl

theorem conflict_eq_some_iff {key : Key} {source : String} {cause : AssemblyError} :
    s.conflict key source = some cause ↔ ∃ existing, s.source? key = some existing ∧
      existing ≠ source ∧ cause = .duplicateBinding key existing source := by
  simp only [conflict_eq, Option.bind_eq_some_iff, Option.ite_none_left_eq_some, Option.some.injEq,
    ne_eq, eq_comm (a := cause)]

@[simp]
theorem conflict_eq_none_iff {key : Key} {source : String} :
    s.conflict key source = none ↔ ∀ existing, s.source? key = some existing → existing = source := by
  simp only [conflict_eq, Option.bind_eq_none_iff, ite_eq_left_iff, reduceCtorEq, imp_false,
    Decidable.not_not]

/-- What binding some keys to one factory from one source makes of a state. -/
structure Binds (s : State) (keys : List Key) (factory : Factory) (source : String) (t : State) :
    Prop where
  bound : ∀ key ∈ keys,
    t.tables.binding? key = some { key, factory, origin := .explicit source }
  others : ∀ key, key ∉ keys → t.tables.binding? key = s.tables.binding? key
  rest : t = { s with
    tables := { s.tables with bindings := t.tables.bindings }
    journal := { s.journal with log := t.journal.log } }

theorem binds_put (s : State) (key : Key) (factory : Factory) (source : String)
    (log : List LogRecord) :
    s.Binds [key] factory source { s with
      tables := s.tables.put { key, factory, origin := .explicit source }
      journal := { s.journal with log } } where
  bound other hmem := by
    obtain rfl := List.mem_singleton.mp hmem
    simp
  others other hmem := by simp [List.ne_of_not_mem_cons hmem]
  rest := congrArg (fun tables => { s with tables, journal := { s.journal with log } })
    (put_eq s.tables { key, factory, origin := .explicit source })

theorem Binds.source? {keys : List Key} {factory : Factory} {source : String}
    (h : s.Binds keys factory source t) (key : Key) :
    t.source? key = if key ∈ keys then some source else s.source? key := by
  by_cases hmem : key ∈ keys
  · rw [if_pos hmem]
    exact source?_eq_some_iff.mpr ⟨_, h.bound key hmem, rfl⟩
  · rw [if_neg hmem]
    unfold State.source?
    rw [h.others key hmem]

theorem Binds.cons {key : Key} {keys : List Key} {factory : Factory} {source : String}
    (h : s.Binds [key] factory source t) (h' : t.Binds keys factory source u) :
    s.Binds (key :: keys) factory source u where
  bound other hmem := by
    by_cases hkeys : other ∈ keys
    · exact h'.bound other hkeys
    · rw [h'.others other hkeys]
      exact h.bound other (List.mem_singleton.mpr ((List.mem_cons.mp hmem).resolve_right hkeys))
  others other hmem := by
    obtain ⟨hne, hkeys⟩ := not_or.mp fun h => hmem (List.mem_cons.mpr h)
    rw [h'.others other hkeys, h.others other (by simpa using hne)]
  rest := by
    rw [h'.rest, h.rest]

/-- A binding is refused if its key is bound on request from another source; otherwise it is put in
its place. -/
theorem insertBinding_spec (s : State) (key : Key) (factory : Factory) (source : String) :
    (∃ existing, s.source? key = some existing ∧ existing ≠ source ∧
      insertBinding { key, factory, origin := .explicit source } s =
        (.error (.error (.duplicateBinding key existing source)), s)) ∨
    s.conflict key source = none ∧
      ∃ t, insertBinding { key, factory, origin := .explicit source } s = (.ok (), t) ∧
        s.Binds [key] factory source t := by
  have hput : ∀ message, ∃ t, (do
      logBinding { key, factory, origin := .explicit source } message
      onTables (·.put { key, factory, origin := .explicit source }) : Assemble Unit) s = (.ok (), t) ∧
        s.Binds [key] factory source t := fun _ => ⟨_, rfl, s.binds_put key factory source _⟩
  rw [conflict_eq_none_iff]
  unfold insertBinding source?
  rw [get_bind]
  cases s.tables.binding? key with
  | none => exact .inr ⟨by simp, hput _⟩
  | some old =>
    obtain ⟨_, _, origin⟩ := old
    cases origin with
    | implicit => exact .inr ⟨by simp, hput _⟩
    | explicit existing =>
      dsimp only
      split
      · next heq => exact .inr ⟨by simpa using heq, hput _⟩
      · next hne => exact .inl ⟨existing, rfl, by simpa using hne, rfl⟩

end State

/-! ## What may stand in the way of a module -/

namespace Module

/-- No two methods of a module share a key. -/
def Disjoint (m : Module) : Prop :=
  m.methods.Pairwise fun first second => first.keys.Disjoint second.keys

/-- No key of a module is bound on request from another source than that of its method. -/
def FreeIn (m : Module) (s : State) : Prop :=
  ∀ method ∈ m.methods, ∀ key ∈ method.keys, ∀ existing,
    s.source? key = some existing → existing = m.sourceOf method

/-- The complaints with which a module is refused: two of its methods share a key, or else a key is
bound on request from another source than that of its method. -/
inductive RefusedBy (m : Module) (s : State) : AssemblyError → Prop
  | clash {i j : Nat} {first second : FactoryMethod} {key : Key} (hij : i < j)
      (hfirst : m.methods[i]? = some first) (hsecond : m.methods[j]? = some second)
      (hkey : key ∈ first.keys) (hkey' : key ∈ second.keys) :
      RefusedBy m s (.duplicateFactory m.name key first.method second.method)
  | taken {method : FactoryMethod} {key : Key} {existing : String} (hdisjoint : m.Disjoint)
      (hmethod : method ∈ m.methods) (hkey : key ∈ method.keys)
      (hsource : s.source? key = some existing) (hother : existing ≠ m.sourceOf method) :
      RefusedBy m s (.duplicateBinding key existing (m.sourceOf method))

theorem Disjoint.not_mem {m : Module} (h : m.Disjoint) {i j : Nat} {first second : FactoryMethod}
    {key : Key} (hij : i < j) (hfirst : m.methods[i]? = some first)
    (hsecond : m.methods[j]? = some second) (hkey : key ∈ first.keys) : key ∉ second.keys := by
  obtain ⟨hi, rfl⟩ := List.getElem?_eq_some_iff.mp hfirst
  obtain ⟨hj, rfl⟩ := List.getElem?_eq_some_iff.mp hsecond
  exact fun hkey' => List.pairwise_iff_getElem.mp h i j hi hj hij hkey hkey'

theorem RefusedBy.not_free {m : Module} {s : State} {cause : AssemblyError}
    (h : m.RefusedBy s cause) : ¬ (m.Disjoint ∧ m.FreeIn s) := by
  rintro ⟨hdisjoint, hfree⟩
  cases h with
  | clash hij hfirst hsecond hkey hkey' => exact hdisjoint.not_mem hij hfirst hsecond hkey hkey'
  | taken _ hmethod hkey hsource hother => exact hother (hfree _ hmethod _ hkey _ hsource)

theorem RefusedBy.of_source? {m : Module} {s t : State} {cause : AssemblyError}
    (h : m.RefusedBy t cause) (hsource : t.source? = s.source?) : m.RefusedBy s cause := by
  cases h with
  | clash hij hfirst hsecond hkey hkey' => exact .clash hij hfirst hsecond hkey hkey'
  | taken hdisjoint hmethod hkey hexisting hother =>
    exact .taken hdisjoint hmethod hkey (hsource ▸ hexisting) hother

/-- The check of the keys finds nothing exactly if nothing is in the way. -/
@[simp]
theorem firstConflict_eq_none_iff {m : Module} {s : State} :
    firstConflict s m = none ↔ m.FreeIn s := by
  simp only [firstConflict, List.findSome?_eq_none_iff, State.conflict_eq_none_iff, FreeIn]

theorem firstConflict_eq_some {m : Module} {s : State} {cause : AssemblyError}
    (h : firstConflict s m = some cause) (hdisjoint : m.Disjoint) : m.RefusedBy s cause := by
  obtain ⟨method, hmethod, h⟩ := List.exists_of_findSome?_eq_some h
  obtain ⟨key, hkey, h⟩ := List.exists_of_findSome?_eq_some h
  obtain ⟨existing, hsource, hother, rfl⟩ := State.conflict_eq_some_iff.mp h
  exact .taken hdisjoint hmethod hkey hsource hother

end Module

/-! ## Installing -/

/-- What a scope makes of a factory for a key: a cell is fresh and empty, and the key owns it. -/
inductive Scope.Wraps (s t : State) (key : Key) (inner : Factory) : Scope → Factory → Prop
  | unscoped : Wraps s t key inner .unscoped inner
  | singleton {cell : Nat} (hfresh : s.cells.length ≤ cell)
      (hempty : t.cells[cell]? = some { owner := key }) :
      Wraps s t key inner .singleton (.once cell inner)
  | memo (store : Nat) : Wraps s t key inner (.memo store) (.memo store key inner)

theorem Scope.Wraps.mono {s s' t t' : State} {key : Key} {inner kept : Factory} {scope : Scope}
    (h : scope.Wraps s t key inner kept) (hs : s'.cells.length ≤ s.cells.length)
    (ht : t.cells <+: t'.cells) : scope.Wraps s' t' key inner kept := by
  cases h with
  | unscoped => exact .unscoped
  | singleton hfresh hempty =>
    refine .singleton (by omega) ?_
    obtain ⟨added, hadded⟩ := ht
    rw [← hadded, List.getElem?_append_left (List.getElem?_eq_some_iff.mp hempty).1]
    exact hempty
  | memo store => exact .memo store

namespace State

/-- What installing some methods of a module makes of a state. -/
structure Installs (s : State) (m : Module) (methods : List FactoryMethod) (t : State) : Prop where
  /-- All keys of a method are bound to one factory, in the scope of the method. -/
  bound : ∀ method ∈ methods, ∃ kept,
    (s.tables.scopeOf method.scope).Wraps s t method.key (.method method.key method.recipe) kept ∧
      ∀ key ∈ method.keys, t.tables.binding? key =
        some { key, factory := .guarded method.key kept, origin := .explicit (m.sourceOf method) }
  others : ∀ key, (∀ method ∈ methods, key ∉ method.keys) →
    t.tables.binding? key = s.tables.binding? key
  cells : s.cells <+: t.cells
  /-- The scopes may tell that they wrap a factory; no factory runs. -/
  events : ∃ wrapped : List Key, t.journal.events = s.journal.events ++ wrapped.map .wrapped
  rest : t = { s with
    tables := { s.tables with bindings := t.tables.bindings }
    cells := t.cells
    journal := { s.journal with events := t.journal.events, log := t.journal.log } }

variable {s t u : State} {m : Module}

/-- The loop that binds the keys of a method goes through if none is bound from another source. -/
theorem bindKeys_spec (factory : Factory) (source : String) (keys : List Key) (s : State)
    (hfree : ∀ key ∈ keys, ∀ existing, s.source? key = some existing → existing = source) :
    ∃ t, (forIn keys PUnit.unit fun key _ => do
        insertBinding { key, factory, origin := .explicit source }
        return .yield PUnit.unit : Assemble PUnit) s = (.ok PUnit.unit, t) ∧
      s.Binds keys factory source t := by
  induction keys generalizing s with
  | nil => exact ⟨s, rfl, fun _ h => (by cases h), fun _ _ => rfl, rfl⟩
  | cons key rest ih =>
    rcases s.insertBinding_spec key factory source with
      ⟨existing, hsource, hother, -⟩ | ⟨-, t, hput, hbinds⟩
    · exact absurd (hfree key List.mem_cons_self existing hsource) hother
    · obtain ⟨u, hrest, hbinds'⟩ := ih t fun other hmem existing hsource => by
        rw [hbinds.source? other] at hsource
        split at hsource
        · exact (Option.some.inj hsource).symm
        · exact hfree other (List.mem_cons_of_mem _ hmem) existing hsource
      refine ⟨u, ?_, hbinds.cons hbinds'⟩
      exact (each_cons (m := fun key => insertBinding { key, factory, origin := .explicit source })
        hput).trans hrest

/-- The new factory of a scope: no binding has changed yet. -/
theorem wrapIn_eq (s : State) (scope : Scope) (key : Key) (inner : Factory) :
    ∃ kept t, wrapIn scope key inner s = (.ok kept, t) ∧ scope.Wraps s t key inner kept ∧
      s.cells <+: t.cells ∧
      (∃ wrapped : List Key, t.journal.events = s.journal.events ++ wrapped.map .wrapped) ∧
      t = { s with cells := t.cells, journal := { s.journal with events := t.journal.events } } := by
  cases scope with
  | unscoped => exact ⟨_, s, rfl, .unscoped, List.prefix_rfl, ⟨[], by simp⟩, rfl⟩
  | singleton =>
    refine ⟨_, _, rfl, .singleton (Nat.le_refl _) ?_, List.prefix_append _ _, ⟨[], ?_⟩, rfl⟩
    · exact List.getElem?_concat_length
    · exact (List.append_nil _).symm
  | memo store => exact ⟨_, _, rfl, .memo store, List.prefix_rfl, ⟨[key], rfl⟩, rfl⟩

/-- A method whose keys are not bound from another source is installed. -/
theorem installMethod_spec (s : State) (m : Module) (method : FactoryMethod)
    (hfree : ∀ key ∈ method.keys, ∀ existing,
      s.source? key = some existing → existing = m.sourceOf method) :
    ∃ t, installMethod m method s = (.ok (), t) ∧ s.Installs m [method] t := by
  obtain ⟨log, hscope⟩ := scopeFor_spec method.scope s
  obtain ⟨kept, u, hwrap, hwraps, hcells, hevents, hu⟩ := wrapIn_eq
    { s with journal := { s.journal with log } } (s.tables.scopeOf method.scope) method.key
    (.method method.key method.recipe)
  have hbinding : ∀ key, u.tables.binding? key = s.tables.binding? key := by rw [hu]; exact fun _ => rfl
  have hsource : ∀ key, u.source? key = s.source? key := by rw [hu]; exact fun _ => rfl
  obtain ⟨t, hbind, hbinds⟩ := bindKeys_spec (.guarded method.key kept) (m.sourceOf method)
    method.keys u fun key hkey existing hexisting => hfree key hkey existing (hsource key ▸ hexisting)
  have hrest := hbinds.rest
  have hsame : t.cells = u.cells := by rw [hrest]
  refine ⟨t, ?_, ?_, ?_, ?_, ?_, ?_⟩
  · simp only [installMethod, run_bind, hscope, hwrap, hbind, run_pure]
  · intro other hother
    obtain rfl := List.mem_singleton.mp hother
    refine ⟨kept, hwraps.mono (Nat.le_refl _) (hsame ▸ List.prefix_rfl), hbinds.bound⟩
  · intro key hkey
    rw [hbinds.others key (hkey method (List.mem_singleton.mpr rfl)), hbinding]
  · rw [hsame]
    exact hcells
  · rw [hrest]
    exact hevents
  · rw [hu] at hrest
    rw [hrest]

theorem Installs.cons {method : FactoryMethod} {methods : List FactoryMethod}
    (h : s.Installs m [method] t) (h' : t.Installs m methods u)
    (hdisjoint : ∀ other ∈ methods, method.keys.Disjoint other.keys) :
    s.Installs m (method :: methods) u where
  bound other hother := by
    rcases List.mem_cons.mp hother with rfl | hother
    · obtain ⟨kept, hwraps, hbound⟩ := h.bound other (List.mem_singleton.mpr rfl)
      refine ⟨kept, hwraps.mono (Nat.le_refl _) h'.cells, fun key hkey => ?_⟩
      rw [h'.others key fun next hnext => hdisjoint next hnext hkey, hbound key hkey]
    · obtain ⟨kept, hwraps, hbound⟩ := h'.bound other hother
      have hscopes : t.tables.scopeOf other.scope = s.tables.scopeOf other.scope := by rw [h.rest]; rfl
      exact ⟨kept, hscopes ▸ hwraps.mono h.cells.length_le List.prefix_rfl, hbound⟩
  others key hkey := by
    obtain ⟨hmethod, hmethods⟩ := List.forall_mem_cons.mp hkey
    rw [h'.others key hmethods, h.others key (List.forall_mem_singleton.mpr hmethod)]
  cells := h.cells.trans h'.cells
  events := by
    obtain ⟨wrapped, hwrapped⟩ := h.events
    obtain ⟨wrapped', hwrapped'⟩ := h'.events
    exact ⟨wrapped ++ wrapped', by rw [hwrapped', hwrapped]; simp⟩
  rest := by
    rw [h'.rest, h.rest]

theorem Installs.logged {methods : List FactoryMethod} (h : s.Installs m methods t)
    (log : List LogRecord) :
    s.Installs m methods { t with journal := { t.journal with log } } where
  bound method hmethod := by
    obtain ⟨kept, hwraps, hbound⟩ := h.bound method hmethod
    exact ⟨kept, hwraps.mono (Nat.le_refl _) List.prefix_rfl, hbound⟩
  others := h.others
  cells := h.cells
  events := h.events
  rest := by
    rw [h.rest]

/-- The loop that installs methods goes through if they share no key and no key is bound from another
source. -/
theorem installMethods_spec (m : Module) (methods : List FactoryMethod) (s : State)
    (hdisjoint : methods.Pairwise fun first second => first.keys.Disjoint second.keys)
    (hfree : ∀ method ∈ methods, ∀ key ∈ method.keys, ∀ existing,
      s.source? key = some existing → existing = m.sourceOf method) :
    ∃ t, (forIn methods PUnit.unit fun method _ => do
        installMethod m method
        return .yield PUnit.unit : Assemble PUnit) s = (.ok PUnit.unit, t) ∧
      s.Installs m methods t := by
  induction methods generalizing s with
  | nil =>
    exact ⟨s, rfl, fun _ h => (by cases h), fun _ _ => rfl, List.prefix_rfl, ⟨[], by simp⟩, rfl⟩
  | cons method rest ih =>
    obtain ⟨hmethod, hrest⟩ := List.pairwise_cons.mp hdisjoint
    obtain ⟨t, hinstall, hinstalls⟩ := installMethod_spec s m method (hfree method List.mem_cons_self)
    obtain ⟨u, hloop, hinstalls'⟩ := ih t hrest fun other hother key hkey existing hexisting => by
      refine hfree other (List.mem_cons_of_mem _ hother) key hkey existing ?_
      unfold source? at hexisting ⊢
      rw [← hinstalls.others key (List.forall_mem_singleton.mpr fun h => hmethod other hother h hkey)]
      exact hexisting
    exact ⟨u, (each_cons hinstall).trans hloop, hinstalls.cons hinstalls' hmethod⟩

/-- Only the journal has changed: a module is noted in it, and the log goes on. -/
def Notes (s : State) (m : Module) (t : State) : Prop :=
  ∃ log, t = { s with journal := { s.journal with
    events := s.journal.events ++ [.configured m.name], log } }

theorem declareModule_spec (s : State) (m : Module) :
    (m.Disjoint ∧ ∃ u, s.Notes m u ∧ declareModule m s = (.ok (), u)) ∨
      ∃ cause u, s.Notes m u ∧ m.RefusedBy s cause ∧
        declareModule m s = (.error (.error cause), u) := by
  rw [declareModule, run_bind, run_journal]
  cases hclash : m.clash with
  | none => exact .inl ⟨Module.duplicate_eq_none_iff.mp hclash, _, ⟨_, rfl⟩, rfl⟩
  | some cause =>
    obtain ⟨i, j, first, second, key, hfound, rfl⟩ := Module.duplicate_eq_some hclash
    exact .inr ⟨_, _, ⟨_, rfl⟩, .clash hfound.lt hfound.getFirst hfound.getSecond
      hfound.shared.mem hfound.mem_second, rfl⟩

theorem installModule_spec (s : State) (m : Module) : ∃ u, s.Notes m u ∧
    ((m.Disjoint ∧ m.FreeIn s ∧ ∃ t, installModule m s = (.ok (), t) ∧ u.Installs m m.methods t) ∨
      ∃ cause, m.RefusedBy s cause ∧ installModule m s = (.error (.error cause), u)) := by
  rw [installModule, run_bind]
  rcases s.declareModule_spec m with
    ⟨hdisjoint, u, hnotes, hdeclare⟩ | ⟨cause, u, hnotes, hrefused, hdeclare⟩
  · refine ⟨u, hnotes, ?_⟩
    have hsource : u.source? = s.source? := by
      obtain ⟨log, rfl⟩ := hnotes
      rfl
    simp only [hdeclare, run_bind, run_get]
    cases hconflict : firstConflict u m with
    | none =>
      have hfree : m.FreeIn u := Module.firstConflict_eq_none_iff.mp hconflict
      obtain ⟨t, hloop, hinstalls⟩ := installMethods_spec m m.methods u hdisjoint hfree
      refine .inl ⟨hdisjoint, fun method hmethod key hkey existing hexisting => ?_, _,
        by simp only [run_bind, hloop]; rfl, hinstalls.logged _⟩
      exact hfree method hmethod key hkey existing (hsource ▸ hexisting)
    | some cause =>
      exact .inr ⟨cause, (Module.firstConflict_eq_some hconflict hdisjoint).of_source? hsource, rfl⟩
  · exact ⟨u, hnotes, .inr ⟨cause, hrefused, by rw [hdeclare]⟩⟩

/-- **Modules are installed as a whole or not at all.**  A module is installed if no two of its
methods share a key and none of its keys is bound on request from another source.  Otherwise it is
refused with a complaint of one of these, and apart from the journal all is as before: the tables,
and also the cells, since neither a scope nor a factory has been called. -/
theorem installModule_whole (s : State) (m : Module) : ∃ u, s.Notes m u ∧
    ((m.Disjoint ∧ m.FreeIn s ∧ ∃ t, installModule m s = (.ok (), t) ∧ u.Installs m m.methods t) ∨
      ¬ (m.Disjoint ∧ m.FreeIn s) ∧
        ∃ cause, m.RefusedBy s cause ∧ installModule m s = (.error (.error cause), u)) := by
  obtain ⟨u, hnotes, hinstalled | ⟨cause, hrefused, hrun⟩⟩ := s.installModule_spec m
  · exact ⟨u, hnotes, .inl hinstalled⟩
  · exact ⟨u, hnotes, .inr ⟨hrefused.not_free, cause, hrefused, hrun⟩⟩

end State

end ComponentAssembly
